import CrossPool.Fabric.Generation

/-!
# Steps of the parties, by program counter

`AtnAgentTaken` and `LaneTaken` list what a rank and a lane can do, each step with
what enables it. Every later case analysis is one over these lists.
-/

namespace CrossPool.Fabric

open CrossPool.Control (ResultCode)
open CrossPool.Lib
open CrossPool.Fabric.Topology

variable {T : Topology} {V : Type} {K : Kernels V} {s t : State V}

/-! ## AtnAgent -/

/-- The steps of one AtnAgent rank. -/
inductive AtnAgentTaken (T : Topology) (K : Kernels V) (s : State V) (i r : Nat) : State V → Prop where
  | request (context : InvocationContext) (input : Nat → V) (resting : (s.control.atnagents i r).pc = .resting) :
      AtnAgentTaken T K s i r (T.atnAgentRequest s i r context input)
  | submit (stands : (s.control.atnagents i r).pc = .submit) : AtnAgentTaken T K s i r (T.submitStep s i r)
  | admission (stands : (s.control.atnagents i r).pc = .awaitAdmission)
      (reached :
        (s.control.atnagents i r).invocationSequence ≤ (s.control.slots (T.atnagentPe i r) (.admission i)).sequence) :
      AtnAgentTaken T K s i r (T.admissionStep s i r)
  | copyInput (stands : (s.control.atnagents i r).pc = .copyInput) : AtnAgentTaken T K s i r (T.copyInputStep s i r)
  | publishInput (rest : List Nat) (stands : (s.control.atnagents i r).pc = .publishInput rest) :
      AtnAgentTaken T K s i r (T.publishInputStep s i r rest)
  | commit (stands : (s.control.atnagents i r).pc = .awaitCommit)
      (reached :
        (s.control.atnagents i r).invocationSequence ≤
          (s.control.slots (T.atnagentPe i r) (.outputCommit i)).sequence) :
      AtnAgentTaken T K s i r (T.commitStep s i r)
  | materialize (stands : (s.control.atnagents i r).pc = .materialize) :
      AtnAgentTaken T K s i r (T.materializeStep K s i r)
  | acknowledge (stands : (s.control.atnagents i r).pc = .acknowledge) :
      AtnAgentTaken T K s i r (T.acknowledgeStep s i r)
  | cancel (stands : (s.control.atnagents i r).pc = .awaitAdmission ∨ (s.control.atnagents i r).pc = .awaitCommit) :
      AtnAgentTaken T K s i r (atnAgentGoto s i r .cancelled)
  | expire (stands : (s.control.atnagents i r).pc = .awaitAdmission ∨ (s.control.atnagents i r).pc = .awaitCommit) :
      AtnAgentTaken T K s i r (atnAgentGoto s i r (.converge .timeout))
  | cancelled (stands : (s.control.atnagents i r).pc = .cancelled) :
      AtnAgentTaken T K s i r (T.atnAgentCancelled s i r)
  | converge (candidate : ResultCode) (stands : (s.control.atnagents i r).pc = .converge candidate) :
      AtnAgentTaken T K s i r (T.convergeStep s i r candidate)
  | converged (stands : (s.control.atnagents i r).pc = .awaitFailure)
      (published : s.signals.published (T.atnagentPe i r)) :
      AtnAgentTaken T K s i r
        (atnAgentGoto s i r (.stopped (s.signals.failures (T.atnagentPe i r)).record.resultCode))
  | unconverged (stands : (s.control.atnagents i r).pc = .awaitFailure)
      (unpublished : s.signals.published (T.atnagentPe i r) = false) :
      AtnAgentTaken T K s i r (atnAgentGoto s i r .aborted)

theorem atnAgentMove_taken {i r : Nat} {move : AtnAgentMove V} (taken : T.atnAgentMove K s i r move = some t) :
    AtnAgentTaken T K s i r t := by
  cases move with
  | request context input =>
    simp only [atnAgentMove] at taken
    split at taken <;> cases taken
    next resting => exact .request context input resting
  | step =>
    simp only [atnAgentMove, atnAgentStep] at taken
    split at taken
    · cases taken
    · next stands =>
      cases taken
      exact .submit stands
    · next stands =>
      split at taken
      · next reached =>
        cases taken
        exact .admission stands reached
      · split at taken <;> cases taken
        exact .cancel (.inl stands)
    · next stands =>
      cases taken
      exact .copyInput stands
    · next rest stands =>
      cases taken
      exact .publishInput rest stands
    · next stands =>
      split at taken
      · next reached =>
        cases taken
        exact .commit stands reached
      · split at taken <;> cases taken
        exact .cancel (.inr stands)
    · next stands =>
      cases taken
      exact .materialize stands
    · next stands =>
      cases taken
      exact .acknowledge stands
    · next stands =>
      cases taken
      exact .cancelled stands
    · next candidate stands =>
      cases taken
      exact .converge candidate stands
    · next stands =>
      split at taken <;> cases taken
      next published => exact .converged stands published
    · cases taken
    · cases taken
  | expire =>
    simp only [atnAgentMove, atnAgentExpire] at taken
    split at taken
    · next stands =>
      split at taken <;> cases taken
      exact .expire (.inl stands)
    · next stands =>
      split at taken <;> cases taken
      exact .expire (.inr stands)
    · next stands =>
      split at taken <;> cases taken
      next unpublished => exact .unconverged stands (by simpa using unpublished)
    · cases taken

/-! ## Lane -/

/-- The steps of one lane. -/
inductive LaneTaken (T : Topology) (K : Kernels V) (s : State V) (p ℓ : Nat) : State V → Prop where
  | wrap (stands : (s.control.lanes p ℓ).pc = .awaitExecution)
      (wrapped : ((s.control.lanes p ℓ).lastLeaseSequence + 1) % 2 ^ 64 = 0) :
      LaneTaken T K s p ℓ (laneGoto s p ℓ .aborted)
  | observe (stands : (s.control.lanes p ℓ).pc = .awaitExecution)
      (unwrapped : ((s.control.lanes p ℓ).lastLeaseSequence + 1) % 2 ^ 64 ≠ 0)
      (reached :
        ((s.control.lanes p ℓ).lastLeaseSequence + 1) % 2 ^ 64 ≤ (s.control.slots p (.laneExecution ℓ)).sequence) :
      LaneTaken T K s p ℓ (T.observeStep s p ℓ)
  | cancelLane
      (stands :
        (s.control.lanes p ℓ).pc = .awaitExecution ∨ (s.control.lanes p ℓ).pc = .awaitPayloads ∨
          (s.control.lanes p ℓ).pc = .bindCompute)
      (flagged : s.signals.flagged p) : LaneTaken T K s p ℓ (laneGoto s p ℓ (.cancelled .lane))
  | cancelDelivery (stands : (s.control.lanes p ℓ).pc = .probePeerPartials) (flagged : s.signals.flagged p) :
      LaneTaken T K s p ℓ (laneGoto s p ℓ (.cancelled .delivery))
  | failPayloads (result : ResultCode) (stands : (s.control.lanes p ℓ).pc = .awaitPayloads) :
      LaneTaken T K s p ℓ (laneTerminate s p ℓ .lane result)
  | failPartials (result : ResultCode) (stands : (s.control.lanes p ℓ).pc = .probePeerPartials) :
      LaneTaken T K s p ℓ (laneTerminate s p ℓ .delivery result)
  | cancelled (site : TerminateSite) (stands : (s.control.lanes p ℓ).pc = .cancelled site) :
      LaneTaken T K s p ℓ (laneTerminate s p ℓ site (s.signals.cancellationResult p))
  | terminate (site : TerminateSite) (result : ResultCode)
      (stands : (s.control.lanes p ℓ).pc = .terminate site result) :
      LaneTaken T K s p ℓ (T.terminateStep s p ℓ site result)
  | payloadsReady (stands : (s.control.lanes p ℓ).pc = .awaitPayloads) (ready : pollPayloads s p ℓ = .ready) :
      LaneTaken T K s p ℓ (laneGoto s p ℓ .bindCompute)
  | bind (stands : (s.control.lanes p ℓ).pc = .bindCompute) : LaneTaken T K s p ℓ (T.bindStep s p ℓ)
  | routerRead (stands : (s.control.lanes p ℓ).pc = .routerRead) :
      LaneTaken T K s p ℓ (T.readInputStep s p ℓ .routerWrite)
  | routerWrite (stands : (s.control.lanes p ℓ).pc = .routerWrite) : LaneTaken T K s p ℓ (T.routerWriteStep K s p ℓ)
  | publishRouting (stands : (s.control.lanes p ℓ).pc = .publishRouting) :
      LaneTaken T K s p ℓ (T.publishRoutingStep s p ℓ)
  | sendRouting (rest : List Nat) (stands : (s.control.lanes p ℓ).pc = .sendRouting rest) :
      LaneTaken T K s p ℓ (T.sendRoutingStep s p ℓ rest)
  | expertRead (stands : (s.control.lanes p ℓ).pc = .expertRead) :
      LaneTaken T K s p ℓ
        (T.readInputStep s p ℓ
          (if (T.executionLayer (s.control.lanes p ℓ).execution).kind = .moe then .expertReadRouting else .expertWrite))
  | expertReadRouting (stands : (s.control.lanes p ℓ).pc = .expertReadRouting) :
      LaneTaken T K s p ℓ (T.readRoutingStep s p ℓ)
  | expertWrite (stands : (s.control.lanes p ℓ).pc = .expertWrite) : LaneTaken T K s p ℓ (T.expertWriteStep K s p ℓ)
  | prepare (stands : (s.control.lanes p ℓ).pc = .prepareDelivery) : LaneTaken T K s p ℓ (T.prepareStep s p ℓ)
  | quietPartial (readers : List Nat) (stands : (s.control.lanes p ℓ).pc = .quietPartial readers)
      (quiet : (s.payloads.lanes p ℓ).puts = []) : LaneTaken T K s p ℓ (laneGoto s p ℓ (.publishPartial readers))
  | publishPartial (rest : List Nat) (stands : (s.control.lanes p ℓ).pc = .publishPartial rest) :
      LaneTaken T K s p ℓ (T.publishPartialStep s p ℓ rest)
  | partialsReady (stands : (s.control.lanes p ℓ).pc = .probePeerPartials) (ready : T.probePeers s p ℓ = .ready) :
      LaneTaken T K s p ℓ (laneGoto s p ℓ (.deliver false))
  | directBlock (block : Nat) (stands : (s.control.lanes p ℓ).pc = .deliver true) (bound : block < T.deliveryBlockCount)
      (fresh : (s.payloads.lanes p ℓ).blocks block = .start) : LaneTaken T K s p ℓ (T.directBlockStep s p ℓ block)
  | completeBlock (block : Nat) (stands : (s.control.lanes p ℓ).pc = .deliver false)
      (bound : block < T.deliveryBlockCount) (fresh : (s.payloads.lanes p ℓ).blocks block = .start) :
      LaneTaken T K s p ℓ (T.completeBlockStart s p ℓ block)
  | reduceBlock (block first element stop : Nat) (partials : List V) (direct : Bool)
      (stands : (s.control.lanes p ℓ).pc = .deliver direct) (bound : block < T.deliveryBlockCount)
      (reduces : (s.payloads.lanes p ℓ).blocks block = .reduce first element stop partials) :
      LaneTaken T K s p ℓ (T.reduceStep K s p ℓ block first element stop partials)
  | putBlock (block first stop : Nat) (direct : Bool) (stands : (s.control.lanes p ℓ).pc = .deliver direct)
      (bound : block < T.deliveryBlockCount) (reduced : (s.payloads.lanes p ℓ).blocks block = .put first stop) :
      LaneTaken T K s p ℓ (T.putBlockStep s p ℓ block first stop)
  | delivered (direct : Bool) (stands : (s.control.lanes p ℓ).pc = .deliver direct)
      (finished : ∀ block < T.deliveryBlockCount, blockFinished (s.payloads.lanes p ℓ) block) :
      LaneTaken T K s p ℓ (laneGoto s p ℓ .completeExecution)
  | complete (stands : (s.control.lanes p ℓ).pc = .completeExecution) : LaneTaken T K s p ℓ (completeStep s p ℓ)
  | publishCompletion (stands : (s.control.lanes p ℓ).pc = .quietCompletion)
      (quiet : (s.payloads.lanes p ℓ).puts = []) : LaneTaken T K s p ℓ (T.publishCompletionStep s p ℓ)
  | exit (stands : (s.control.lanes p ℓ).pc = .quietTerminal) (quiet : (s.payloads.lanes p ℓ).puts = []) :
      LaneTaken T K s p ℓ (exitStep s p ℓ)

section Lane

variable {p ℓ : Nat}

theorem laneStep_taken (taken : T.laneStep K s p ℓ = some t) : LaneTaken T K s p ℓ t := by
  simp only [laneStep] at taken
  split at taken
  · next stands =>
    split at taken
    · next wrapped =>
      cases taken
      exact .wrap stands wrapped
    next unwrapped =>
    split at taken
    · next reached =>
      cases taken
      exact .observe stands unwrapped reached
    · split at taken <;> cases taken
      next flagged => exact .cancelLane (.inl stands) flagged
  · next stands =>
    split at taken
    · cases taken
      exact .failPayloads _ stands
    · next ready =>
      cases taken
      exact .payloadsReady stands ready
    · split at taken <;> cases taken
      next flagged => exact .cancelLane (.inr (.inl stands)) flagged
  · next stands =>
    split at taken
    · next flagged =>
      cases taken
      exact .cancelLane (.inr (.inr stands)) flagged
    · cases taken
      exact .bind stands
  · next stands =>
    cases taken
    exact .routerRead stands
  · next stands =>
    cases taken
    exact .routerWrite stands
  · next stands =>
    cases taken
    exact .publishRouting stands
  · next rest stands =>
    cases taken
    exact .sendRouting rest stands
  · next stands =>
    cases taken
    exact .expertRead stands
  · next stands =>
    cases taken
    exact .expertReadRouting stands
  · next stands =>
    cases taken
    exact .expertWrite stands
  · next stands =>
    cases taken
    exact .prepare stands
  · next readers stands =>
    split at taken <;> cases taken
    next quiet => exact .quietPartial readers stands quiet
  · next rest stands =>
    cases taken
    exact .publishPartial rest stands
  · next stands =>
    split at taken
    · cases taken
      exact .failPartials _ stands
    · next ready =>
      cases taken
      exact .partialsReady stands ready
    · split at taken <;> cases taken
      next flagged => exact .cancelDelivery stands flagged
  · next direct stands =>
    split at taken <;> cases taken
    next finished => exact .delivered direct stands (by simpa using finished)
  · next stands =>
    cases taken
    exact .complete stands
  · next stands =>
    split at taken <;> cases taken
    next quiet => exact .publishCompletion stands quiet
  · next stands =>
    split at taken <;> cases taken
    next quiet => exact .exit stands quiet
  · next site stands =>
    cases taken
    exact .cancelled site stands
  · next site result stands =>
    cases taken
    exact .terminate site result stands
  · cases taken
  · cases taken

theorem blockStep_taken {block : Nat} {direct : Bool} (stands : (s.control.lanes p ℓ).pc = .deliver direct)
    (taken : T.blockStep K s p ℓ block direct = some t) : LaneTaken T K s p ℓ t := by
  simp only [blockStep] at taken
  split at taken
  · next bound =>
    split at taken
    · next fresh =>
      cases direct <;> cases taken
      · exact .completeBlock block stands bound fresh
      · exact .directBlock block stands bound fresh
    · next first element stop partials reduces =>
      cases taken
      exact .reduceBlock block first element stop partials direct stands bound reduces
    · next first stop reduced =>
      cases taken
      exact .putBlock block first stop direct stands bound reduced
    · cases taken
    · cases taken
  · cases taken

theorem laneMove_taken {move : LaneMove} (taken : T.laneMove K s p ℓ move = some t) : LaneTaken T K s p ℓ t := by
  cases move with
  | step => exact laneStep_taken taken
  | block index =>
    simp only [laneMove] at taken
    split at taken
    · next stands => exact blockStep_taken stands taken
    · cases taken
  | expire =>
    simp only [laneMove, laneExpire] at taken
    split at taken
    · next stands =>
      split at taken <;> cases taken
      exact .failPayloads _ stands
    · next stands =>
      split at taken <;> cases taken
      exact .failPartials _ stands
    · cases taken

end Lane

/-! ## Frames -/

/-- A lane's step leaves the buffers and registers of other lanes and of the ranks
alone. -/
structure LaneFrame (p ℓ : Nat) (d d' : Payloads V) : Prop where
  memory : ∀ q buffer m element, ¬(q = p ∧ m = ℓ) → d'.memory q buffer m element = d.memory q buffer m element
  lanes : ∀ q m, ¬(q = p ∧ m = ℓ) → d'.lanes q m = d.lanes q m
  held : ∀ q m, ¬(q = p ∧ m = ℓ) → d'.held q m = d.held q m
  atnagents : d'.atnagents = d.atnagents
  inputs : d'.inputs = d.inputs
  returns : d'.returns = d.returns

namespace LaneFrame

variable {p ℓ : Nat} {d : Payloads V}

theorem refl (d : Payloads V) : LaneFrame p ℓ d d :=
  ⟨fun _ _ _ _ _ => rfl, fun _ _ _ => rfl, fun _ _ _ => rfl, rfl, rfl, rfl⟩

theorem setLane {d' : Payloads V} (frame : LaneFrame p ℓ d d') (registers : LaneRegisters V) :
    LaneFrame p ℓ d (d'.setLane p ℓ registers) where
  memory := frame.memory
  lanes q m other := (update₂_of_ne _ _ other).trans (frame.lanes q m other)
  held := frame.held
  atnagents := frame.atnagents
  inputs := frame.inputs
  returns := frame.returns

theorem write {d' : Payloads V} (frame : LaneFrame p ℓ d d') (buffer : Buffer) (element : Nat) (value : V) :
    LaneFrame p ℓ d (d'.write p buffer ℓ element value) where
  memory q buffer' m element' other := by
    have elsewhere : ¬(q = p ∧ buffer' = buffer ∧ m = ℓ ∧ element' = element) := fun ⟨pe, _, lane, _⟩ => other ⟨pe, lane⟩
    simp only [Payloads.write, elsewhere, if_false]
    exact frame.memory q buffer' m element' other
  lanes := frame.lanes
  held := frame.held
  atnagents := frame.atnagents
  inputs := frame.inputs
  returns := frame.returns

theorem setSlot {d' : Payloads V} (frame : LaneFrame p ℓ d d') (pe : Nat) (slot : PayloadSlot)
    (channel : Channel LaneSuccess (Nat × V)) : LaneFrame p ℓ d (d'.setSlot pe slot channel) where
  memory := frame.memory
  lanes := frame.lanes
  held := frame.held
  atnagents := frame.atnagents
  inputs := frame.inputs
  returns := frame.returns

/-- The history of partials, and of what was computed and read. -/
theorem note {d' : Payloads V} (frame : LaneFrame p ℓ d d') (holds : Option Nat) (computations : List (Computation V))
    (reads : List (PartialRead V)) :
    LaneFrame p ℓ d
      { d' with
        held := update₂ d'.held p ℓ holds
        computations := computations
        reads := reads } where
  memory := frame.memory
  lanes := frame.lanes
  held q m other := (update₂_of_ne _ _ other).trans (frame.held q m other)
  atnagents := frame.atnagents
  inputs := frame.inputs
  returns := frame.returns

end LaneFrame

theorem LaneTaken.frame {p ℓ : Nat} (taken : LaneTaken T K s p ℓ t) : LaneFrame p ℓ s.payloads t.payloads := by
  cases taken with
  | observe =>
    simp only [observeStep]
    split
    · exact .refl _
    · split <;> exact .refl _
  | terminate =>
    simp only [terminateStep]
    split
    · split <;> exact .refl _
    · exact .refl _
  | bind => exact (LaneFrame.refl _).setLane _
  | routerRead =>
    simp only [readInputStep]
    split <;> exact (LaneFrame.refl _).setLane _
  | expertRead =>
    simp only [readInputStep]
    split <;> exact (LaneFrame.refl _).setLane _
  | routerWrite =>
    simp only [routerWriteStep]
    split
    · exact ((LaneFrame.refl _).write _ _ _).setLane _
    · exact .refl _
  | publishRouting =>
    simp only [publishRoutingStep]
    split
    · exact (LaneFrame.refl _).setLane _
    · split
      · exact .refl _
      · exact ((LaneFrame.refl _).setSlot _ _ _).setLane _
  | sendRouting rest =>
    cases rest with
    | nil => exact (LaneFrame.refl _).setLane _
    | cons destination rest =>
      simp only [sendRoutingStep]
      split
      · exact (LaneFrame.refl _).setLane _
      · split
        · exact ((LaneFrame.refl _).setSlot _ _ _).setLane _
        · exact .refl _
  | expertReadRouting =>
    simp only [readRoutingStep]
    split
    · exact (LaneFrame.refl _).setLane _
    · exact .refl _
  | expertWrite =>
    simp only [expertWriteStep]
    split
    · exact (((LaneFrame.refl _).write _ _ _).setLane _).note _ _ _
    · exact (LaneFrame.refl _).note _ _ _
  | prepare =>
    simp only [prepareStep]
    split
    · exact .refl _
    split
    · exact .refl _
    · exact (LaneFrame.refl _).setLane _
    · exact ((LaneFrame.refl _).setSlot _ _ _).setLane _
  | publishPartial rest =>
    cases rest with
    | nil => exact .refl _
    | cons destination rest =>
      simp only [publishPartialStep]
      split
      · exact (LaneFrame.refl _).setSlot _ _ _
      · exact .refl _
  | directBlock =>
    simp only [directBlockStep]
    split
    · exact .refl _
    · split
      · exact .refl _
      · exact (LaneFrame.refl _).setLane _
  | completeBlock =>
    simp only [completeBlockStart]
    split
    · exact (LaneFrame.refl _).setLane _
    split
    · exact .refl _
    split
    · exact .refl _
    split
    · exact (LaneFrame.refl _).setLane _
    · split <;> exact (LaneFrame.refl _).setLane _
  | reduceBlock block first element stop partials =>
    simp only [reduceStep]
    split
    · split
      · refine ⟨fun _ _ _ _ _ => rfl, fun q m other => ?_, fun _ _ _ => rfl, rfl, rfl, rfl⟩
        exact update₂_of_ne _ _ other
      · exact ((LaneFrame.refl _).write _ _ _).setLane _
    · exact (LaneFrame.refl _).setLane _
  | putBlock => exact (LaneFrame.refl _).setLane _
  | complete =>
    simp only [completeStep]
    split <;> exact .refl _
  | publishCompletion =>
    simp only [publishCompletionStep]
    split <;> exact .refl _
  | _ => exact .refl _

/-- A rank's step leaves the lanes' registers and history alone. -/
structure AtnAgentFrame (d d' : Payloads V) : Prop where
  lanes : d'.lanes = d.lanes
  held : d'.held = d.held
  computations : d'.computations = d.computations
  reads : d'.reads = d.reads

theorem AtnAgentFrame.refl (d : Payloads V) : AtnAgentFrame d d :=
  ⟨rfl, rfl, rfl, rfl⟩

theorem AtnAgentTaken.frame {i r : Nat} (taken : AtnAgentTaken T K s i r t) : AtnAgentFrame s.payloads t.payloads := by
  cases taken with
  | request =>
    simp only [atnAgentRequest]
    split
    · exact .refl _
    · split
      · exact ⟨rfl, rfl, rfl, rfl⟩
      · exact .refl _
  | submit =>
    simp only [submitStep]
    split <;> exact ⟨rfl, rfl, rfl, rfl⟩
  | admission =>
    simp only [admissionStep]
    split <;> exact ⟨rfl, rfl, rfl, rfl⟩
  | copyInput =>
    simp only [copyInputStep]
    split <;> exact ⟨rfl, rfl, rfl, rfl⟩
  | publishInput rest =>
    cases rest with
    | nil => exact .refl _
    | cons destination rest =>
      simp only [publishInputStep]
      split
      · exact ⟨rfl, rfl, rfl, rfl⟩
      · split <;> exact ⟨rfl, rfl, rfl, rfl⟩
  | commit =>
    simp only [commitStep]
    split <;> exact ⟨rfl, rfl, rfl, rfl⟩
  | materialize =>
    simp only [materializeStep]
    split
    · exact .refl _
    · split <;> exact ⟨rfl, rfl, rfl, rfl⟩
  | acknowledge =>
    simp only [acknowledgeStep]
    split <;> exact ⟨rfl, rfl, rfl, rfl⟩
  | cancelled =>
    simp only [atnAgentCancelled]
    split <;> exact .refl _
  | converge =>
    simp only [convergeStep]
    split <;> exact .refl _
  | _ => exact .refl _

/-- The Coordinator touches no payload. -/
theorem coordinatorStep_payloads (taken : T.coordinatorStep s = some t) : t.payloads = s.payloads := by
  have published : ∀ slot rest resume done, (T.publishStep s slot rest resume done).payloads = s.payloads := by
    intro slot rest resume done
    cases rest with
    | nil => rfl
    | cons destination rest =>
      simp only [publishStep]
      split <;> rfl
  have discovered : ∀ index, (T.discoverStep s index).payloads = s.payloads := by
    intro index
    simp only [discoverStep]
    split
    · rfl
    split
    · rfl
    split
    · rfl
    · rfl
    · split <;> rfl
  have progressed : ∀ index, (T.progressStep s index).payloads = s.payloads := by
    intro index
    simp only [progressStep]
    split
    · rfl
    split
    · split
      · rfl
      · split <;> rfl
    · split
      · rfl
      split
      · rfl
      · rfl
      · split <;> rfl
  unfold coordinatorStep at taken
  split at taken
  · split at taken <;> (cases taken; rfl)
  · cases taken
    rfl
  · split at taken <;> cases taken
    · exact discovered _
    · rfl
  · split at taken <;> (cases taken; rfl)
  · split at taken
    · cases taken
      rfl
    · split at taken <;> (cases taken; rfl)
  · split at taken <;> cases taken
    · exact progressed _
    · rfl
  · split at taken <;> (cases taken; rfl)
  · cases taken
    rfl
  · cases taken
    exact published _ _ _ _
  · split at taken <;> (cases taken; rfl)
  · dsimp only at taken
    split at taken <;> (cases taken; rfl)
  · cases taken
    exact published _ _ _ _
  · cases taken
    rfl
  · cases taken
    exact published _ _ _ _
  · cases taken
    rfl
  · cases taken
    rfl
  · cases taken
  · cases taken

end CrossPool.Fabric
