import CrossPool.Lib.Broadcast
import CrossPool.Fabric.Coordination
import CrossPool.Fabric.IdleLane

/-!
# Canonical failure agreement

`Failure` is a claimed broadcast with the Coordinator PE as its home; a read of the
broadcast is the readout of `cancellation_result` or the end of `converge_failure`,
each behind `published`. The parties of a generation call `try_publish` as
`Topology.raises` computes it, so that a run of the generation is a run of the
broadcast in which claim, write and put of a call come at once. What is broadcast
passes the checks of `Runtime::failure`.
-/

namespace CrossPool.Fabric

open CrossPool.Control (ResultCode)
open CrossPool.Lib

/-! ## Readout -/

inductive RuntimePhase where
  | empty
  | joined
  | draining
  | drained
  | finalizing
  | closed
deriving DecidableEq, Repr

namespace Topology

variable (T : Topology) {V : Type}

/-- `Runtime::failure` over the words copied from the device. -/
def runtimeFailure (phase : RuntimePhase) (publication : Nat) (payload : FailurePayload) :
    Except String (Option FailurePayload) := do
  if phase ≠ .joined ∧ phase ≠ .draining ∧ phase ≠ .drained then
    throw "xpool Fabric failure is unavailable outside a joined generation"
  if publication = 0 then return none
  if publication ≠ 1 then throw "xpool Fabric failure has an invalid publication value"
  if payload.resultCode ≠ .protocolMismatch ∧ payload.resultCode ≠ .timeout then
    throw "xpool Fabric failure has an invalid result code"
  if T.peCount ≤ payload.originPe then throw "xpool Fabric failure has an invalid origin PE"
  if !payload.key.valid ∨ T.instances.length ≤ payload.key.instanceIndex then
    throw "xpool Fabric failure has an invalid invocation key"
  if (T.instanceEntry payload.key.instanceIndex).layers.length ≤ payload.layerOrdinal then
    throw "xpool Fabric failure has an invalid layer ordinal"
  return some payload

/-! ## Calls -/

/-- What a caller passes to `try_publish`, past its abort check. -/
def calling (pe : Nat) (result : ResultCode) (key : InvocationKey) (layerOrdinal : Nat) : Option (Nat × FailurePayload) :=
  if Signals.admissible result key then some (pe, ⟨result, pe, key, layerOrdinal⟩) else none

/-- The call of `try_publish` that an event makes. -/
def raises (s : State V) : Event V → Option (Nat × FailurePayload)
  | .coordinator =>
    match s.control.coordinator with
    | .publishMismatch key layerOrdinal _ => calling T.coordinatorPe .protocolMismatch key layerOrdinal
    | _ => none
  | .atnagent i r .step =>
    let a := s.control.atnagents i r
    match a.pc with
    | .converge candidate => calling (T.atnagentPe i r) candidate (a.key i) a.context.layerOrdinal
    | _ => none
  | .lane p ℓ .step =>
    let l := s.control.lanes p ℓ
    match l.pc with
    | .terminate _ result =>
      if result = .protocolMismatch ∨ result = .timeout then
        calling p result l.execution.key l.execution.layerOrdinal
      else none
    | _ => none
  | _ => none

/-- A PE makes the call somewhere in a run of the code. -/
def Raised (K : Kernels V) (policy : PolicyState) (pe : Nat) (payload : FailurePayload) : Prop :=
  ∃ s event, (T.fabric K policy).Reachable s ∧ (T.next K s event).isSome ∧ T.raises s event = some (pe, payload)

/-- Whether a call passes the abort check of `try_publish`. -/
def Admitted (pe : Nat) (payload : FailurePayload) : Prop :=
  Signals.admissible payload.resultCode payload.key ∧ payload.originPe = pe

/-- The failure slots of a generation, by the steps of `try_publish`,
`publish_to_all` and their readers. -/
abbrev failureBoard (calls : Nat → FailurePayload → Prop) : System (Board FailurePayload) (Board.Move FailurePayload) :=
  Board.system T.coordinatorPe (List.range T.peCount) default calls

end Topology

/-! ## What the code calls with -/

/-- The key and layer of an invocation of the generation. -/
structure Known (T : Topology) (key : InvocationKey) (layerOrdinal : Nat) : Prop where
  index : key.instanceIndex < T.instanceCount
  layer : layerOrdinal < (T.instanceEntry key.instanceIndex).layers.length

section Calls

variable {T : Topology} {V : Type} {K : Kernels V} {policy : PolicyState} {s t : State V} {k k' : Control} {i p ℓ pe : Nat}
  {payload : FailurePayload}

theorem layers_nonempty (bound : i < T.instanceCount) : 0 < (T.instanceEntry i).layers.length := by
  rcases Topology.instance_valid (T := T) i with missing | valid
  · have valid := T.valid
    simp only [ArenaProjection.validate, Bool.and_eq_true, List.all_eq_true] at valid
    have own := valid.2 _ (List.getElem_mem bound)
    have entry : T.instanceEntry i = T.instances[i] := List.getD_eq_getElem _ _ bound
    rw [← entry, missing] at own
    have zero : (default : Instance).decodePayloadRowCapacity = 0 := rfl
    simp [Instance.validate, zero] at own
  · simp only [Instance.validate, Bool.and_eq_true, decide_eq_true_eq] at valid
    exact List.length_pos_of_ne_nil valid.1.2

theorem Books.known (books : Books T k) (admissions : Admissions T k) (occupied : (k.scheduler.entries i).state ≠ .idle) :
    Known T (k.scheduler.entries i).invocation.key (k.scheduler.entries i).invocation.layerOrdinal := by
  have entry := books.entry i
  refine ⟨?_, (admissions.entry i occupied).layer⟩
  rw [(entry.enqueued occupied).1]
  exact entry.bounded occupied

/-- What a lane has observed is an invocation of the generation. -/
def LanesKnown (T : Topology) (k : Control) : Prop :=
  ∀ p ℓ, T.isLane p ℓ → (k.lanes p ℓ).execution.key.valid →
    Known T (k.lanes p ℓ).execution.key (k.lanes p ℓ).execution.layerOrdinal

theorem LaneControl.known (effect : LaneControl T k p ℓ k') (isLane : T.isLane p ℓ) (leases : Leases T k)
    (admissions : Admissions T k)
    (known : (k.lanes p ℓ).execution.key.valid → Known T (k.lanes p ℓ).execution.key (k.lanes p ℓ).execution.layerOrdinal) :
    (k'.lanes p ℓ).execution.key.valid → Known T (k'.lanes p ℓ).execution.key (k'.lanes p ℓ).execution.layerOrdinal := by
  cases effect with
  | stay => exact known
  | observe l stands unwrapped reached execution =>
    intro _
    have book := leases.lane p ℓ isLane
    obtain ⟨-, ⟨invocation, assigned, record⟩, -⟩ := book.tracks.fresh (book.fresh stands unwrapped reached)
    simp only [Control.setLane, update₂_same, execution]
    rw [record]
    exact ⟨(leases.chain.bounded _ _ _ assigned.granted).2, (admissions.granted _ _ _ assigned.granted).layer⟩
  | move =>
    simp only [Control.setLane, update₂_same]
    exact known
  | stage =>
    simp only [Control.setLane, update₂_same]
    exact known
  | complete =>
    simp only [update₂_same]
    exact known

theorem reachable_lanesKnown (reached : (T.fabric K policy).Reachable s) : LanesKnown T s.control := by
  intro p ℓ isLane
  induction reached with
  | start init =>
    obtain ⟨memory, rfl⟩ := init
    intro valid
    have unset : (default : LaneExecution).key.valid = false := rfl
    have valid : (default : LaneExecution).key.valid := valid
    rw [unset] at valid
    cases valid
  | next before _ taken known =>
    rcases (next_control taken).lane_cases p ℓ with same | effect
    · rwa [same]
    · exact effect.known isLane (reachable_leases before) (reachable_admissions before) known

/-- What the Coordinator reports a mismatch of is an invocation of the generation. -/
def MismatchKnown (T : Topology) (k : Control) : Prop :=
  ∀ key layerOrdinal site, k.coordinator = .publishMismatch key layerOrdinal site → Known T key layerOrdinal

/-- The Coordinator goes anywhere but to report a mismatch. -/
def CoordinatorPc.reports : CoordinatorPc → Bool
  | publishMismatch _ _ _ => true
  | _ => false

theorem MismatchKnown.of_silent (silent : k.coordinator.reports = false) : MismatchKnown T k := by
  intro key layerOrdinal site stands
  rw [stands] at silent
  cases silent

theorem discoverStep_known (bound : i < T.instanceCount) : MismatchKnown T (T.discoverStep s i).control := by
  simp only [Topology.discoverStep]
  split
  · exact .of_silent rfl
  split
  · rintro key layerOrdinal site ⟨⟩
    exact ⟨bound, layers_nonempty bound⟩
  split
  · exact .of_silent rfl
  · next mismatch =>
    have named := inspectSubmissionRendezvous_mismatch mismatch
    rintro key layerOrdinal site ⟨⟩
    rw [named]
    exact ⟨bound, layers_nonempty bound⟩
  · split <;> exact .of_silent rfl

theorem progressStep_known (books : Books T s.control) (admissions : Admissions T s.control) :
    MismatchKnown T (T.progressStep s i).control := by
  simp only [Topology.progressStep]
  split
  · exact .of_silent rfl
  next invocation lane active =>
  obtain ⟨state, same, -⟩ := Scheduler.activeDecision_eq_some active
  have known := books.known admissions (i := i) (by simp [state])
  rw [same] at known
  have mismatch : MismatchKnown T
      (Topology.coordinatorGoto s (.publishMismatch invocation.key invocation.layerOrdinal .progress)).control := by
    rintro key layerOrdinal site ⟨⟩
    exact known
  split
  · split
    · exact .of_silent rfl
    · split
      · exact mismatch
      · exact .of_silent rfl
      · exact .of_silent rfl
  split
  · exact .of_silent rfl
  split
  · exact mismatch
  · exact .of_silent rfl
  · split <;> exact .of_silent rfl

theorem publishStep_silent {slot : Slot} {rest : List Nat} {resume : List Nat → CoordinatorPc} {done : CoordinatorPc}
    (resumes : ∀ rest, (resume rest).reports = false) (ends : done.reports = false) :
    MismatchKnown T (T.publishStep s slot rest resume done).control := by
  apply MismatchKnown.of_silent
  cases rest with
  | nil => exact ends
  | cons destination rest =>
    simp only [Topology.publishStep]
    split
    · exact resumes rest
    · rfl

theorem coordinatorStep_known (taken : T.coordinatorStep s = some t) (books : Books T s.control)
    (admissions : Admissions T s.control) : MismatchKnown T t.control := by
  simp only [Topology.coordinatorStep] at taken
  split at taken
  case h_1 =>
    split at taken <;> cases taken
    · exact .of_silent rfl
    · exact .of_silent rfl
  case h_2 =>
    cases taken
    refine .of_silent ?_
    simp only [Topology.coordinatorGoto]
    split <;> rfl
  case h_3 =>
    split at taken <;> cases taken
    · next bound => exact discoverStep_known bound
    · exact .of_silent rfl
  case h_4 =>
    split at taken <;> cases taken
    · exact .of_silent rfl
    · exact .of_silent rfl
  case h_5 =>
    split at taken
    · cases taken
      exact .of_silent rfl
    · split at taken <;> cases taken
      · exact .of_silent rfl
      · exact .of_silent rfl
  case h_6 =>
    split at taken <;> cases taken
    · exact progressStep_known books admissions
    · exact .of_silent rfl
  case h_7 =>
    split at taken <;> cases taken
    · exact .of_silent rfl
    · exact .of_silent rfl
  case h_8 =>
    cases taken
    exact .of_silent rfl
  case h_9 =>
    cases taken
    exact publishStep_silent (fun _ => rfl) rfl
  case h_10 =>
    split at taken <;> cases taken
    · exact .of_silent rfl
    · exact .of_silent rfl
    · exact .of_silent rfl
  case h_11 =>
    split at taken <;> cases taken
    · exact .of_silent rfl
    · exact .of_silent rfl
  case h_12 =>
    cases taken
    exact publishStep_silent (fun _ => rfl) rfl
  case h_13 =>
    cases taken
    exact .of_silent rfl
  case h_14 =>
    cases taken
    exact publishStep_silent (fun _ => rfl) rfl
  case h_15 =>
    cases taken
    exact .of_silent rfl
  case h_16 =>
    cases taken
    exact .of_silent rfl
  case h_17 => cases taken
  case h_18 => cases taken

theorem reachable_mismatchKnown (reached : (T.fabric K policy).Reachable s) : MismatchKnown T s.control := by
  apply System.ReachableUnder.invariant ?_ ?_ reached
  · rintro s ⟨memory, rfl⟩
    exact .of_silent rfl
  · intro s event t reached known _ taken
    rcases next_coordinator taken with moved | same
    · exact coordinatorStep_known moved (reachable_books reached) (reachable_admissions reached)
    · unfold MismatchKnown at known ⊢
      rw [same]
      exact known

/-- The rank is inside a request that `resolve_context` let pass. -/
def AtnAgentPc.serving : AtnAgentPc → Bool
  | resting => false
  | stopped _ => false
  | aborted => false
  | _ => true

/-- The layer of a request that is being served is one of its instance. -/
def RanksKnown (T : Topology) (k : Control) : Prop :=
  ∀ i r, (k.atnagents i r).pc.serving → (k.atnagents i r).context.layerOrdinal < (T.instanceEntry i).layers.length

/-- A served rank keeps its context; a rank that starts to be served has a resolved one. -/
theorem AtnAgentTaken.context (taken : AtnAgentTaken T K s i r t) (serving : (t.control.atnagents i r).pc.serving) :
    ((s.control.atnagents i r).pc.serving ∧
        (t.control.atnagents i r).context = (s.control.atnagents i r).context) ∨
      T.resolveContext i (t.control.atnagents i r).context := by
  cases taken with
  | request context input resting =>
    simp only [Topology.atnAgentRequest] at serving ⊢
    split at serving
    · simp [Topology.atnAgentGoto, Control.setAtnAgent, AtnAgentPc.serving] at serving
    · split at serving
      · next exhausted resolved =>
        right
        simp [exhausted, resolved, Control.setAtnAgent]
      · simp [Topology.atnAgentGoto, Control.setAtnAgent, AtnAgentPc.serving] at serving
  | submit stands =>
    left
    simp only [Topology.submitStep]
    split <;> simp [stands, AtnAgentPc.serving, Topology.atnAgentGoto, Control.setAtnAgent]
  | admission stands =>
    left
    simp only [Topology.admissionStep]
    split <;> simp [stands, AtnAgentPc.serving, Topology.atnAgentGoto, Control.setAtnAgent]
  | copyInput stands =>
    left
    simp only [Topology.copyInputStep]
    split <;> simp [stands, AtnAgentPc.serving, Topology.atnAgentGoto, Control.setAtnAgent]
  | publishInput rest stands =>
    left
    simp only [Topology.publishInputStep]
    split
    · simp [stands, AtnAgentPc.serving, Topology.atnAgentGoto, Control.setAtnAgent]
    · split
      · simp [stands, AtnAgentPc.serving]
      · split <;> simp [stands, AtnAgentPc.serving, Topology.atnAgentGoto, Control.setAtnAgent]
  | commit stands =>
    left
    simp only [Topology.commitStep]
    split <;> simp [stands, AtnAgentPc.serving, Topology.atnAgentGoto, Control.setAtnAgent]
  | materialize stands =>
    left
    simp only [Topology.materializeStep]
    split
    · simp [stands, AtnAgentPc.serving, Topology.atnAgentGoto, Control.setAtnAgent]
    · split <;> simp [stands, AtnAgentPc.serving, Topology.atnAgentGoto, Control.setAtnAgent]
  | acknowledge stands =>
    left
    simp only [Topology.acknowledgeStep]
    split <;> simp [stands, AtnAgentPc.serving, Topology.atnAgentGoto, Control.setAtnAgent]
  | cancel stands =>
    left
    rcases stands with stands | stands <;>
      simp [stands, AtnAgentPc.serving, Topology.atnAgentGoto, Control.setAtnAgent]
  | expire stands =>
    left
    rcases stands with stands | stands <;>
      simp [stands, AtnAgentPc.serving, Topology.atnAgentGoto, Control.setAtnAgent]
  | cancelled stands =>
    left
    simp only [Topology.atnAgentCancelled]
    split <;> simp [stands, AtnAgentPc.serving, Topology.atnAgentGoto, Control.setAtnAgent]
  | converge candidate stands =>
    left
    simp only [Topology.convergeStep]
    split <;> simp [stands, AtnAgentPc.serving, Topology.atnAgentGoto, Control.setAtnAgent]
  | converged => simp [Topology.atnAgentGoto, Control.setAtnAgent, AtnAgentPc.serving] at serving
  | unconverged => simp [Topology.atnAgentGoto, Control.setAtnAgent, AtnAgentPc.serving] at serving

/-- Only a rank moves that rank. -/
theorem next_atnagent {event : Event V} (taken : T.next K s event = some t) (i r : Nat) :
    t.control.atnagents i r = s.control.atnagents i r ∨ AtnAgentTaken T K s i r t := by
  cases event with
  | atnagent i' r' move =>
    simp only [Topology.next] at taken
    split at taken
    · have step := atnAgentMove_taken taken
      by_cases same : i = i' ∧ r = r'
      · obtain ⟨rfl, rfl⟩ := same
        exact .inr step
      · exact .inl (step.control.frame.atnagents _ _ same)
    · cases taken
  | coordinator =>
    exact .inl (congrFun (congrFun (coordinatorStep_control taken).frame.atnagents i) r)
  | lane p ℓ move =>
    simp only [Topology.next] at taken
    split at taken
    · exact .inl (congrFun (congrFun (laneMove_taken taken).control.frame.atnagents i) r)
    · cases taken
  | publication destination slot delivery =>
    obtain ⟨⟨channel, written⟩, -, rfl⟩ := Option.map_eq_some_iff.mp taken
    exact .inl rfl
  | payload destination slot delivery =>
    obtain ⟨⟨channel, written⟩, -, rfl⟩ := Option.map_eq_some_iff.mp taken
    cases written <;> exact .inl rfl
  | failure destination delivery =>
    obtain ⟨⟨channel, written⟩, -, rfl⟩ := Option.map_eq_some_iff.mp taken
    exact .inl rfl
  | put pe lane index move =>
    simp only [Topology.next, Topology.putStep] at taken
    split at taken
    · split at taken
      · cases taken
        exact .inl rfl
      · cases taken
    · obtain ⟨value, -, rfl⟩ := Option.map_eq_some_iff.mp taken
      exact .inl rfl
    · cases taken
  | shutdown pe =>
    cases taken
    exact .inl rfl

theorem reachable_ranksKnown (reached : (T.fabric K policy).Reachable s) : RanksKnown T s.control := by
  apply System.ReachableUnder.invariant ?_ ?_ reached
  · rintro s ⟨memory, rfl⟩ i r serving
    cases serving
  · intro s event t _ known _ taken i r serving
    rcases next_atnagent taken i r with same | moved
    · rw [same] at serving ⊢
      exact known i r serving
    · rcases moved.context serving with ⟨served, context⟩ | resolved
      · rw [context]
        exact known i r served
      · simp only [Topology.resolveContext, Bool.and_eq_true, decide_eq_true_eq] at resolved
        exact resolved.1.1.1

/-- What the code calls `try_publish` with passes the checks of its readout. -/
structure Passes (T : Topology) (pe : Nat) (payload : FailurePayload) : Prop where
  result : payload.resultCode = .protocolMismatch ∨ payload.resultCode = .timeout
  caller : payload.originPe = pe
  origin : pe < T.peCount
  key : payload.key.valid
  known : Known T payload.key payload.layerOrdinal

theorem Passes.of_calling {result : ResultCode} {key : InvocationKey} {layerOrdinal caller : Nat}
    (calls : Topology.calling caller result key layerOrdinal = some (pe, payload)) (origin : caller < T.peCount)
    (known : key.valid → Known T key layerOrdinal) : Passes T pe payload := by
  unfold Topology.calling at calls
  split at calls
  · next admissible =>
    obtain ⟨rfl, rfl⟩ := Prod.mk.inj (Option.some.inj calls)
    simp only [Signals.admissible, Bool.and_eq_true, Bool.or_eq_true, decide_eq_true_eq] at admissible
    exact ⟨admissible.2, rfl, origin, admissible.1, known admissible.1⟩
  · cases calls

theorem Topology.Raised.passes (raised : T.Raised K policy pe payload) : Passes T pe payload := by
  obtain ⟨s, event, reached, taken, raises⟩ := raised
  have counts : T.peCount = T.atnagentCount + T.ffnagentCount := rfl
  cases event with
  | coordinator =>
    simp only [Topology.raises] at raises
    split at raises
    · next key layerOrdinal site stands =>
      refine .of_calling raises ?_ fun _ => reachable_mismatchKnown reached key layerOrdinal site stands
      have nonempty : T.ffnagentCount ≠ 0 := by
        have valid := T.valid
        simp only [ArenaProjection.validate, Bool.and_eq_true, decide_eq_true_eq] at valid
        exact valid.1.1.1.2
      have home : T.coordinatorPe = T.atnagentCount := rfl
      omega
    · cases raises
  | atnagent i r move =>
    cases move with
    | step =>
      simp only [Topology.raises] at raises
      split at raises
      · next candidate stands =>
        simp only [Topology.next] at taken
        split at taken
        · next rank =>
          refine .of_calling raises ?_ fun _ => ?_
          · have := Topology.atnagentPes_lt (Topology.atnagentPe_mem rank)
            omega
          · exact ⟨(Topology.isRank_iff.mp rank).1, reachable_ranksKnown reached i r (by simp [stands, AtnAgentPc.serving])⟩
        · cases taken
      · cases raises
    | request => cases raises
    | expire => cases raises
  | lane p ℓ move =>
    cases move with
    | step =>
      simp only [Topology.raises] at raises
      split at raises
      · split at raises
        · simp only [Topology.next] at taken
          split at taken
          · next isLane =>
            exact .of_calling raises (Topology.isLane_iff.mp isLane).2.1 (reachable_lanesKnown reached p ℓ isLane)
          · cases taken
        · cases raises
      · cases raises
    | block => cases raises
    | expire => cases raises
  | _ => cases raises

end Calls

/-! ## A run of the code is a run of the broadcast -/

section Mirror

variable {T : Topology} {V : Type} {K : Kernels V} {policy : PolicyState} {s t : State V} {pe : Nat} {payload : FailurePayload}
  {g g' : Signals} {pc pc' : CoordinatorPc} {calls : Nat → FailurePayload → Prop} {b b' : Board FailurePayload}

/-- Between the steps of the code no call is half done. -/
structure Mirrors (b : Board FailurePayload) (g : Signals) (pc : CoordinatorPc) : Prop where
  claim : b.claim = g.claim
  copies : b.copies = g.failures
  callers : ∀ caller, b.callers caller = .idle
  hub : b.hub.owes = pc.owes

/-- The Coordinator claims nothing but to report a mismatch. -/
theorem coordinatorStep_claim (taken : T.coordinatorStep s = some t) (silent : s.control.coordinator.reports = false) :
    t.signals.claim = s.signals.claim := by
  have step := coordinatorStep_signals taken
  simp only [Topology.coordinatorStep] at taken
  split at taken
  case h_4 stands =>
    rw [stands] at silent
    cases silent
  case h_3 =>
    split at taken <;> cases taken
    · rw [discoverStep_signals.1]
    · rfl
  case h_6 =>
    split at taken <;> cases taken
    · rw [progressStep_signals.1]
    · rfl
  case h_9 | h_12 | h_14 =>
    cases taken
    rw [(publishStep_signals (fun _ => rfl) rfl).1]
  all_goals
    repeat' split at taken
  all_goals cases taken
  all_goals rfl

/-- The call of an event is what it publishes. -/
theorem next_calls {event : Event V} (taken : T.next K s event = some t) (raises : T.raises s event = some (pe, payload)) :
    payload.originPe = pe ∧
      t.signals = s.signals.tryPublish T.coordinatorPe pe payload.resultCode payload.key payload.layerOrdinal ∧
        t.control.coordinator.owes = s.control.coordinator.owes := by
  have called {result : ResultCode} {key : InvocationKey} {layerOrdinal caller : Nat}
      (calls : Topology.calling caller result key layerOrdinal = some (pe, payload)) :
      Signals.admissible result key ∧ caller = pe ∧ payload = ⟨result, caller, key, layerOrdinal⟩ := by
    unfold Topology.calling at calls
    split at calls
    · next admissible =>
      obtain ⟨rfl, rfl⟩ := Prod.mk.inj (Option.some.inj calls)
      exact ⟨admissible, rfl, rfl⟩
    · cases calls
  cases event with
  | coordinator =>
    simp only [Topology.raises] at raises
    split at raises
    · next key layerOrdinal site stands =>
      obtain ⟨admissible, rfl, rfl⟩ := called raises
      simp only [Topology.next, Topology.coordinatorStep, stands, admissible, if_true] at taken
      cases taken
      refine ⟨rfl, rfl, ?_⟩
      rw [stands]
      rfl
    · cases raises
  | atnagent i r move =>
    cases move with
    | step =>
      simp only [Topology.raises] at raises
      split at raises
      · next candidate stands =>
        obtain ⟨admissible, rfl, rfl⟩ := called raises
        simp only [Topology.next] at taken
        split at taken
        · simp only [Topology.atnAgentMove, Topology.atnAgentStep, stands, Topology.convergeStep, admissible, if_true]
            at taken
          cases taken
          exact ⟨rfl, rfl, rfl⟩
        · cases taken
      · cases raises
    | request => cases raises
    | expire => cases raises
  | lane p ℓ move =>
    cases move with
    | step =>
      simp only [Topology.raises] at raises
      split at raises
      · next site result stands =>
        split at raises
        · next fails =>
          obtain ⟨admissible, rfl, rfl⟩ := called raises
          simp only [Topology.next] at taken
          split at taken
          · simp only [Topology.laneMove, Topology.laneStep, stands, Topology.terminateStep, admissible, fails, if_true]
              at taken
            cases taken
            exact ⟨rfl, rfl, rfl⟩
          · cases taken
        · cases raises
      · cases raises
    | block => cases raises
    | expire => cases raises
  | _ => cases raises

/-- An event without a call claims nothing. -/
theorem next_unclaimed {event : Event V} (taken : T.next K s event = some t) (silent : T.raises s event = none) :
    t.signals.claim = s.signals.claim := by
  have uncalled {result : ResultCode} {key : InvocationKey} {layerOrdinal caller : Nat}
      (calls : Topology.calling caller result key layerOrdinal = none) : Signals.admissible result key = false := by
    unfold Topology.calling at calls
    split at calls
    · cases calls
    · next refused => simpa using refused
  cases event with
  | coordinator =>
    simp only [Topology.raises] at silent
    split at silent
    · next key layerOrdinal site stands =>
      simp only [Topology.next, Topology.coordinatorStep, stands, uncalled silent] at taken
      cases taken
      rfl
    · next elsewhere =>
      apply coordinatorStep_claim taken
      cases stands : s.control.coordinator with
      | publishMismatch key layerOrdinal site => exact absurd stands (elsewhere key layerOrdinal site)
      | _ => rfl
  | atnagent i r move =>
    simp only [Topology.next] at taken
    split at taken
    · rcases (atnAgentMove_taken taken).quiet with same | ⟨candidate, stands, rfl⟩
      · rw [same]
      · cases move with
        | step =>
          simp only [Topology.raises, stands] at silent
          simp only [Topology.convergeStep, uncalled silent]
          rfl
        | request => simp [Topology.atnAgentMove, stands] at taken
        | expire => simp [Topology.atnAgentMove, Topology.atnAgentExpire, stands] at taken
    · cases taken
  | lane p ℓ move =>
    simp only [Topology.next] at taken
    split at taken
    · rcases (laneMove_taken taken).quiet with same | ⟨site, result, stands, rfl⟩
      · rw [same]
      · cases move with
        | step =>
          simp only [Topology.raises, stands] at silent
          simp only [Topology.terminateStep]
          split
          · next fails =>
            rw [if_pos fails] at silent
            rw [uncalled silent]
            rfl
          · rfl
        | block => simp [Topology.laneMove, stands] at taken
        | expire => simp [Topology.laneMove, Topology.laneExpire, stands] at taken
    · cases taken
  | publication destination slot delivery =>
    obtain ⟨⟨channel, written⟩, -, rfl⟩ := Option.map_eq_some_iff.mp taken
    rfl
  | payload destination slot delivery =>
    obtain ⟨⟨channel, written⟩, -, rfl⟩ := Option.map_eq_some_iff.mp taken
    cases written <;> rfl
  | failure destination delivery =>
    obtain ⟨⟨channel, written⟩, -, rfl⟩ := Option.map_eq_some_iff.mp taken
    rfl
  | put pe lane index move =>
    simp only [Topology.next, Topology.putStep] at taken
    split at taken
    · split at taken
      · cases taken
        rfl
      · cases taken
    · obtain ⟨value, -, rfl⟩ := Option.map_eq_some_iff.mp taken
      rfl
    · cases taken
  | shutdown pe =>
    cases taken
    rfl

theorem Mirrors.watching (mirrors : Mirrors b g pc) (loops : pc.owes = none) : b.hub = .watching := by
  have owes := mirrors.hub.trans loops
  match hub : b.hub, owes with
  | .watching, _ => rfl
  | .sending rest, owes => cases owes
  | .done, owes => cases owes

/-- A step without a call is a step of the home or of the interconnect, or none. -/
theorem Mirrors.step (mirrors : Mirrors b g pc) (step : SignalStep T g pc g' pc') (unclaimed : g'.claim = g.claim) :
    ∃ b', (T.failureBoard calls).Later b b' ∧ Mirrors b' g' pc' := by
  have one (move : Board.Move FailurePayload) {b' : Board FailurePayload}
      (taken : b.next T.coordinatorPe (List.range T.peCount) move = some b')
      (plain : ∀ caller payload, move ≠ .call caller payload) : (T.failureBoard calls).Later b b' :=
    (System.LaterUnder.refl b).step trivial ⟨taken, fun caller payload called => absurd called (plain caller payload)⟩
  have home (published : g.published T.coordinatorPe) : b.published T.coordinatorPe := by
    rw [Board.published_iff, mirrors.copies]
    exact Signals.published_iff.mp published
  cases step with
  | quiet pc' owes =>
    rcases owes with same | stopped
    · exact ⟨b, .refl b, mirrors.claim, mirrors.copies, mirrors.callers, mirrors.hub.trans same.symm⟩
    · exact ⟨{ b with hub := .done }, one .leave rfl (by simp), mirrors.claim, mirrors.copies, mirrors.callers, stopped.symm⟩
  | announce published loops =>
    refine ⟨{ b with hub := .sending ((List.range T.peCount).filter (· ≠ T.coordinatorPe)) },
      one .watch ?_ (by simp), mirrors.claim, mirrors.copies, mirrors.callers, rfl⟩
    simp [Board.next, mirrors.watching loops, home published]
  | send destination rest stands =>
    have hub : b.hub = .sending (destination :: rest) := by
      have owes : b.hub.owes = some (destination :: rest) := by
        rw [mirrors.hub, stands]
        rfl
      cases hub : b.hub with
      | sending rest' =>
        rw [hub] at owes
        rw [Option.some.inj owes]
      | watching =>
        rw [hub] at owes
        cases owes
      | done =>
        rw [hub] at owes
        cases owes
    refine
      ⟨{ b.setCopy destination
            ((b.copies destination).send
              { payload := []
                record := (b.copies T.coordinatorPe).record
                landed := false }) with
          hub := .sending rest },
        one .send (by simp only [Board.next, hub]) (by simp), mirrors.claim, ?_, mirrors.callers, rfl⟩
    simp only [Board.setCopy, Signals.setFailure, mirrors.copies]
  | claim caller result key layerOrdinal pc' admissible owes =>
    have same : g.tryPublish T.coordinatorPe caller result key layerOrdinal = g := by
      cases claimed : g.claim with
      | true => simp [Signals.tryPublish, claimed]
      | false => simp [Signals.tryPublish, claimed, Signals.setFailure] at unclaimed
    rw [same]
    exact ⟨b, .refl b, mirrors.claim, mirrors.copies, mirrors.callers, mirrors.hub.trans owes.symm⟩
  | deliver destination delivery channel written delivered =>
    refine ⟨b.setCopy destination channel, one (.deliver destination delivery) ?_ (by simp), mirrors.claim, ?_,
      mirrors.callers, mirrors.hub⟩
    · rw [Board.next, mirrors.copies, delivered]
      rfl
    · simp only [Board.setCopy, Signals.setFailure, mirrors.copies]
  | shutdown => exact ⟨b, .refl b, mirrors.claim, mirrors.copies, mirrors.callers, mirrors.hub⟩

/-- A call is claim, write and put at once. -/
theorem Mirrors.call (mirrors : Mirrors b g pc) (permits : calls pe payload) (caller : payload.originPe = pe)
    (owes : pc'.owes = pc.owes) :
    ∃ b', (T.failureBoard calls).Later b b' ∧
      Mirrors b' (g.tryPublish T.coordinatorPe pe payload.resultCode payload.key payload.layerOrdinal) pc' := by
  have called : (T.failureBoard calls).Later b (b.setCaller (pe, 0) (.calling payload)) := by
    apply (System.LaterUnder.refl b).step trivial (a := .call (pe, 0) payload)
    refine ⟨by rw [Board.next, mirrors.callers], ?_⟩
    rintro _ _ ⟨⟩
    exact permits
  have still (other : Nat × Nat) (pc : CallerPc FailurePayload) :
      ((b.setCaller (pe, 0) pc).setCaller (pe, 0) .idle).callers other = .idle := by
    by_cases same : other = (pe, 0)
    · simp [same, Board.setCaller]
    · simp [Board.setCaller, Function.update_of_ne same, mirrors.callers]
  have stands (pc : CallerPc FailurePayload) : (b.setCaller (pe, 0) pc).callers (pe, 0) = pc := by
    simp [Board.setCaller]
  cases claimed : g.claim with
  | true =>
    refine ⟨(b.setCaller (pe, 0) (.calling payload)).setCaller (pe, 0) .idle, called.step trivial (a := .swap (pe, 0)) ?_, ?_⟩
    · refine ⟨?_, (by simp)⟩
      simp only [Board.next, stands]
      exact if_pos (mirrors.claim.trans claimed)
    · rw [Signals.tryPublish, if_pos claimed]
      exact ⟨mirrors.claim, mirrors.copies, fun other => still other _, mirrors.hub.trans owes.symm⟩
  | false =>
    -- the claim is won, so the other three steps of the call can be taken
    obtain ⟨won, swapped, claim, copies, callers, hub⟩ :
        ∃ won, (T.failureBoard calls).Later b won ∧ won.claim = true ∧ won.copies = g.failures ∧
          won.callers = Function.update b.callers (pe, 0) (.won payload) ∧ won.hub = b.hub := by
      refine
        ⟨{ (b.setCaller (pe, 0) (.calling payload)).setCaller (pe, 0) (.won payload) with
            claim := true
            winners := b.winners ++ [(pe, payload)] },
          called.step trivial (a := .swap (pe, 0)) ⟨?_, (by simp)⟩, rfl, mirrors.copies, ?_, rfl⟩
      · simp only [Board.next, stands]
        refine if_neg ?_
        rw [show (b.setCaller (pe, 0) (.calling payload)).claim = b.claim from rfl, mirrors.claim, claimed]
        decide
      · simp [Board.setCaller]
    have wrote : (T.failureBoard calls).Later b
        ((won.setCopy pe ((won.copies pe).store payload)).setCaller (pe, 0) (.written payload)) := by
      apply swapped.step trivial (a := .write (pe, 0))
      refine ⟨?_, (by simp)⟩
      simp [Board.next, callers]
    refine ⟨_, wrote.step trivial (a := .put (pe, 0)) ⟨by simp only [Board.next, Board.setCaller, Function.update_self]; rfl,
      (by simp)⟩, ?_⟩
    have unclaimed : ¬g.claim := by simp [claimed]
    rw [Signals.tryPublish, if_neg unclaimed]
    refine ⟨claim, ?_, ?_, (congrArg HubPc.owes hub).trans (mirrors.hub.trans owes.symm)⟩
    · obtain ⟨result, origin, key, layerOrdinal⟩ := payload
      obtain rfl : origin = pe := caller
      simp only [Board.setCopy, Signals.setFailure, copies, Function.update_self]
      rfl
    · intro other
      by_cases same : other = (pe, 0)
      · simp [same]
      · simp [Board.setCopy, Function.update_of_ne same, callers, mirrors.callers]

/-- Every run of the code is one of the broadcast, made of the calls of its events. -/
theorem next_mirrors {event : Event V} (reached : (T.fabric K policy).Reachable s) (taken : T.next K s event = some t)
    (mirrors : Mirrors b s.signals s.control.coordinator) :
    ∃ b', (T.failureBoard (T.Raised K policy)).Later b b' ∧ Mirrors b' t.signals t.control.coordinator := by
  cases call : T.raises s event with
  | none => exact mirrors.step (next_signals taken) (next_unclaimed taken call)
  | some made =>
    obtain ⟨pe, payload⟩ := made
    obtain ⟨caller, signals, owes⟩ := next_calls taken call
    rw [signals]
    exact mirrors.call ⟨s, event, reached, by simp [taken], call⟩ caller owes

theorem later_mirrors (reached : (T.fabric K policy).Reachable s) (later : (T.fabric K policy).Later s t)
    (mirrors : Mirrors b s.signals s.control.coordinator) :
    ∃ b', (T.failureBoard (T.Raised K policy)).Later b b' ∧ Mirrors b' t.signals t.control.coordinator := by
  induction later with
  | refl => exact ⟨b, .refl b, mirrors⟩
  | tail before last ih =>
    obtain ⟨between, leads, mirrors⟩ := ih
    obtain ⟨event, -, taken⟩ := last
    obtain ⟨b', further, mirrors⟩ := next_mirrors (System.LaterUnder.reachable reached before) taken mirrors
    exact ⟨b', leads.trans further, mirrors⟩

theorem reachable_mirrors (reached : (T.fabric K policy).Reachable s) :
    ∃ b, (T.failureBoard (T.Raised K policy)).Reachable b ∧ Mirrors b s.signals s.control.coordinator := by
  induction reached with
  | start init =>
    obtain ⟨memory, rfl⟩ := init
    exact ⟨.create default, .start rfl, rfl, rfl, fun _ => rfl, rfl⟩
  | next before _ taken ih =>
    obtain ⟨b, reached, mirrors⟩ := ih
    obtain ⟨b', later, mirrors⟩ := next_mirrors before taken mirrors
    exact ⟨b', later.reachable reached, mirrors⟩

end Mirror

/-! ## Agreement -/

section Agreement

variable {T : Topology} {pe : Nat} {payload : FailurePayload}

/-- What passes is returned by `Runtime::failure` in every phase of a joined generation. -/
theorem Passes.runtimeFailure (passes : Passes T pe payload) {phase : RuntimePhase}
    (joined : phase = .joined ∨ phase = .draining ∨ phase = .drained) :
    T.runtimeFailure phase 1 payload = .ok (some payload) := by
  have outside : ¬(phase ≠ .joined ∧ phase ≠ .draining ∧ phase ≠ .drained) := by
    rintro ⟨first, second, third⟩
    rcases joined with here | here | here
    · exact first here
    · exact second here
    · exact third here
  have result : ¬(payload.resultCode ≠ .protocolMismatch ∧ payload.resultCode ≠ .timeout) := by
    rintro ⟨first, second⟩
    rcases passes.result with here | here
    · exact first here
    · exact second here
  have origin : ¬T.peCount ≤ payload.originPe := by
    have := passes.origin
    rw [passes.caller]
    omega
  have key : ¬((!payload.key.valid) = true ∨ T.instances.length ≤ payload.key.instanceIndex) := by
    have index : payload.key.instanceIndex < T.instances.length := passes.known.index
    rw [passes.key]
    rintro (invalid | out)
    · cases invalid
    · omega
  have layer : ¬(T.instanceEntry payload.key.instanceIndex).layers.length ≤ payload.layerOrdinal := by
    have := passes.known.layer
    omega
  simp only [Topology.runtimeFailure, if_neg outside, if_neg result, if_neg origin, if_neg key, if_neg layer]
  rfl

/-- What is published on a board of permitted calls is what its winner called with. -/
theorem Board.Sound.called {calls : Nat → FailurePayload → Prop} {b : Board FailurePayload}
    (reached : (T.failureBoard calls).Reachable b) (published : b.published pe) :
    ∃ winner, b.winners = [(winner, (b.copies pe).record)] ∧ calls winner (b.copies pe).record := by
  obtain ⟨winner, won⟩ := (Board.reachable_sound List.nodup_range reached).winner published
  refine ⟨winner, won, (Board.reachable_permitted reached).winners winner _ ?_⟩
  rw [won]
  exact List.mem_singleton_self _

/-- One canonical failure for every interleaving of the calls of any number of
PEs; where the calls are those of the code, it passes every check of its readout,
and a run of the code sees nothing else. -/
theorem failure_agreement (T : Topology) {V : Type} (K : Kernels V) (policy : PolicyState) :
    (∀ b, (T.failureBoard Topology.Admitted).Reachable b →
      b.winners.length ≤ 1 ∧
        (∀ pe, b.published pe →
          (∃ winner, b.winners = [(winner, (b.copies pe).record)] ∧ (b.copies pe).record.originPe = winner) ∧
            ∀ b', (T.failureBoard Topology.Admitted).Later b b' →
              b'.published pe ∧ (b'.copies pe).record = (b.copies pe).record ∧ b'.winners = b.winners) ∧
          ∀ pe pe' first second, (pe, first) ∈ b.reads → (pe', second) ∈ b.reads →
            first = second ∧ ∃ winner, b.winners = [(winner, first)]) ∧
      (∀ b, (T.failureBoard (T.Raised K policy)).Reachable b → ∀ pe, b.published pe →
        ∀ phase ∈ [RuntimePhase.joined, .draining, .drained],
          T.runtimeFailure phase (b.copies pe).sequence (b.copies pe).record = .ok (some (b.copies pe).record)) ∧
        ∀ s t, (T.fabric K policy).Reachable s → (T.fabric K policy).Later s t → ∀ pe pe', s.signals.published pe →
          t.signals.published pe ∧
            (t.signals.published pe' → (t.signals.failures pe').record = (s.signals.failures pe).record) ∧
              ∀ phase ∈ [RuntimePhase.joined, .draining, .drained],
                T.runtimeFailure phase (t.signals.failures pe).sequence (t.signals.failures pe).record =
                  .ok (some (t.signals.failures pe).record) := by
  have readout {b : Board FailurePayload} (reached : (T.failureBoard (T.Raised K policy)).Reachable b) {pe : Nat}
      (published : b.published pe) {phase : RuntimePhase} (joined : phase ∈ [RuntimePhase.joined, .draining, .drained]) :
      T.runtimeFailure phase (b.copies pe).sequence (b.copies pe).record = .ok (some (b.copies pe).record) := by
    obtain ⟨winner, -, called⟩ := Board.Sound.called reached published
    rw [Board.published_iff.mp published]
    exact called.passes.runtimeFailure (by simpa using joined)
  refine ⟨?_, fun b reached pe published phase joined => readout reached published joined, ?_⟩
  · intro b reached
    have sound := Board.reachable_sound List.nodup_range reached
    refine ⟨sound.single, ?_, ?_⟩
    · intro pe published
      obtain ⟨winner, won, -, origin⟩ := Board.Sound.called reached published
      refine ⟨⟨winner, won, origin⟩, fun b' later => ?_⟩
      obtain ⟨copies, winners⟩ := Board.later_stays List.nodup_range reached later published
      refine ⟨?_, by rw [copies], winners⟩
      rw [Board.published_iff, copies]
      exact Board.published_iff.mp published
    · intro pe pe' first second seen seen'
      refine ⟨sound.reads_agree seen seen', ?_⟩
      obtain ⟨winner, member⟩ := sound.seen pe first seen
      have single := sound.single
      refine ⟨winner, ?_⟩
      match winners : b.winners, single, member with
      | [only], _, member => rw [List.mem_singleton.mp member]
      | _ :: _ :: _, single, _ => simp at single
  · intro s t reached later pe pe' published
    obtain ⟨b, before, mirrors⟩ := reachable_mirrors reached
    obtain ⟨b', further, mirrors'⟩ := later_mirrors reached later mirrors
    have there : b.published pe := by
      rw [Board.published_iff, mirrors.copies]
      exact Signals.published_iff.mp published
    obtain ⟨copies, winners⟩ := Board.later_stays List.nodup_range before further there
    have after : b'.published pe := by
      rw [Board.published_iff, copies]
      exact Board.published_iff.mp there
    rw [← mirrors'.copies, ← mirrors.copies, ← copies]
    refine ⟨?_, fun published' => ?_, fun phase joined => readout (further.reachable before) after joined⟩
    · rw [Signals.published_iff, ← mirrors'.copies]
      exact Board.published_iff.mp after
    · have there' : b'.published pe' := by
        rw [Board.published_iff, mirrors'.copies]
        exact Signals.published_iff.mp published'
      have sound := Board.reachable_sound List.nodup_range (further.reachable before)
      obtain ⟨winner, won⟩ := sound.winner after
      obtain ⟨winner', won'⟩ := sound.winner there'
      have same := won'.symm.trans won
      simp only [List.cons.injEq, Prod.mk.injEq, and_true] at same
      exact same.2

/-- The rank's timeout comes back to it by way of the Coordinator. -/
theorem failure_agreement_timeout :
    ∃ s, (solo.fabric soloKernels (.fifo 0)).Reachable s ∧ s.signals.published solo.coordinatorPe ∧
      s.signals.published 0 ∧ (s.signals.failures 0).record = (s.signals.failures solo.coordinatorPe).record ∧
        solo.runtimeFailure .joined (s.signals.failures 0).sequence (s.signals.failures 0).record =
          .ok (some (s.signals.failures 0).record) := by
  obtain ⟨s, reached, stands⟩ := solo.run_reaches soloKernels (.fifo 0) (fun _ _ _ _ => 0)
    (soloSubmits ++ soloFails ++ [.coordinator, .coordinator, .failure 0 (.land 0), .failure 0 (.signal 0)])
    (fun s => s.signals.published solo.coordinatorPe && s.signals.published 0) (by decide +kernel)
  obtain ⟨home, rank⟩ := (Bool.and_eq_true _ _).mp stands
  have agreement := (failure_agreement solo soloKernels (.fifo 0)).2.2 s s reached (.refl s)
  exact ⟨s, reached, home, rank, (agreement solo.coordinatorPe 0 home).2.1 rank, (agreement 0 0 rank).2.2 .joined (by simp)⟩

end Agreement

end CrossPool.Fabric
