import CrossPool.Fabric.Taken

/-!
# What one event does to leases, commits and acknowledgements

Most steps only move a program counter. `ControlStep` lists the others with what
enables them, so that an invariant of the control part is proved once per case
and no step function is opened again.
-/

namespace CrossPool.Fabric

open CrossPool.Lib

/-! ## Standing of a party -/

/-- The Coordinator is neither committing nor leasing. -/
def CoordinatorPc.plain : CoordinatorPc → Bool
  | readCommitFailure _ => false
  | writeCommit _ => false
  | publishCommit _ _ => false
  | writeAdmission _ _ => false
  | publishAdmission _ _ _ _ => false
  | writeLaneExecution _ _ _ => false
  | publishLaneExecution _ _ _ => false
  | _ => true

/-- The lane whose next lease is decided but not yet on record. -/
def CoordinatorPc.leasing : CoordinatorPc → Option Nat
  | writeAdmission _ lane => some lane
  | publishAdmission _ lane _ _ => some lane
  | writeLaneExecution _ lane _ => some lane
  | _ => none

/-- The rank has been admitted and has neither returned nor failed. -/
def AtnAgentPc.holding : AtnAgentPc → Bool
  | copyInput => true
  | publishInput _ => true
  | awaitCommit => true
  | materialize => true
  | acknowledge => true
  | _ => false

/-- The rank has observed OutputCommit and not returned. -/
def AtnAgentPc.committed : AtnAgentPc → Bool
  | materialize => true
  | acknowledge => true
  | _ => false

/-- The rank waits for Admission or is beyond it. -/
def AtnAgentPc.submitted : AtnAgentPc → Bool
  | awaitAdmission => true
  | pc => pc.holding

/-- The rank has left its request with a result other than Ok. -/
def AtnAgentPc.failing : AtnAgentPc → Bool
  | cancelled => true
  | converge _ => true
  | awaitFailure => true
  | stopped _ => true
  | aborted => true
  | _ => false

/-- The lane executes a lease that it may still complete or deliver for. -/
def Lane.engaged (l : Lane) : Bool :=
  match l.pc with
  | .awaitExecution => false
  | .prepareDelivery => !l.terminal
  | .completeExecution => !l.terminal
  | .terminate .lane _ => !l.terminal
  | .cancelled .lane => false
  | .quietTerminal => false
  | .exited => false
  | .aborted => false
  | _ => true

/-! ## Cases -/

/-- The Coordinator's effects. -/
inductive CoordinatorControl (T : Topology) (k : Control) : Control → Prop where
  | rest (pc : CoordinatorPc) (plain : pc.plain) (settled : (k.coordinator ≠ .aborted ∧ k.coordinator.leasing = none) ∨ pc = .aborted) :
      CoordinatorControl T k { k with coordinator := pc }
  | reschedule (scheduler : Scheduler) (stands : k.coordinator = .schedule)
      (scheduled : k.scheduler.trySchedule = some (scheduler, none)) :
      CoordinatorControl T k
        { k with
          scheduler := scheduler
          coordinator := .readFailure }
  | enqueue (index : Nat) (invocation : Invocation) (scheduler : Scheduler) (ticket : Nat)
      (stands : k.coordinator = .discover index) (bound : index < T.instanceCount) (idle : (k.scheduler.entries index).state = .idle)
      (ready :
        T.inspectSubmissionRendezvous k index
            ((k.slots T.coordinatorPe (.outputCommit index)).record.key.invocationSequence + 1) =
          (.ready, invocation))
      (enqueued : k.scheduler.enqueue invocation = some (scheduler, ticket)) :
      CoordinatorControl T k
        { k with
          scheduler := scheduler
          coordinator := .discover (index + 1) }
  | completed (index : Nat) (decision : Decision) (active : k.scheduler.activeDecision index = some decision)
      (uncommitted : (k.slots T.coordinatorPe (.outputCommit index)).record.key ≠ decision.invocation.key)
      (stands : k.coordinator = .progress index)
      (ready :
        T.inspectCompletions k decision.invocation decision.executorLaneIndex
            (k.slots T.coordinatorPe (.laneExecution decision.executorLaneIndex)).record.executorLeaseSequence =
          .ready) :
      CoordinatorControl T k { k with coordinator := .readCommitFailure index }
  | proceed (index : Nat) (stands : k.coordinator = .readCommitFailure index) :
      CoordinatorControl T k { k with coordinator := .writeCommit index }
  | commit (index : Nat) (stands : k.coordinator = .writeCommit index) :
      CoordinatorControl T k
        { k.store T.coordinatorPe (.outputCommit index) ⟨(k.scheduler.entries index).invocation.key⟩ with
          coordinator := .publishCommit index (T.atnagentPes index) }
  | publishCommit (index destination : Nat) (rest : List Nat)
      (stands : k.coordinator = .publishCommit index (destination :: rest)) :
      CoordinatorControl T k
        { k.publish T.coordinatorPe destination (.outputCommit index) with coordinator := .publishCommit index rest }
  | release (index : Nat) (decision : Decision) (scheduler : Scheduler)
      (active : k.scheduler.activeDecision index = some decision)
      (committed : (k.slots T.coordinatorPe (.outputCommit index)).record.key = decision.invocation.key)
      (stands : k.coordinator = .progress index)
      (ready : T.inspectAcknowledgements k decision.invocation = .ready)
      (released : k.scheduler.release decision.invocation.key decision.executorLaneIndex = some scheduler) :
      CoordinatorControl T k
        { k with
          scheduler := scheduler
          coordinator := .progress (index + 1) }
  | schedule (decision : Decision) (scheduler : Scheduler) (stands : k.coordinator = .schedule)
      (scheduled : k.scheduler.trySchedule = some (scheduler, some decision)) :
      CoordinatorControl T k
        { k with
          scheduler := scheduler
          coordinator := .writeAdmission decision.invocation decision.executorLaneIndex
          leases :=
            Function.update k.leases decision.executorLaneIndex
              (k.leases decision.executorLaneIndex ++ [decision.invocation]) }
  | writeAdmission (invocation : Invocation) (lane : Nat) (stands : k.coordinator = .writeAdmission invocation lane)
      (unwrapped : (k.slots T.coordinatorPe (.laneExecution lane)).record.executorLeaseSequence ≠ maxSequence) :
      CoordinatorControl T k
        { k.store T.coordinatorPe (.admission invocation.key.instanceIndex)
            ⟨invocation.key, lane,
              (k.slots T.coordinatorPe (.laneExecution lane)).record.executorLeaseSequence + 1⟩ with
          coordinator :=
            .publishAdmission invocation lane
              ((k.slots T.coordinatorPe (.laneExecution lane)).record.executorLeaseSequence + 1)
              (T.atnagentPes invocation.key.instanceIndex) }
  | publishAdmission (invocation : Invocation) (lane lease destination : Nat) (rest : List Nat)
      (stands : k.coordinator = .publishAdmission invocation lane lease (destination :: rest)) :
      CoordinatorControl T k
        { k.publish T.coordinatorPe destination (.admission invocation.key.instanceIndex) with
          coordinator := .publishAdmission invocation lane lease rest }
  | admitted (invocation : Invocation) (lane lease : Nat)
      (stands : k.coordinator = .publishAdmission invocation lane lease []) :
      CoordinatorControl T k { k with coordinator := .writeLaneExecution invocation lane lease }
  | writeLaneExecution (invocation : Invocation) (lane lease : Nat)
      (stands : k.coordinator = .writeLaneExecution invocation lane lease) :
      CoordinatorControl T k
        { k.store T.coordinatorPe (.laneExecution lane)
            ⟨invocation.key, lease, invocation.layerOrdinal, invocation.payloadRows,
              invocation.outputRequirement⟩ with
          coordinator := .publishLaneExecution invocation lane (T.group invocation) }
  | publishLaneExecution (invocation : Invocation) (lane destination : Nat) (rest : List Nat)
      (stands : k.coordinator = .publishLaneExecution invocation lane (destination :: rest)) :
      CoordinatorControl T k
        { k.publish T.coordinatorPe destination (.laneExecution lane) with
          coordinator := .publishLaneExecution invocation lane rest }

/-- The effects of one AtnAgent rank. -/
inductive AtnAgentControl (T : Topology) (k : Control) (i r : Nat) : Control → Prop where
  | stay : AtnAgentControl T k i r k
  | move (pc : AtnAgentPc) (running : (k.atnagents i r).pc ≠ .resting)
      (holding : pc.holding → (k.atnagents i r).pc.holding)
      (committed :
        pc.committed → (k.atnagents i r).pc.committed ∨
          (k.atnagents i r).invocationSequence ≤ (k.slots (T.atnagentPe i r) (.outputCommit i)).sequence)
      (kind : pc.holding ∨ pc.failing) :
      AtnAgentControl T k i r (k.setAtnAgent i r { k.atnagents i r with pc := pc })
  | refuse (pc : AtnAgentPc) (resting : (k.atnagents i r).pc = .resting) (failing : pc.failing) :
      AtnAgentControl T k i r (k.setAtnAgent i r { k.atnagents i r with pc := pc })
  | request (context : InvocationContext) (resting : (k.atnagents i r).pc = .resting)
      (resolved : T.resolveContext i context) :
      AtnAgentControl T k i r
        (k.setAtnAgent i r
          { k.atnagents i r with
            pc := .submit
            context := context
            invocationSequence :=
              (k.slots (T.atnagentPe i r) (.submission (T.atnagentPe i r) i)).record.key.invocationSequence + 1 })
  | submit (stands : (k.atnagents i r).pc = .submit) :
      AtnAgentControl T k i r
        { (k.store (T.atnagentPe i r) (.submission (T.atnagentPe i r) i) (Topology.submissionOf (k.atnagents i r) i)).publish
            (T.atnagentPe i r) T.coordinatorPe (.submission (T.atnagentPe i r) i) with
          atnagents := update₂ k.atnagents i r { k.atnagents i r with pc := .awaitAdmission }
          submissions :=
            update₂ k.submissions i r (k.submissions i r ++ [Topology.submissionOf (k.atnagents i r) i]) }
  | admitted (pc : AtnAgentPc) (stands : (k.atnagents i r).pc = .awaitAdmission) (holding : pc.holding)
      (uncommitted : pc.committed = false)
      (reached :
        (k.atnagents i r).invocationSequence ≤ (k.slots (T.atnagentPe i r) (.admission i)).sequence)
      (valid :
        validateExpected (k.slots (T.atnagentPe i r) (.admission i)) (k.atnagents i r).invocationSequence
          ((k.atnagents i r).key i))
      (lane : (k.slots (T.atnagentPe i r) (.admission i)).record.executorLaneIndex < T.executorLaneCount) :
      AtnAgentControl T k i r
        (k.setAtnAgent i r
          { k.atnagents i r with
            pc := pc
            admission := (k.slots (T.atnagentPe i r) (.admission i)).record })
  | acknowledge (stands : (k.atnagents i r).pc = .acknowledge) :
      AtnAgentControl T k i r
        { (k.store (T.atnagentPe i r) (.outputAcknowledgement (T.atnagentPe i r) i) ⟨(k.atnagents i r).key i⟩).publish
            (T.atnagentPe i r) T.coordinatorPe (.outputAcknowledgement (T.atnagentPe i r) i) with
          atnagents := update₂ k.atnagents i r { k.atnagents i r with pc := .resting }
          acknowledgements :=
            update₂ k.acknowledgements i r (k.acknowledgements i r ++ [(k.atnagents i r).invocationSequence]) }

/-- The effects of one lane. -/
inductive LaneControl (T : Topology) (k : Control) (p ℓ : Nat) : Control → Prop where
  | stay : LaneControl T k p ℓ k
  | move (pc : LanePc) (terminal : Bool) (sticky : (k.lanes p ℓ).terminal → terminal)
      (engaged : ({ k.lanes p ℓ with pc := pc, terminal := terminal } : Lane).engaged → (k.lanes p ℓ).engaged)
      (leaves : pc ≠ .awaitExecution) (unstaged : pc ≠ .quietCompletion) :
      LaneControl T k p ℓ
        (k.setLane p ℓ
          { k.lanes p ℓ with
            pc := pc
            terminal := terminal })
  | observe (l : Lane) (stands : (k.lanes p ℓ).pc = .awaitExecution)
      (unwrapped : ((k.lanes p ℓ).lastLeaseSequence + 1) % 2 ^ 64 ≠ 0)
      (reached : ((k.lanes p ℓ).lastLeaseSequence + 1) % 2 ^ 64 ≤ (k.slots p (.laneExecution ℓ)).sequence)
      (execution : l.execution = (k.slots p (.laneExecution ℓ)).record)
      (last : l.lastLeaseSequence = (k.lanes p ℓ).lastLeaseSequence)
      (selected :
        (l.pc = .terminate .lane .protocolMismatch ∧ l.terminal) ∨
          (l.pc = .awaitPayloads ∧ l.terminal = false ∧ PublicationRecord.valid l.execution ∧
            T.selectExecution p l.execution =
              some (l.localTpRank, l.payloadRowCapacity, l.requiresRoutingMetadata))) :
      LaneControl T k p ℓ (k.setLane p ℓ l)
  | stage (stands : (k.lanes p ℓ).pc = .completeExecution) (live : (k.lanes p ℓ).terminal = false) :
      LaneControl T k p ℓ
        ((k.store p (.ffnAgentCompletion p ℓ)
            ⟨(k.lanes p ℓ).execution.key, (k.lanes p ℓ).execution.executorLeaseSequence⟩).setLane
          p ℓ { k.lanes p ℓ with pc := .quietCompletion })
  | complete (stands : (k.lanes p ℓ).pc = .quietCompletion) :
      LaneControl T k p ℓ
        { k.publish p T.coordinatorPe (.ffnAgentCompletion p ℓ) with
          lanes :=
            update₂ k.lanes p ℓ
              { k.lanes p ℓ with
                pc := .awaitExecution
                lastLeaseSequence := (k.lanes p ℓ).execution.executorLeaseSequence }
          completions :=
            update₂ k.completions p ℓ (k.completions p ℓ ++ [(k.lanes p ℓ).execution.executorLeaseSequence]) }

/-- The effects of one event. -/
inductive ControlStep (T : Topology) (k : Control) : Control → Prop where
  | same : ControlStep T k k
  | deliver (destination : Nat) (slot : Slot) (delivery : Delivery slot.Record) (channel : Channel slot.Record Empty)
      (written : Option Empty)
      (delivered : (k.slots destination slot).deliver publicationSequence delivery = some (channel, written)) :
      ControlStep T k (k.setSlot destination slot channel)
  | coordinator (k' : Control) (effect : CoordinatorControl T k k') : ControlStep T k k'
  | atnagent (i r : Nat) (rank : T.isRank i r) (k' : Control) (effect : AtnAgentControl T k i r k') : ControlStep T k k'
  | lane (p ℓ : Nat) (isLane : T.isLane p ℓ) (k' : Control) (effect : LaneControl T k p ℓ k') : ControlStep T k k'

/-! ## Every event is one of the cases -/

variable {T : Topology} {V : Type} {K : Kernels V} {s t : State V}

section Coordinator

theorem publishStep_control {slot : Slot} {rest : List Nat} {resume : List Nat → CoordinatorPc} {done : CoordinatorPc}
    (publishes :
      ∀ destination tail, rest = destination :: tail →
        CoordinatorControl T s.control
          { s.control.publish T.coordinatorPe destination slot with coordinator := resume tail })
    (finishes : rest = [] → CoordinatorControl T s.control { s.control with coordinator := done }) :
    CoordinatorControl T s.control (T.publishStep s slot rest resume done).control := by
  cases rest with
  | nil => exact finishes rfl
  | cons destination tail =>
    simp only [Topology.publishStep]
    split
    · exact publishes destination tail rfl
    · exact .rest .aborted rfl (.inr rfl)

theorem discoverStep_control {index : Nat} (stands : s.control.coordinator = .discover index)
    (bound : index < T.instanceCount) : CoordinatorControl T s.control (T.discoverStep s index).control := by
  have settled : s.control.coordinator ≠ .aborted ∧ s.control.coordinator.leasing = none := by
    simp [stands, CoordinatorPc.leasing]
  simp only [Topology.discoverStep]
  split
  · exact .rest _ rfl (.inl settled)
  next resolved =>
  have idle : (s.control.scheduler.entries index).state = .idle := by
    simpa [Scheduler.hasUnresolvedInvocation] using resolved
  split
  · exact .rest _ rfl (.inl settled)
  split
  · exact .rest _ rfl (.inl settled)
  · exact .rest _ rfl (.inl settled)
  · next ready =>
    split
    · exact .rest _ rfl (.inl settled)
    · next enqueued => exact .enqueue index _ _ _ stands bound idle ready enqueued

theorem progressStep_control {index : Nat} (stands : s.control.coordinator = .progress index) :
    CoordinatorControl T s.control (T.progressStep s index).control := by
  have settled : s.control.coordinator ≠ .aborted ∧ s.control.coordinator.leasing = none := by
    simp [stands, CoordinatorPc.leasing]
  simp only [Topology.progressStep]
  split
  · exact .rest _ rfl (.inl settled)
  next invocation lane active =>
  split
  · next uncommitted =>
    split
    · exact .rest _ rfl (.inl settled)
    split
    · exact .rest _ rfl (.inl settled)
    · exact .rest _ rfl (.inl settled)
    · next ready => exact .completed index _ active uncommitted stands ready
  · next committed =>
    rw [ne_eq, not_not] at committed
    split
    · exact .rest _ rfl (.inl settled)
    split
    · exact .rest _ rfl (.inl settled)
    · exact .rest _ rfl (.inl settled)
    · next ready =>
      split
      · exact .rest _ rfl (.inl settled)
      · next released => exact .release index _ _ active committed stands ready released

theorem coordinatorStep_control (taken : T.coordinatorStep s = some t) : CoordinatorControl T s.control t.control := by
  have rests : ∀ pc : CoordinatorPc, pc.plain → s.control.coordinator ≠ .aborted ∧ s.control.coordinator.leasing = none →
      CoordinatorControl T s.control { s.control with coordinator := pc } :=
    fun pc plain settled => .rest pc plain (.inl settled)
  unfold Topology.coordinatorStep at taken
  split at taken
  · next stands =>
    split at taken <;> (cases taken; exact rests _ rfl (by simp [stands, CoordinatorPc.leasing]))
  · next stands =>
    cases taken
    split
    · exact rests _ rfl (by simp [stands, CoordinatorPc.leasing])
    · exact rests _ rfl (by simp [stands, CoordinatorPc.leasing])
  · next stands =>
    split at taken
    · next bound =>
      cases taken
      exact discoverStep_control stands bound
    · cases taken
      exact rests _ rfl (by simp [stands, CoordinatorPc.leasing])
  · next stands =>
    split at taken <;> (cases taken; exact rests _ rfl (by simp [stands, CoordinatorPc.leasing]))
  · next stands =>
    split at taken
    · cases taken
      exact rests _ rfl (by simp [stands, CoordinatorPc.leasing])
    · split at taken <;> (cases taken; exact rests _ rfl (by simp [stands, CoordinatorPc.leasing]))
  · next stands =>
    split at taken
    · cases taken
      exact progressStep_control stands
    · cases taken
      exact rests _ rfl (by simp [stands, CoordinatorPc.leasing])
  · next stands =>
    split at taken
    · cases taken
      exact rests _ rfl (by simp [stands, CoordinatorPc.leasing])
    · cases taken
      exact .proceed _ stands
  · next stands =>
    cases taken
    exact .commit _ stands
  · next index rest stands =>
    cases taken
    apply publishStep_control
    · rintro destination tail rfl
      exact .publishCommit index destination tail stands
    · intro
      exact rests _ rfl (by simp [stands, CoordinatorPc.leasing])
  · next stands =>
    split at taken
    · cases taken
      exact rests _ rfl (by simp [stands, CoordinatorPc.leasing])
    · next scheduled =>
      cases taken
      exact .reschedule _ stands scheduled
    · next scheduled =>
      cases taken
      exact .schedule _ _ stands scheduled
  · next stands =>
    dsimp only at taken
    split at taken
    · cases taken
      exact .rest _ rfl (.inr rfl)
    · next unwrapped =>
      cases taken
      exact .writeAdmission _ _ stands unwrapped
  · next invocation lane lease rest stands =>
    cases taken
    apply publishStep_control
    · rintro destination tail rfl
      exact .publishAdmission invocation lane lease destination tail stands
    · rintro rfl
      exact .admitted invocation lane lease stands
  · next stands =>
    cases taken
    exact .writeLaneExecution _ _ _ stands
  · next invocation lane rest stands =>
    cases taken
    apply publishStep_control
    · rintro destination tail rfl
      exact .publishLaneExecution invocation lane destination tail stands
    · intro
      exact rests _ rfl (by simp [stands, CoordinatorPc.leasing])
  · next stands =>
    cases taken
    exact rests _ rfl (by simp [stands, CoordinatorPc.leasing])
  · next stands =>
    cases taken
    exact rests _ rfl (by simp [stands, CoordinatorPc.leasing])
  · cases taken
  · cases taken

end Coordinator

section AtnAgent

variable {i r : Nat}

theorem atnAgentRequest_control (resting : (s.control.atnagents i r).pc = .resting) (context : InvocationContext)
    (input : Nat → V) : AtnAgentControl T s.control i r (T.atnAgentRequest s i r context input).control := by
  simp only [Topology.atnAgentRequest]
  split
  · exact .refuse _ resting rfl
  split
  · next resolved => exact .request context resting resolved
  · exact .refuse _ resting rfl

/-- A rank that fails in the middle of its request. -/
theorem atnAgentGoto_failing {pc : AtnAgentPc} (running : (s.control.atnagents i r).pc ≠ .resting) (failing : pc.failing) :
    AtnAgentControl T s.control i r (Topology.atnAgentGoto s i r pc).control := by
  refine .move pc running ?_ ?_ (.inr failing)
  · cases pc <;> simp [AtnAgentPc.failing, AtnAgentPc.holding] at failing ⊢
  · cases pc <;> simp [AtnAgentPc.failing, AtnAgentPc.committed] at failing ⊢

/-- A rank that goes on while it holds its admission. -/
theorem atnAgentGoto_holding {pc : AtnAgentPc} (holding : (s.control.atnagents i r).pc.holding) (holds : pc.holding)
    (committed :
      pc.committed → (s.control.atnagents i r).pc.committed ∨
        (s.control.atnagents i r).invocationSequence ≤
          (s.control.slots (T.atnagentPe i r) (.outputCommit i)).sequence) :
    AtnAgentControl T s.control i r
      (s.control.setAtnAgent i r { s.control.atnagents i r with pc := pc }) := by
  refine .move pc ?_ (fun _ => holding) committed (.inl holds)
  rintro resting
  simp [resting, AtnAgentPc.holding] at holding

theorem admissionStep_control (stands : (s.control.atnagents i r).pc = .awaitAdmission)
    (reached :
      (s.control.atnagents i r).invocationSequence ≤ (s.control.slots (T.atnagentPe i r) (.admission i)).sequence) :
    AtnAgentControl T s.control i r (T.admissionStep s i r).control := by
  simp only [Topology.admissionStep]
  split
  · next passed =>
    refine .admitted _ stands ?_ ?_ reached passed.1 passed.2
    · split <;> rfl
    · split <;> rfl
  · exact atnAgentGoto_failing (by simp [stands]) rfl

theorem AtnAgentTaken.control (taken : AtnAgentTaken T K s i r t) : AtnAgentControl T s.control i r t.control := by
  cases taken with
  | request context input resting => exact atnAgentRequest_control resting context input
  | submit stands =>
    simp only [Topology.submitStep]
    split
    · exact .submit stands
    · exact atnAgentGoto_failing (by simp [stands]) rfl
  | admission stands reached => exact admissionStep_control stands reached
  | copyInput stands =>
    simp only [Topology.copyInputStep]
    split
    · exact .stay
    · exact atnAgentGoto_holding (by simp [stands, AtnAgentPc.holding]) rfl (by simp [AtnAgentPc.committed])
  | publishInput rest stands =>
    cases rest with
    | nil => exact atnAgentGoto_holding (by simp [stands, AtnAgentPc.holding]) rfl (by simp [AtnAgentPc.committed])
    | cons destination rest =>
      simp only [Topology.publishInputStep]
      split
      · exact .stay
      split
      · exact atnAgentGoto_holding (by simp [stands, AtnAgentPc.holding]) rfl (by simp [AtnAgentPc.committed])
      · exact atnAgentGoto_failing (by simp [stands]) rfl
  | commit stands reached =>
    simp only [Topology.commitStep]
    split
    · exact atnAgentGoto_holding (by simp [stands, AtnAgentPc.holding]) rfl fun _ => .inr reached
    · exact atnAgentGoto_failing (by simp [stands]) rfl
  | materialize stands =>
    simp only [Topology.materializeStep]
    split
    · exact atnAgentGoto_failing (by simp [stands]) rfl
    split
    · exact .stay
    · refine atnAgentGoto_holding (by simp [stands, AtnAgentPc.holding]) rfl fun _ => .inl ?_
      simp [stands, AtnAgentPc.committed]
  | acknowledge stands =>
    simp only [Topology.acknowledgeStep]
    split
    · exact .acknowledge stands
    · exact atnAgentGoto_failing (by simp [stands]) rfl
  | cancel stands => exact atnAgentGoto_failing (by rcases stands with stands | stands <;> simp [stands]) rfl
  | expire stands => exact atnAgentGoto_failing (by rcases stands with stands | stands <;> simp [stands]) rfl
  | cancelled stands =>
    simp only [Topology.atnAgentCancelled]
    split <;> exact atnAgentGoto_failing (by simp [stands]) rfl
  | converge candidate stands =>
    simp only [Topology.convergeStep]
    split
    · show AtnAgentControl T s.control i r (Topology.atnAgentGoto s i r .awaitFailure).control
      exact atnAgentGoto_failing (by simp [stands]) rfl
    · exact atnAgentGoto_failing (by simp [stands]) rfl
  | converged stands published => exact atnAgentGoto_failing (by simp [stands]) rfl
  | unconverged stands unpublished => exact atnAgentGoto_failing (by simp [stands]) rfl

end AtnAgent

section Lane

variable {p ℓ : Nat}

/-- A lane that moves on with what it has. -/
theorem laneGoto_control {pc : LanePc}
    (engaged : ({ s.control.lanes p ℓ with pc := pc } : Lane).engaged → (s.control.lanes p ℓ).engaged)
    (leaves : pc ≠ .awaitExecution) (unstaged : pc ≠ .quietCompletion) :
    LaneControl T s.control p ℓ (s.control.setLane p ℓ { s.control.lanes p ℓ with pc := pc }) :=
  .move pc (s.control.lanes p ℓ).terminal id engaged leaves unstaged

theorem laneGoto_aborted : LaneControl T s.control p ℓ (Topology.laneGoto s p ℓ .aborted).control :=
  laneGoto_control (by simp [Lane.engaged]) (by simp) (by simp)

theorem laneTerminate_control {site : TerminateSite} {result : CrossPool.Control.ResultCode}
    (engaged : site = .delivery → (s.control.lanes p ℓ).engaged) :
    LaneControl T s.control p ℓ (Topology.laneTerminate s p ℓ site result).control := by
  refine .move (.terminate site result) true (fun _ => rfl) ?_ (by simp) (by simp)
  cases site with
  | lane => simp [Lane.engaged]
  | delivery => exact fun _ => engaged rfl

theorem observeStep_control (stands : (s.control.lanes p ℓ).pc = .awaitExecution)
    (unwrapped : ((s.control.lanes p ℓ).lastLeaseSequence + 1) % 2 ^ 64 ≠ 0)
    (reached :
      ((s.control.lanes p ℓ).lastLeaseSequence + 1) % 2 ^ 64 ≤ (s.control.slots p (.laneExecution ℓ)).sequence) :
    LaneControl T s.control p ℓ (T.observeStep s p ℓ).control := by
  simp only [Topology.observeStep]
  split
  · exact .observe _ stands unwrapped reached rfl rfl (.inl ⟨rfl, rfl⟩)
  next passed =>
  split
  · exact .observe _ stands unwrapped reached rfl rfl (.inl ⟨rfl, rfl⟩)
  · next selected =>
    refine .observe _ stands unwrapped reached rfl rfl (.inr ⟨rfl, rfl, ?_, selected⟩)
    simp only [not_or, validateExpected, Bool.not_eq_true', Bool.not_eq_false, Bool.and_eq_true] at passed
    exact passed.1.1.2

/-- The graph nodes from the payload wait to the delivery choice. -/
def LanePc.computing : LanePc → Bool
  | bindCompute => true
  | routerRead => true
  | routerWrite => true
  | publishRouting => true
  | sendRouting _ => true
  | expertRead => true
  | expertReadRouting => true
  | expertWrite => true
  | _ => false

theorem Lane.engaged_of_computing {l : Lane} (computing : l.pc.computing) : l.engaged := by
  cases stands : l.pc <;> simp [stands, LanePc.computing, Lane.engaged] at computing ⊢

theorem laneGoto_computing {pc : LanePc} (computing : (s.control.lanes p ℓ).pc.computing) (leaves : pc ≠ .awaitExecution)
    (unstaged : pc ≠ .quietCompletion) :
    LaneControl T s.control p ℓ (s.control.setLane p ℓ { s.control.lanes p ℓ with pc := pc }) :=
  laneGoto_control (fun _ => Lane.engaged_of_computing computing) leaves unstaged

theorem readInputStep_control {done : LanePc} (computing : (s.control.lanes p ℓ).pc.computing)
    (leaves : done ≠ .awaitExecution) (unstaged : done ≠ .quietCompletion) :
    LaneControl T s.control p ℓ (T.readInputStep s p ℓ done).control := by
  simp only [Topology.readInputStep]
  split
  · refine laneGoto_computing computing ?_ ?_
    · rintro waits
      simp [waits, LanePc.computing] at computing
    · rintro waits
      simp [waits, LanePc.computing] at computing
  · exact laneGoto_computing computing leaves unstaged

theorem publishRoutingStep_control (computing : (s.control.lanes p ℓ).pc.computing) :
    LaneControl T s.control p ℓ (T.publishRoutingStep s p ℓ).control := by
  simp only [Topology.publishRoutingStep]
  split
  · exact .move .expertRead true (fun _ => rfl) (fun _ => Lane.engaged_of_computing computing) (by simp) (by simp)
  split
  · exact laneGoto_aborted
  · exact laneGoto_computing computing (by simp) (by simp)

theorem sendRoutingStep_control {rest : List Nat} (computing : (s.control.lanes p ℓ).pc.computing) :
    LaneControl T s.control p ℓ (T.sendRoutingStep s p ℓ rest).control := by
  cases rest with
  | nil => exact laneGoto_computing computing (by simp) (by simp)
  | cons destination rest =>
    simp only [Topology.sendRoutingStep]
    split
    · exact .stay
    split
    · exact laneGoto_computing computing (by simp) (by simp)
    · exact laneGoto_aborted

theorem afterPartial_plain (l : Lane) : T.afterPartial l ≠ .awaitExecution ∧ T.afterPartial l ≠ .quietCompletion := by
  unfold Topology.afterPartial
  split
  · split <;> simp
  · simp

theorem prepareStep_control (stands : (s.control.lanes p ℓ).pc = .prepareDelivery) :
    LaneControl T s.control p ℓ (T.prepareStep s p ℓ).control := by
  simp only [Topology.prepareStep]
  split
  · exact .move .completeExecution true (fun _ => rfl) (by simp [Lane.engaged]) (by simp) (by simp)
  next live =>
  have engaged : (s.control.lanes p ℓ).engaged := by
    simp only [Bool.or_eq_true, not_or] at live
    simp [Lane.engaged, stands, live.1]
  split
  · exact laneGoto_aborted
  · exact laneGoto_control (fun _ => engaged) (by simp) (by simp)
  · have plain := afterPartial_plain (T := T) (s.control.lanes p ℓ)
    refine laneGoto_control (fun _ => engaged) ?_ ?_
    · split
      · exact plain.1
      · simp
    · split
      · exact plain.2
      · simp

theorem terminateStep_control {site : TerminateSite} {result : CrossPool.Control.ResultCode}
    (stands : (s.control.lanes p ℓ).pc = .terminate site result) :
    LaneControl T s.control p ℓ (T.terminateStep s p ℓ site result).control := by
  have next :
      LaneControl T s.control p ℓ
        (s.control.setLane p ℓ
          { s.control.lanes p ℓ with pc := if site = .lane then .prepareDelivery else .deliver false }) := by
    refine laneGoto_control ?_ ?_ ?_
    · cases site <;> simp [Lane.engaged, stands]
    · cases site <;> simp
    · cases site <;> simp
  simp only [Topology.terminateStep]
  split
  · split
    · exact next
    · exact laneGoto_aborted
  · exact next

theorem completeBlockStart_control {block : Nat} :
    LaneControl T s.control p ℓ (T.completeBlockStart s p ℓ block).control := by
  simp only [Topology.completeBlockStart]
  split
  · exact .stay
  split
  · exact laneGoto_aborted
  split
  · exact laneGoto_aborted
  split
  · exact .stay
  · split <;> exact .stay

theorem LaneTaken.control (taken : LaneTaken T K s p ℓ t) : LaneControl T s.control p ℓ t.control := by
  cases taken with
  | wrap => exact laneGoto_aborted
  | observe stands unwrapped reached => exact observeStep_control stands unwrapped reached
  | cancelLane => exact laneGoto_control (by simp [Lane.engaged]) (by simp) (by simp)
  | cancelDelivery stands => exact laneGoto_control (by simp [Lane.engaged, stands]) (by simp) (by simp)
  | failPayloads result stands => exact laneTerminate_control (by simp)
  | failPartials result stands => exact laneTerminate_control (by simp [Lane.engaged, stands])
  | cancelled site stands =>
    refine laneTerminate_control ?_
    rintro rfl
    simp [Lane.engaged, stands]
  | terminate site result stands => exact terminateStep_control stands
  | payloadsReady stands => exact laneGoto_control (by simp [Lane.engaged, stands]) (by simp) (by simp)
  | bind stands =>
    refine laneGoto_computing (by simp [stands, LanePc.computing]) ?_ ?_
    · split <;> simp
    · split <;> simp
  | routerRead stands => exact readInputStep_control (by simp [stands, LanePc.computing]) (by simp) (by simp)
  | routerWrite stands =>
    simp only [Topology.routerWriteStep]
    split
    · exact .stay
    · exact laneGoto_computing (by simp [stands, LanePc.computing]) (by simp) (by simp)
  | publishRouting stands => exact publishRoutingStep_control (by simp [stands, LanePc.computing])
  | sendRouting rest stands => exact sendRoutingStep_control (by simp [stands, LanePc.computing])
  | expertRead stands =>
    refine readInputStep_control (by simp [stands, LanePc.computing]) ?_ ?_
    · split <;> simp
    · split <;> simp
  | expertReadRouting stands =>
    simp only [Topology.readRoutingStep]
    split
    · exact .stay
    · exact laneGoto_computing (by simp [stands, LanePc.computing]) (by simp) (by simp)
  | expertWrite stands =>
    simp only [Topology.expertWriteStep]
    split
    · exact .stay
    · exact laneGoto_computing (by simp [stands, LanePc.computing]) (by simp) (by simp)
  | prepare stands => exact prepareStep_control stands
  | quietPartial readers stands => exact laneGoto_control (by simp [Lane.engaged, stands]) (by simp) (by simp)
  | publishPartial rest stands =>
    cases rest with
    | nil =>
      have plain := afterPartial_plain (T := T) (s.control.lanes p ℓ)
      exact laneGoto_control (by simp [Lane.engaged, stands]) plain.1 plain.2
    | cons destination rest =>
      simp only [Topology.publishPartialStep]
      split
      · exact laneGoto_control (by simp [Lane.engaged, stands]) (by simp) (by simp)
      · exact laneGoto_aborted
  | partialsReady stands => exact laneGoto_control (by simp [Lane.engaged, stands]) (by simp) (by simp)
  | directBlock block =>
    simp only [Topology.directBlockStep]
    split
    · exact laneGoto_aborted
    · split
      · exact laneGoto_aborted
      · exact .stay
  | completeBlock block => exact completeBlockStart_control
  | reduceBlock block first element stop partials =>
    simp only [Topology.reduceStep]
    split
    · split <;> exact .stay
    · exact .stay
  | putBlock => exact .stay
  | delivered direct stands => exact laneGoto_control (by simp [Lane.engaged, stands]) (by simp) (by simp)
  | complete stands =>
    simp only [Topology.completeStep]
    split
    · exact laneGoto_control (by simp [Lane.engaged]) (by simp) (by simp)
    · next live =>
      simp only [Bool.or_eq_true, not_or, Bool.not_eq_true] at live
      exact .stage stands live.1
  | publishCompletion stands quiet =>
    simp only [Topology.publishCompletionStep]
    split
    · exact .complete stands
    · exact laneGoto_aborted
  | exit => exact .move .exited true (fun _ => rfl) (by simp [Lane.engaged]) (by simp) (by simp)

end Lane

/-- What any event does to the control part. -/
theorem next_control {event : Event V} (taken : T.next K s event = some t) : ControlStep T s.control t.control := by
  cases event with
  | coordinator => exact .coordinator _ (coordinatorStep_control taken)
  | atnagent i r move =>
    simp only [Topology.next] at taken
    split at taken
    · next rank => exact .atnagent i r rank _ (atnAgentMove_taken taken).control
    · cases taken
  | lane p ℓ move =>
    simp only [Topology.next] at taken
    split at taken
    · next isLane => exact .lane p ℓ isLane _ (laneMove_taken taken).control
    · cases taken
  | publication destination slot delivery =>
    obtain ⟨⟨channel, written⟩, delivered, rfl⟩ := Option.map_eq_some_iff.mp taken
    exact .deliver destination slot delivery channel written delivered
  | payload destination slot delivery =>
    obtain ⟨⟨channel, written⟩, delivered, rfl⟩ := Option.map_eq_some_iff.mp taken
    cases written with
    | none => exact .same
    | some element => exact .same
  | failure destination delivery =>
    obtain ⟨⟨channel, written⟩, delivered, rfl⟩ := Option.map_eq_some_iff.mp taken
    exact .same
  | put pe lane index move =>
    simp only [Topology.next, Topology.putStep] at taken
    split at taken
    · split at taken
      · cases taken
        exact .same
      · cases taken
    · obtain ⟨value, -, rfl⟩ := Option.map_eq_some_iff.mp taken
      exact .same
    · cases taken
  | shutdown pe =>
    cases taken
    exact .same

end CrossPool.Fabric
