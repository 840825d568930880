import CrossPool.Fabric.Coordination

/-!
# Dispatch

A scheduled invocation reaches its parties. The Admission of every rank and the
LaneExecution of every lane of the group is still with the Coordinator, on its way
or there, as long as the Coordinator has not aborted.
-/

namespace CrossPool.Fabric

open CrossPool.Lib

/-- The parties of every Active invocation hear of it. -/
structure Dispatched (T : Topology) (k : Control) : Prop where
  ranks :
    k.coordinator ≠ .aborted → ∀ invocation ℓ, k.scheduler.Holds invocation ℓ →
      ∀ pe ∈ T.atnagentPes invocation.key.instanceIndex,
        k.coordinator.withholdsAdmission pe invocation.key.instanceIndex ∨
          (k.slots pe (.admission invocation.key.instanceIndex)).Underway invocation.key.invocationSequence
  lanes :
    k.coordinator ≠ .aborted → ∀ invocation ℓ, k.scheduler.Holds invocation ℓ →
      ∀ p ∈ T.group invocation,
        k.coordinator.withholds p ℓ ∨ (k.slots p (.laneExecution ℓ)).Underway (k.leaseCount ℓ)

section Dispatch

variable {T : Topology} {V : Type} {k k' : Control} {s t : State V} {p ℓ i : Nat} {invocation : Invocation}

/-! ## What the Coordinator withholds -/

theorem Control.publish_flight {k : Control} {source destination : Nat} {slot : Slot} :
    ((k.publish source destination slot).slots destination slot).flight ≠ [] := by
  rw [Control.publish, Control.setSlot_same]
  simp [Channel.send]

/-- A withheld LaneExecution is sent or stays withheld. -/
theorem coordinatorStep_withholds (taken : T.coordinatorStep s = some t) (books : Books T s.control)
    (running : t.control.coordinator ≠ .aborted) (holds : s.control.scheduler.Holds invocation ℓ)
    (member : p ∈ T.group invocation) (withholds : s.control.coordinator.withholds p ℓ) :
    t.control.coordinator.withholds p ℓ ∨ (t.control.slots p (.laneExecution ℓ)).flight ≠ [] := by
  have standing := books.standing
  cases stands : s.control.coordinator with
  | writeAdmission held lane =>
    rw [stands] at withholds
    simp only [Topology.coordinatorStep, stands] at taken
    split at taken
    · obtain rfl := Option.some.inj taken
      exact absurd rfl running
    · obtain rfl := Option.some.inj taken
      exact .inl withholds
  | publishAdmission held lane lease rest =>
    rw [stands] at withholds
    simp only [Topology.coordinatorStep, stands] at taken
    obtain rfl := Option.some.inj taken
    cases rest with
    | nil => exact .inl withholds
    | cons destination rest =>
      simp only [Topology.publishStep] at running ⊢
      split at running
      · next publishable =>
        rw [if_pos publishable]
        exact .inl withholds
      · exact absurd rfl running
  | writeLaneExecution held lane lease =>
    rw [stands] at withholds standing
    obtain rfl : lane = ℓ := withholds
    obtain rfl := books.active_unique standing.1 holds
    simp only [Topology.coordinatorStep, stands] at taken
    obtain rfl := Option.some.inj taken
    exact .inl ⟨rfl, member⟩
  | publishLaneExecution held lane rest =>
    rw [stands] at withholds
    obtain ⟨rfl, left⟩ := withholds
    simp only [Topology.coordinatorStep, stands] at taken
    obtain rfl := Option.some.inj taken
    cases rest with
    | nil => cases left
    | cons destination rest =>
      simp only [Topology.publishStep] at running ⊢
      split at running
      · next publishable =>
        rw [if_pos publishable]
        rcases List.mem_cons.mp left with rfl | later
        · right
          exact Control.publish_flight
        · exact .inl ⟨rfl, later⟩
      · exact absurd rfl running
  | _ =>
    rw [stands] at withholds
    cases withholds

/-- A withheld Admission is sent or stays withheld. -/
theorem coordinatorStep_withholdsAdmission {pe : Nat} (taken : T.coordinatorStep s = some t)
    (running : t.control.coordinator ≠ .aborted) (member : pe ∈ T.atnagentPes i)
    (withholds : s.control.coordinator.withholdsAdmission pe i) :
    t.control.coordinator.withholdsAdmission pe i ∨ (t.control.slots pe (.admission i)).flight ≠ [] := by
  cases stands : s.control.coordinator with
  | writeAdmission held lane =>
    rw [stands] at withholds
    obtain rfl : held.key.instanceIndex = i := withholds
    simp only [Topology.coordinatorStep, stands] at taken
    split at taken
    · obtain rfl := Option.some.inj taken
      exact absurd rfl running
    · obtain rfl := Option.some.inj taken
      exact .inl ⟨rfl, member⟩
  | publishAdmission held lane lease rest =>
    rw [stands] at withholds
    obtain ⟨rfl, left⟩ := withholds
    simp only [Topology.coordinatorStep, stands] at taken
    obtain rfl := Option.some.inj taken
    cases rest with
    | nil => cases left
    | cons destination rest =>
      simp only [Topology.publishStep] at running ⊢
      split at running
      · next publishable =>
        rw [if_pos publishable]
        rcases List.mem_cons.mp left with rfl | later
        · right
          exact Control.publish_flight
        · exact .inl ⟨rfl, later⟩
      · exact absurd rfl running
  | _ =>
    rw [stands] at withholds
    cases withholds

/-! ## What is underway -/

/-- Only a delivery takes anything out of flight, and only a delivery moves a word. -/
theorem SlotStep.underway (step : SlotStep T k k') {pe n : Nat} {slot : Slot} (underway : (k.slots pe slot).Underway n)
    (arrives :
      ∀ delivery channel written,
        (k.slots pe slot).deliver publicationSequence delivery = some (channel, written) → channel.Underway n) :
    (k'.slots pe slot).Underway n := by
  have set {slot' : Slot} {home : Nat} {channel : Channel slot'.Record Empty} {k : Control}
      (underway : (k.slots pe slot).Underway n)
      (stays : (k.slots home slot').Underway n → channel.Underway n) :
      ((k.setSlot home slot' channel).slots pe slot).Underway n := by
    by_cases here : pe = home
    · subst here
      by_cases this : slot = slot'
      · subst this
        rw [Control.setSlot_same]
        exact stays underway
      · rwa [Control.setSlot_of_slot_ne _ this]
    · rwa [Control.setSlot_of_pe_ne _ here]
  have sent {slot' : Slot} {home : Nat} {k : Control} {put : Put slot'.Record Empty} :
      ((k.slots home slot').send put).Underway n := by
    left
    simp [Channel.send]
  cases step with
  | same slots => rwa [slots]
  | deliver destination slot' delivery channel written delivered slots =>
    rw [slots]
    by_cases same : pe = destination ∧ slot = slot'
    · obtain ⟨rfl, rfl⟩ := same
      rw [Control.setSlot_same]
      exact arrives delivery channel written delivered
    · by_cases here : pe = destination
      · rwa [Control.setSlot_of_slot_ne _ fun this => same ⟨here, this⟩]
      · rwa [Control.setSlot_of_pe_ne _ here]
  | store slot' record slots =>
    rw [slots]
    exact set underway id
  | publish slot' destination slots =>
    rw [slots]
    exact set underway fun _ => sent
  | put slot' record destination slots =>
    rw [slots]
    exact set (set underway id) fun _ => sent

/-- A LaneExecution in flight to a lane is that of its last lease. -/
theorem Leases.underway (leases : Leases T k) (step : SlotStep T k k') (isLane : T.isLane p ℓ)
    (underway : (k.slots p (.laneExecution ℓ)).Underway (k.leaseCount ℓ)) :
    (k'.slots p (.laneExecution ℓ)).Underway (k.leaseCount ℓ) := by
  apply step.underway underway
  intro delivery channel written delivered
  have book := leases.lane p ℓ isLane
  refine book.tracks.underway underway ?_ delivered
  rintro record ⟨invocation, assigned, -⟩ beyond
  rcases leases.chain.settled _ _ _ assigned.granted with settled | ⟨last, -⟩
  · have behind := leases.behind assigned.granted settled assigned.member
    have beyond : (k.lanes p ℓ).consumed < record.executorLeaseSequence := beyond
    unfold Lane.consumed at beyond
    omega
  · exact Nat.le_of_eq last.symm

/-- An Admission in flight to a rank is that of its Active invocation. -/
theorem Admissions.underway (admissions : Admissions T k) (leases : Leases T k) (step : SlotStep T k k') {r : Nat}
    (rank : T.isRank invocation.key.instanceIndex r) (ledger : RankLedger T k invocation.key.instanceIndex r)
    (holds : k.scheduler.Holds invocation ℓ)
    (underway :
      (k.slots (T.atnagentPe invocation.key.instanceIndex r) (.admission invocation.key.instanceIndex)).Underway
        invocation.key.invocationSequence) :
    (k'.slots (T.atnagentPe invocation.key.instanceIndex r) (.admission invocation.key.instanceIndex)).Underway
      invocation.key.invocationSequence := by
  apply step.underway underway
  intro delivery channel written delivered
  refine (admissions.rank _ r rank).tracks.underway underway ?_ delivered
  rintro record ⟨held, admitted⟩ beyond
  have beyond : max (k.acknowledgements invocation.key.instanceIndex r).length _ < record.key.invocationSequence := beyond
  rcases leases.chain.settled _ _ _ admitted.granted with settled | ⟨-, active⟩
  · have acknowledged := settled.acknowledged r (by rw [admitted.index]; exact rank)
    rw [admitted.index, ledger.mem_acknowledgements, ← admitted.key] at acknowledged
    omega
  · have same : held = invocation := by
      rw [← active.admitted, ← holds.admitted, admitted.index]
    show invocation.key.invocationSequence ≤ record.key.invocationSequence
    rw [admitted.key, same]

/-! ## Every run -/

/-- An invocation is Active since it was scheduled. -/
theorem ControlStep.holds (step : ControlStep T k k') (holds : k'.scheduler.Holds invocation ℓ) (books : Books T k) :
    (k.scheduler.Holds invocation ℓ ∧ k'.leaseCount ℓ = k.leaseCount ℓ) ∨
      k'.coordinator = .writeAdmission invocation ℓ := by
  cases step with
  | same => exact .inl ⟨holds, rfl⟩
  | deliver => exact .inl ⟨holds, rfl⟩
  | atnagent i r _ _ effect =>
    have frame := effect.frame
    rw [frame.scheduler] at holds
    exact .inl ⟨holds, by rw [Control.leaseCount, Control.leaseCount, frame.leases]⟩
  | lane p ℓ _ _ effect =>
    have frame := effect.frame
    rw [frame.scheduler] at holds
    exact .inl ⟨holds, by rw [Control.leaseCount, Control.leaseCount, frame.leases]⟩
  | coordinator _ effect =>
    -- an entry that is replaced by one that is not Active holds nothing
    have others {scheduler : Scheduler} {index : Nat} {entry : SchedulerEntry} (holds : scheduler.Holds invocation ℓ)
        (entries : scheduler.entries = Function.update k.scheduler.entries index entry) (passive : entry.state ≠ .active) :
        k.scheduler.Holds invocation ℓ := by
      apply holds.congr
      rw [entries, Function.update_of_ne]
      intro same
      have state := holds.state
      rw [entries, same, Function.update_self] at state
      exact passive state
    cases effect with
    | reschedule scheduler stands scheduled =>
      left
      exact ⟨holds.congr (congrFun (Scheduler.trySchedule_eq_none scheduled).2 _).symm, rfl⟩
    | enqueue index invocation scheduler ticket stands bound idle ready enqueued =>
      obtain ⟨-, -, -, -, -, entries⟩ := Scheduler.enqueue_eq_some enqueued
      exact .inl ⟨others holds entries (by simp), rfl⟩
    | release index decision scheduler active committed stands ready released =>
      obtain ⟨-, -, -, -, entries⟩ := Scheduler.release_eq_some released
      exact .inl ⟨others holds entries (by simp), rfl⟩
    | schedule decision scheduler stands scheduled =>
      obtain ⟨-, ⟨impossible, -⟩ | ⟨index, bound, lane, free, state, unoccupied, made, entries⟩⟩ :=
        Scheduler.trySchedule_eq_some scheduled
      · cases impossible
      obtain rfl := Option.some.inj made
      by_cases here : invocation.key.instanceIndex = index
      · right
        subst here
        obtain ⟨-, admitted, at_lane⟩ := holds
        dsimp only at admitted at_lane
        rw [entries, Function.update_self] at admitted at_lane
        subst at_lane
        dsimp only
        rw [admitted]
      · left
        have before : k.scheduler.Holds invocation ℓ := by
          apply holds.congr
          dsimp only
          rw [entries, Function.update_of_ne here]
        refine ⟨before, ?_⟩
        have elsewhere : ℓ ≠ lane := by
          rintro rfl
          rw [Scheduler.not_occupied_iff, books.instanceCount] at unoccupied
          exact unoccupied _ ((books.entry _).bounded (by simp [before.state])) before.state before.lane
        rw [Control.leaseCount, Control.leaseCount]
        dsimp only
        rw [Function.update_of_ne elsewhere]
    | _ => exact .inl ⟨holds, rfl⟩

theorem coordinatorStep_running_before {event : Event V} {K : Kernels V} (taken : T.next K s event = some t)
    (running : t.control.coordinator ≠ .aborted) : s.control.coordinator ≠ .aborted := by
  intro aborted
  rcases next_coordinator taken with moved | same
  · simp [Topology.coordinatorStep, aborted] at moved
  · exact running (same.trans aborted)

theorem reachable_dispatched {K : Kernels V} {policy : PolicyState} (reached : (T.fabric K policy).Reachable s) :
    Dispatched T s.control := by
  apply System.ReachableUnder.invariant ?_ ?_ reached
  · rintro s ⟨memory, rfl⟩
    refine ⟨fun _ invocation ℓ holds => ?_, fun _ invocation ℓ holds => ?_⟩
    all_goals
      have state := holds.state
      simp [Topology.create, Scheduler.create, default] at state
  · intro s event t reached dispatched _ taken
    have books := reachable_books reached
    have leases := reachable_leases reached
    have admissions := reachable_admissions reached
    have step := next_control taken
    constructor
    · intro running invocation ℓ holds pe member
      rcases step.holds holds books with ⟨before, -⟩ | fresh
      · have bound := (books.entry invocation.key.instanceIndex).bounded (by simp [before.state])
        obtain ⟨r, rank, rfl⟩ := Topology.exists_rank bound member
        have ran := coordinatorStep_running_before taken running
        rcases dispatched.ranks ran invocation ℓ before _ member with withholds | underway
        · rcases next_coordinator taken with moved | same
          · exact (coordinatorStep_withholdsAdmission moved running member withholds).imp_right .inl
          · rw [same]
            exact .inl withholds
        · exact .inr (admissions.underway leases step.slots rank (reachable_ledger reached rank) before underway)
      · rw [fresh]
        exact .inl rfl
    · intro running invocation ℓ holds p member
      rcases step.holds holds books with ⟨before, count⟩ | fresh
      · have isLane := leases.isLane (books.granted before) member
        have ran := coordinatorStep_running_before taken running
        rcases dispatched.lanes ran invocation ℓ before p member with withholds | underway
        · rcases next_coordinator taken with moved | same
          · exact (coordinatorStep_withholds moved books running before member withholds).imp_right .inl
          · rw [same]
            exact .inl withholds
        · rw [count]
          exact .inr (leases.underway step.slots isLane underway)
      · rw [fresh]
        exact .inl rfl

end Dispatch

end CrossPool.Fabric
