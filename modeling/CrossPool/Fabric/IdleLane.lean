import CrossPool.Fabric.Failure

/-!
# An idle lane under canonical failure

A lane that waits for its next lease leaves its loop when it sees a failure, and
publishes that failure again under the key of its last execution. A lane that has
never been leased has no such key: its record is still zero and `try_publish`
aborts on it.
-/

namespace CrossPool.Fabric

open CrossPool.Control (ResultCode)
open CrossPool.Lib

variable {T : Topology} {V : Type} {K : Kernels V} {s t : State V} {p ℓ : Nat} {policy : PolicyState}

/-! ## What a waiting lane remembers -/

/-- A lane without a lease has a zero record; otherwise the record of its last
lease is valid. -/
structure Remembers (l : Lane) : Prop where
  waiting :
    l.pc = .awaitExecution →
      (l.lastLeaseSequence = 0 ∧ l.execution = default) ∨ (l.lastLeaseSequence ≠ 0 ∧ l.execution.key.valid)
  engaged : l.engaged → PublicationRecord.valid l.execution

/-- Only its own steps change a lane. -/
theorem ControlStep.lane_cases {k k' : Control} (step : ControlStep T k k') (p ℓ : Nat) :
    k'.lanes p ℓ = k.lanes p ℓ ∨ LaneControl T k p ℓ k' := by
  cases step with
  | same => exact .inl rfl
  | deliver => exact .inl rfl
  | coordinator k' effect =>
    left
    cases effect <;> rfl
  | atnagent i r _ k' effect =>
    left
    cases effect <;> rfl
  | lane p' ℓ' _ k' effect =>
    by_cases own : p = p' ∧ ℓ = ℓ'
    · obtain ⟨rfl, rfl⟩ := own
      exact .inr effect
    · left
      cases effect with
      | stay => rfl
      | move => exact update₂_of_ne _ _ own
      | observe => exact update₂_of_ne _ _ own
      | stage => exact update₂_of_ne _ _ own
      | complete => exact update₂_of_ne _ _ own

theorem LaneExecution.key_valid {execution : LaneExecution} (valid : PublicationRecord.valid execution) :
    execution.key.valid ∧ execution.executorLeaseSequence ≠ 0 := by
  simp only [PublicationRecord.valid, Bool.and_eq_true, decide_eq_true_eq] at valid
  exact valid.1.1

theorem LaneControl.remembers {k k' : Control} (effect : LaneControl T k p ℓ k') (remembers : Remembers (k.lanes p ℓ)) :
    Remembers (k'.lanes p ℓ) := by
  cases effect with
  | stay => exact remembers
  | move pc terminal sticky engaged leaves unstaged =>
    simp only [Control.setLane, update₂_same]
    exact ⟨fun waits => absurd waits leaves, fun still => remembers.engaged (engaged still)⟩
  | observe l stands unwrapped reached execution last selected =>
    simp only [Control.setLane, update₂_same]
    rcases selected with ⟨pc, terminal⟩ | ⟨pc, live, valid, -⟩
    · exact ⟨by simp [pc], by simp [Lane.engaged, pc, terminal]⟩
    · exact ⟨by simp [pc], fun _ => valid⟩
  | stage stands live =>
    simp only [Control.setLane, update₂_same]
    refine ⟨by simp, fun _ => remembers.engaged ?_⟩
    simp [Lane.engaged, stands, live]
  | complete stands =>
    simp only [update₂_same]
    have valid := remembers.engaged (by simp [Lane.engaged, stands])
    obtain ⟨key, lease⟩ := LaneExecution.key_valid valid
    exact ⟨fun _ => .inr ⟨lease, key⟩, fun engaged => by simp [Lane.engaged] at engaged⟩

theorem reachable_remembers (reached : (T.fabric K policy).Reachable s) (p ℓ : Nat) :
    Remembers (s.control.lanes p ℓ) := by
  induction reached with
  | start init =>
    obtain ⟨memory, rfl⟩ := init
    exact ⟨fun _ => .inl ⟨rfl, rfl⟩, fun engaged => by simp [Topology.create, Lane.engaged] at engaged⟩
  | next _ _ taken remembers =>
    rcases (next_control taken).lane_cases p ℓ with same | effect
    · rwa [same]
    · exact effect.remembers remembers

/-! ## A waiting lane has no puts on their way -/

/-- A lane and its registers change only by its own steps and by its puts. -/
theorem next_registers {event : Event V} (taken : T.next K s event = some t) (p ℓ : Nat) :
    (∃ move, event = .lane p ℓ move ∧ T.isLane p ℓ ∧ T.laneMove K s p ℓ move = some t) ∨
      (t.control.lanes p ℓ = s.control.lanes p ℓ ∧
        (t.payloads.lanes p ℓ = s.payloads.lanes p ℓ ∨ (s.payloads.lanes p ℓ).puts ≠ [])) := by
  cases event with
  | coordinator =>
    rw [coordinatorStep_payloads taken]
    refine .inr ⟨?_, .inl rfl⟩
    generalize t.control = k, coordinatorStep_control taken = effect
    cases effect <;> rfl
  | atnagent i r move =>
    simp only [Topology.next] at taken
    split at taken
    · have steps := atnAgentMove_taken taken
      rw [steps.frame.lanes]
      refine .inr ⟨?_, .inl rfl⟩
      generalize t.control = k, steps.control = effect
      cases effect <;> rfl
    · cases taken
  | lane p' ℓ' move =>
    simp only [Topology.next] at taken
    split at taken
    · next isLane =>
      by_cases own : p = p' ∧ ℓ = ℓ'
      · obtain ⟨rfl, rfl⟩ := own
        exact .inl ⟨move, rfl, isLane, taken⟩
      · have steps := laneMove_taken taken
        refine .inr ⟨?_, .inl (steps.frame.lanes p ℓ own)⟩
        generalize t.control = k, steps.control = effect
        cases effect with
        | stay => rfl
        | move => exact update₂_of_ne _ _ own
        | observe => exact update₂_of_ne _ _ own
        | stage => exact update₂_of_ne _ _ own
        | complete => exact update₂_of_ne _ _ own
    · cases taken
  | publication destination slot delivery =>
    obtain ⟨⟨channel, written⟩, delivered, rfl⟩ := Option.map_eq_some_iff.mp taken
    exact .inr ⟨rfl, .inl rfl⟩
  | payload destination slot delivery =>
    obtain ⟨⟨channel, written⟩, delivered, rfl⟩ := Option.map_eq_some_iff.mp taken
    cases written with
    | none => exact .inr ⟨rfl, .inl rfl⟩
    | some element => exact .inr ⟨rfl, .inl rfl⟩
  | failure destination delivery =>
    obtain ⟨⟨channel, written⟩, delivered, rfl⟩ := Option.map_eq_some_iff.mp taken
    exact .inr ⟨rfl, .inl rfl⟩
  | put p' ℓ' index move =>
    simp only [Topology.next, Topology.putStep] at taken
    by_cases own : p = p' ∧ ℓ = ℓ'
    · obtain ⟨rfl, rfl⟩ := own
      split at taken
      · next found =>
        split at taken <;> cases taken
        refine .inr ⟨rfl, .inr ?_⟩
        rintro empty
        simp [empty] at found
      · next found =>
        obtain ⟨value, -, rfl⟩ := Option.map_eq_some_iff.mp taken
        refine .inr ⟨rfl, .inr ?_⟩
        rintro empty
        simp [empty] at found
      · cases taken
    · split at taken
      · split at taken <;> cases taken
        exact .inr ⟨rfl, .inl (update₂_of_ne _ _ own)⟩
      · obtain ⟨value, -, rfl⟩ := Option.map_eq_some_iff.mp taken
        exact .inr ⟨rfl, .inl (update₂_of_ne _ _ own)⟩
      · cases taken
  | shutdown pe =>
    cases taken
    exact .inr ⟨rfl, .inl rfl⟩

theorem LaneControl.awaits {k k' : Control} (effect : LaneControl T k p ℓ k') (waits : (k'.lanes p ℓ).pc = .awaitExecution) :
    k' = k ∨ (k.lanes p ℓ).pc = .quietCompletion := by
  cases effect with
  | stay => exact .inl rfl
  | move pc terminal sticky engaged leaves unstaged =>
    simp only [Control.setLane, update₂_same] at waits
    exact absurd waits leaves
  | observe l stands unwrapped reached execution last selected =>
    simp only [Control.setLane, update₂_same] at waits
    rcases selected with ⟨pc, -⟩ | ⟨pc, -⟩ <;> simp [pc] at waits
  | stage stands live => simp [Control.setLane] at waits
  | complete stands => exact .inr stands

/-- Completion is published by a quiet lane, and nothing is put before the next
lease. -/
theorem reachable_quiet (reached : (T.fabric K policy).Reachable s) (waits : (s.control.lanes p ℓ).pc = .awaitExecution) :
    (s.payloads.lanes p ℓ).puts = [] := by
  induction reached with
  | start init =>
    obtain ⟨memory, rfl⟩ := init
    rfl
  | @next s t event _ _ taken quiet =>
    rcases next_registers taken p ℓ with ⟨move, -, -, moves⟩ | ⟨lane, registers⟩
    · rcases (laneMove_taken moves).control.awaits waits with same | stands
      · rw [same] at waits
        have payloads : t.payloads = s.payloads := by
          cases move with
          | step =>
            simp only [Topology.laneMove, Topology.laneStep, waits] at moves
            split at moves
            · cases moves
              rfl
            split at moves
            · cases moves
              simp only [Topology.observeStep]
              split
              · rfl
              · split <;> rfl
            · split at moves <;> cases moves
              rfl
          | block index => simp [Topology.laneMove, waits] at moves
          | expire => simp [Topology.laneMove, Topology.laneExpire, waits] at moves
        rw [payloads]
        exact quiet waits
      · cases move with
        | step =>
          simp only [Topology.laneMove, Topology.laneStep, stands] at moves
          split at moves <;> cases moves
          next empty =>
          simp only [Topology.publishCompletionStep]
          split <;> exact empty
        | block index => simp [Topology.laneMove, stands] at moves
        | expire => simp [Topology.laneMove, Topology.laneExpire, stands] at moves
    · rw [lane] at waits
      rcases registers with same | busy
      · rw [same]
        exact quiet waits
      · exact absurd (quiet waits) busy

/-! ## Leaving the loop -/

/-- The way of a lane that saw a failure while it waited, and how much of it is
left. -/
inductive Leaves : Lane → Nat → Prop where
  | cancelled {l : Lane} (stands : l.pc = .cancelled .lane) : Leaves l 5
  | terminate {l : Lane} (result : ResultCode) (stands : l.pc = .terminate .lane result) (terminal : l.terminal) : Leaves l 4
  | prepareDelivery {l : Lane} (stands : l.pc = .prepareDelivery) (terminal : l.terminal) : Leaves l 3
  | completeExecution {l : Lane} (stands : l.pc = .completeExecution) (terminal : l.terminal) : Leaves l 2
  | quietTerminal {l : Lane} (stands : l.pc = .quietTerminal) : Leaves l 1
  | exited {l : Lane} (stands : l.pc = .exited) : Leaves l 0

/-- A lane on its way out under a published failure, with a valid key to publish
it under. -/
structure Leaving (s : State V) (p ℓ rank : Nat) : Prop where
  leaves : Leaves (s.control.lanes p ℓ) rank
  quiet : (s.payloads.lanes p ℓ).puts = []
  keyed : (s.control.lanes p ℓ).execution.key.valid

theorem Leaves.not_aborted {l : Lane} {rank : Nat} (leaves : Leaves l rank) : l.pc ≠ .aborted := by
  cases leaves with
  | cancelled stands => simp [stands]
  | terminate result stands => simp [stands]
  | prepareDelivery stands => simp [stands]
  | completeExecution stands => simp [stands]
  | quietTerminal stands => simp [stands]
  | exited stands => simp [stands]

/-- Neither a delivery block nor a deadline belongs to the way out. -/
theorem Leaves.only_step {rank : Nat} (leaves : Leaves (s.control.lanes p ℓ) rank) {move : LaneMove}
    (moves : T.laneMove K s p ℓ move = some t) : move = .step := by
  cases move with
  | step => rfl
  | block index =>
    cases leaves with
    | cancelled stands => simp [Topology.laneMove, stands] at moves
    | terminate result stands => simp [Topology.laneMove, stands] at moves
    | prepareDelivery stands => simp [Topology.laneMove, stands] at moves
    | completeExecution stands => simp [Topology.laneMove, stands] at moves
    | quietTerminal stands => simp [Topology.laneMove, stands] at moves
    | exited stands => simp [Topology.laneMove, stands] at moves
  | expire =>
    cases leaves with
    | cancelled stands => simp [Topology.laneMove, Topology.laneExpire, stands] at moves
    | terminate result stands => simp [Topology.laneMove, Topology.laneExpire, stands] at moves
    | prepareDelivery stands => simp [Topology.laneMove, Topology.laneExpire, stands] at moves
    | completeExecution stands => simp [Topology.laneMove, Topology.laneExpire, stands] at moves
    | quietTerminal stands => simp [Topology.laneMove, Topology.laneExpire, stands] at moves
    | exited stands => simp [Topology.laneMove, Topology.laneExpire, stands] at moves

/-- The only step of a leaving lane is the next on its way. -/
theorem Leaving.step {rank : Nat} (leaving : Leaving s p ℓ (rank + 1)) :
    ∃ t, T.laneMove K s p ℓ .step = some t ∧ Leaving t p ℓ rank := by
  obtain ⟨leaves, quiet, keyed⟩ := leaving
  cases leaves with
  | cancelled stands =>
    refine ⟨Topology.laneTerminate s p ℓ .lane (s.signals.cancellationResult p), ?_,
      .terminate (s.signals.cancellationResult p) ?_ ?_, quiet, ?_⟩
    · simp only [Topology.laneMove, Topology.laneStep, stands]
    all_goals simp [Topology.laneTerminate, Control.setLane, keyed]
  | terminate result stands terminal =>
    refine ⟨T.terminateStep s p ℓ .lane result, ?_, ?_⟩
    · simp only [Topology.laneMove, Topology.laneStep, stands]
    have onward : Leaving (Topology.laneGoto s p ℓ .prepareDelivery) p ℓ 3 := by
      refine ⟨.prepareDelivery ?_ ?_, quiet, ?_⟩
      all_goals simp [Topology.laneGoto, Control.setLane, terminal, keyed]
    simp only [Topology.terminateStep]
    split
    · next failing =>
      have admissible : Signals.admissible result (s.control.lanes p ℓ).execution.key := by
        simp [Signals.admissible, keyed, failing]
      rw [if_pos admissible]
      exact ⟨onward.leaves, onward.quiet, onward.keyed⟩
    · exact onward
  | prepareDelivery stands terminal =>
    refine ⟨T.prepareStep s p ℓ, ?_, ?_⟩
    · simp only [Topology.laneMove, Topology.laneStep, stands]
    · have ended : ((s.control.lanes p ℓ).terminal || s.signals.flagged p) = true := by simp [terminal]
      simp only [Topology.prepareStep]
      rw [if_pos ended]
      refine ⟨.completeExecution ?_ ?_, quiet, ?_⟩
      all_goals simp [Control.setLane, keyed]
  | completeExecution stands terminal =>
    refine ⟨Topology.completeStep s p ℓ, ?_, ?_⟩
    · simp only [Topology.laneMove, Topology.laneStep, stands]
    · have ended : ((s.control.lanes p ℓ).terminal || s.signals.flagged p) = true := by simp [terminal]
      simp only [Topology.completeStep]
      rw [if_pos ended]
      refine ⟨.quietTerminal ?_, quiet, ?_⟩
      all_goals simp [Topology.laneGoto, Control.setLane, keyed]
  | quietTerminal stands =>
    refine ⟨Topology.exitStep s p ℓ, ?_, .exited ?_, quiet, ?_⟩
    · simp only [Topology.laneMove, Topology.laneStep, stands, quiet, if_true]
    all_goals simp [Topology.exitStep, Control.setLane, keyed]

/-- No event turns a leaving lane back. -/
theorem Leaving.next {rank : Nat} {event : Event V} (leaving : Leaving s p ℓ rank) (taken : T.next K s event = some t) :
    ∃ rank', Leaving t p ℓ rank' := by
  rcases next_registers taken p ℓ with ⟨move, -, -, moves⟩ | ⟨lane, registers⟩
  · obtain rfl := leaving.leaves.only_step moves
    cases rank with
    | zero =>
      cases leaving.leaves with
      | exited stands => simp [Topology.laneMove, Topology.laneStep, stands] at moves
    | succ rank =>
      obtain ⟨u, stepped, onward⟩ := leaving.step (T := T) (K := K)
      obtain rfl : u = t := Option.some.inj (stepped.symm.trans moves)
      exact ⟨rank, onward⟩
  · rcases registers with same | busy
    · exact ⟨rank, by rw [lane]; exact leaving.leaves, by rw [same]; exact leaving.quiet, by rw [lane]; exact leaving.keyed⟩
    · exact absurd leaving.quiet busy

theorem Leaving.later {rank : Nat} (leaving : Leaving s p ℓ rank) (later : (T.fabric K policy).Later s t) :
    ∃ rank', Leaving t p ℓ rank' := by
  induction later with
  | refl => exact ⟨rank, leaving⟩
  | tail _ last onward =>
    obtain ⟨event, -, taken⟩ := last
    obtain ⟨rank, leaving⟩ := onward
    exact leaving.next taken

/-- The lane's own steps lead out. -/
theorem Leaving.exits (isLane : T.isLane p ℓ) {rank : Nat} (leaving : Leaving s p ℓ rank) :
    ∃ t, (T.fabric K policy).LaterUnder (fun _ event => event = .lane p ℓ .step) s t ∧
      (t.control.lanes p ℓ).pc = .exited := by
  induction rank generalizing s with
  | zero =>
    cases leaving.leaves with
    | exited stands => exact ⟨s, .refl s, stands⟩
  | succ rank exits =>
    obtain ⟨u, stepped, onward⟩ := leaving.step (T := T) (K := K)
    obtain ⟨t, later, exited⟩ := exits onward
    refine ⟨t, System.LaterUnder.trans (System.LaterUnder.step (.refl s) rfl ?_) later, exited⟩
    simpa [Topology.fabric, Topology.next, isLane] using stepped

/-! ## A failure seen by a waiting lane -/

/-- The lane sees a published failure in its wait for the next lease. -/
structure ObservesFailure (T : Topology) (K : Kernels V) (s : State V) (p ℓ : Nat) (t : State V) : Prop where
  waits : (s.control.lanes p ℓ).pc = .awaitExecution
  published : s.signals.published p
  steps : T.next K s (.lane p ℓ .step) = some t
  cancelled : (t.control.lanes p ℓ).pc = .cancelled .lane

/-- In no later state the lane has aborted or is about to publish a failure under
an invalid key, and its own steps lead out of its loop. -/
structure Terminates (T : Topology) (K : Kernels V) (policy : PolicyState) (p ℓ : Nat) (t : State V) : Prop where
  unaborted : ∀ u, (T.fabric K policy).Later t u → (u.control.lanes p ℓ).pc ≠ .aborted
  keyed :
    ∀ u result, (T.fabric K policy).Later t u → (u.control.lanes p ℓ).pc = .terminate .lane result →
      (result = .protocolMismatch ∨ result = .timeout) → (u.control.lanes p ℓ).execution.key.valid
  exits :
    ∀ u, (T.fabric K policy).Later t u →
      ∃ v, (T.fabric K policy).LaterUnder (fun _ event => event = .lane p ℓ .step) u v ∧
        (v.control.lanes p ℓ).pc = .exited

theorem ObservesFailure.eq (observes : ObservesFailure T K s p ℓ t) :
    T.isLane p ℓ ∧ t = Topology.laneGoto s p ℓ (.cancelled .lane) := by
  obtain ⟨waits, -, steps, cancelled⟩ := observes
  simp only [Topology.next] at steps
  split at steps
  · next isLane =>
    refine ⟨isLane, ?_⟩
    simp only [Topology.laneMove, Topology.laneStep, waits] at steps
    split at steps
    · cases steps
      simp [Topology.laneGoto, Control.setLane] at cancelled
    split at steps
    · cases steps
      simp only [Topology.observeStep] at cancelled
      split at cancelled
      · simp [Control.setLane] at cancelled
      · split at cancelled <;> simp [Control.setLane] at cancelled
    · split at steps <;> cases steps
      rfl
  · cases steps

theorem ObservesFailure.terminates (reached : (T.fabric K policy).Reachable s) (observes : ObservesFailure T K s p ℓ t)
    (leased : (s.control.lanes p ℓ).lastLeaseSequence ≠ 0) : Terminates T K policy p ℓ t := by
  obtain ⟨isLane, rfl⟩ := observes.eq
  have quiet := reachable_quiet reached observes.waits
  have keyed : (s.control.lanes p ℓ).execution.key.valid := by
    rcases (reachable_remembers reached p ℓ).waiting observes.waits with unleased | remembered
    · exact absurd unleased.1 leased
    · exact remembered.2
  have leaving : Leaving (Topology.laneGoto s p ℓ (.cancelled .lane)) p ℓ 5 := by
    refine ⟨.cancelled ?_, quiet, ?_⟩
    all_goals simp [Topology.laneGoto, Control.setLane, keyed]
  constructor
  · intro u later
    obtain ⟨rank, leaving⟩ := leaving.later later
    exact leaving.leaves.not_aborted
  · intro u result later _ _
    obtain ⟨rank, leaving⟩ := leaving.later later
    exact leaving.keyed
  · intro u later
    obtain ⟨rank, leaving⟩ := leaving.later later
    exact leaving.exits isLane

/-- `terminate_lane` aborts on the zero record of a lane without a lease. -/
theorem laneTerminate_aborts (isLane : T.isLane p ℓ) (zero : (s.control.lanes p ℓ).execution = default) {result : ResultCode}
    (failing : result = .protocolMismatch ∨ result = .timeout) :
    T.next K (Topology.laneTerminate s p ℓ .lane result) (.lane p ℓ .step) =
      some (Topology.laneGoto (Topology.laneTerminate s p ℓ .lane result) p ℓ .aborted) := by
  have inadmissible : Signals.admissible result (default : LaneExecution).key = false := rfl
  simp [Topology.next, isLane, Topology.laneMove, Topology.laneStep, Topology.laneTerminate, Control.setLane,
    Topology.terminateStep, zero, inadmissible, failing]

/-- The next steps of a lane that was never leased end in the abort of
`try_publish`. -/
theorem ObservesFailure.aborts (reached : (T.fabric K policy).Reachable s) (observes : ObservesFailure T K s p ℓ t)
    (unleased : (s.control.lanes p ℓ).lastLeaseSequence = 0) :
    ∃ u, (T.fabric K policy).Later t u ∧ (u.control.lanes p ℓ).pc = .aborted := by
  obtain ⟨isLane, rfl⟩ := observes.eq
  have zero : (s.control.lanes p ℓ).execution = default := by
    rcases (reachable_remembers reached p ℓ).waiting observes.waits with unleased | remembered
    · exact unleased.2
    · exact absurd unleased remembered.1
  have canonical := ((reachable_canonical reached).settled observes.published).2
  generalize seen : Topology.laneGoto s p ℓ (.cancelled .lane) = t
  have failing : t.signals.cancellationResult p = .protocolMismatch ∨ t.signals.cancellationResult p = .timeout := by
    subst seen
    simpa [Topology.laneGoto, Signals.cancellationResult, observes.published, FailurePayload.canonical] using canonical
  have cancelled :
      T.next K t (.lane p ℓ .step) = some (Topology.laneTerminate t p ℓ .lane (t.signals.cancellationResult p)) := by
    subst seen
    simp [Topology.next, isLane, Topology.laneMove, Topology.laneStep, Topology.laneGoto, Control.setLane]
  have aborts := laneTerminate_aborts (T := T) (K := K) (s := t) isLane (by simp [← seen, Topology.laneGoto, Control.setLane, zero]) failing
  refine ⟨_, .step (.step (.refl t) trivial cancelled) trivial aborts, ?_⟩
  simp [Topology.laneGoto, Control.setLane]

/-- A waiting lane that sees a canonical failure leaves its loop without a device
abort exactly if it has completed a lease before. -/
theorem idle_lane_terminates (reached : (T.fabric K policy).Reachable s) (observes : ObservesFailure T K s p ℓ t) :
    Terminates T K policy p ℓ t ↔ (s.control.lanes p ℓ).lastLeaseSequence ≠ 0 := by
  constructor
  · intro terminates unleased
    obtain ⟨u, later, aborted⟩ := observes.aborts reached unleased
    exact terminates.unaborted u later aborted
  · exact observes.terminates reached

/-- What `ObservesFailure` asks of a concrete state. -/
def observing (s : State Nat) : Bool :=
  (s.control.lanes 1 0).pc = .awaitExecution && s.signals.published 1 &&
    (solo.next soloKernels s (.lane 1 0 .step)).any fun t => (t.control.lanes 1 0).pc = .cancelled .lane

theorem observesFailure_of_observing {s : State Nat} (observing : observing s) :
    ∃ t, ObservesFailure solo soloKernels s 1 0 t := by
  simp only [Fabric.observing, Bool.and_eq_true, decide_eq_true_eq, Option.any_eq_true] at observing
  obtain ⟨⟨waits, published⟩, t, steps, cancelled⟩ := observing
  exact ⟨t, waits, published, steps, cancelled⟩

/-- A lane that has completed one lease sees a failure. -/
theorem idle_lane_terminates_served :
    ∃ s t, (solo.fabric soloKernels (.fifo 0)).Reachable s ∧ ObservesFailure solo soloKernels s 1 0 t ∧
      Terminates solo soloKernels (.fifo 0) 1 0 t := by
  obtain ⟨s, reached, holds⟩ :=
    solo.run_reaches soloKernels (.fifo 0) (fun _ _ _ _ => 0) (soloSubmits ++ soloCompletes ++ soloFails)
      (fun s => observing s && (s.control.lanes 1 0).lastLeaseSequence = 1) (by decide +kernel)
  simp only [Bool.and_eq_true, decide_eq_true_eq] at holds
  obtain ⟨t, observes⟩ := observesFailure_of_observing holds.1
  exact ⟨s, t, reached, observes, (idle_lane_terminates reached observes).mpr (by simp [holds.2])⟩

/-- A submission times out before it is admitted; the lane has never been leased,
sees the failure and aborts. -/
theorem idle_lane_aborts_unleased :
    ∃ s t u, (solo.fabric soloKernels (.fifo 0)).Reachable s ∧ ObservesFailure solo soloKernels s 1 0 t ∧
      (solo.fabric soloKernels (.fifo 0)).Later t u ∧ (u.control.lanes 1 0).pc = .aborted ∧
      ¬Terminates solo soloKernels (.fifo 0) 1 0 t := by
  obtain ⟨s, reached, holds⟩ :=
    solo.run_reaches soloKernels (.fifo 0) (fun _ _ _ _ => 0) (soloSubmits ++ soloFails)
      (fun s => observing s && (s.control.lanes 1 0).lastLeaseSequence = 0) (by decide +kernel)
  simp only [Bool.and_eq_true, decide_eq_true_eq] at holds
  obtain ⟨t, observes⟩ := observesFailure_of_observing holds.1
  obtain ⟨u, later, aborted⟩ := observes.aborts reached holds.2
  exact ⟨s, t, u, reached, observes, later, aborted, fun terminates => terminates.unaborted u later aborted⟩

end CrossPool.Fabric
