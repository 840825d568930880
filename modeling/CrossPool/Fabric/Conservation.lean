import CrossPool.Fabric.Scheduler
import CrossPool.Lib.Runs

/-!
# Work conservation

Runs of `enqueue`, `try_schedule` and `release` on one scheduler, with the call that
made each entry Ready. FIFO tickets grow with these calls, so the least ticket is the
entry that became Ready first. The loop that looks for it starts from the largest
ticket and accepts smaller ones only: an entry with the last ticket, which `enqueue`
still hands out, is not found when no other entry is Ready.
-/

namespace CrossPool.Fabric

open CrossPool.Lib

namespace Scheduler

variable {s after : Scheduler}

/-! ## One call of the FIFO selection -/

def AnyReady (s : Scheduler) : Prop :=
  ∃ index < s.instanceCount, s.isReady index

/-- Some lane carries no Active entry. -/
def IdleLane (s : Scheduler) : Prop :=
  ∃ lane < s.executorLaneCount, s.occupied lane = false

theorem findIdleLane_ne_iff : s.findIdleLane ≠ s.executorLaneCount ↔ s.IdleLane := by
  constructor
  · intro found
    exact ⟨s.findIdleLane, findIdleLane_idle found⟩
  · rintro ⟨lane, bound, idle⟩
    have hit : ((List.range s.executorLaneCount).find? fun lane => !s.occupied lane).isSome := by
      rw [List.find?_isSome]
      exact ⟨lane, List.mem_range.mpr bound, by rw [idle]; rfl⟩
    obtain ⟨found, first⟩ := Option.isSome_iff_exists.mp hit
    rw [findIdleLane, first, Option.getD_some]
    have member := List.mem_range.mp (List.mem_of_find?_eq_some first)
    omega

/-- What the FIFO loop has selected among the entries gone through. -/
inductive Selected (s : Scheduler) (bound : Nat) : Nat × Nat → Prop where
  | none (late : ∀ index < bound, s.isReady index → maxSequence ≤ (s.entries index).readyTicket) :
    Selected s bound (s.instanceCount, maxSequence)
  | least {index : Nat} (inside : index < bound) (ready : s.isReady index)
    (early : (s.entries index).readyTicket < maxSequence)
    (least : ∀ other < bound, s.isReady other → (s.entries index).readyTicket ≤ (s.entries other).readyTicket) :
    Selected s bound (index, (s.entries index).readyTicket)

theorem selectFifo_selected : Selected s s.instanceCount s.selectFifo := by
  suffices loop : ∀ bound, Selected s bound ((List.range bound).foldl
      (fun selected index =>
        if s.isReady index && (s.entries index).readyTicket < selected.2 then (index, (s.entries index).readyTicket)
        else selected) (s.instanceCount, maxSequence)) from loop s.instanceCount
  intro bound
  induction bound with
  | zero =>
    apply Selected.none
    intro index inside
    omega
  | succ bound ih =>
    rw [List.range_succ, List.foldl_append, List.foldl_cons, List.foldl_nil]
    generalize (List.range bound).foldl _ _ = choice at ih ⊢
    cases ih with
    | none late =>
      dsimp only
      split
      · rename_i accepted
        simp only [Bool.and_eq_true, decide_eq_true_eq] at accepted
        apply Selected.least (Nat.lt_succ_self bound) accepted.1 accepted.2
        intro other inside ready
        rcases Nat.lt_succ_iff_lt_or_eq.mp inside with before | rfl
        · exact accepted.2.le.trans (late other before ready)
        · exact Nat.le_refl _
      · rename_i refused
        simp only [Bool.and_eq_true, decide_eq_true_eq, not_and, not_lt] at refused
        apply Selected.none
        intro index inside ready
        rcases Nat.lt_succ_iff_lt_or_eq.mp inside with before | rfl
        · exact late index before ready
        · exact refused ready
    | least inside ready early least =>
      dsimp only
      split
      · rename_i accepted
        simp only [Bool.and_eq_true, decide_eq_true_eq] at accepted
        apply Selected.least (Nat.lt_succ_self bound) accepted.1 (accepted.2.trans early)
        intro other inside' ready'
        rcases Nat.lt_succ_iff_lt_or_eq.mp inside' with before | rfl
        · exact accepted.2.le.trans (least other before ready')
        · exact Nat.le_refl _
      · rename_i refused
        simp only [Bool.and_eq_true, decide_eq_true_eq, not_and, not_lt] at refused
        apply Selected.least (Nat.lt_succ_of_lt inside) ready early
        intro other inside' ready'
        rcases Nat.lt_succ_iff_lt_or_eq.mp inside' with before | rfl
        · exact least other before ready'
        · exact refused ready'

/-- The FIFO policy is left with the last ticket alone while a lane is idle. -/
def LastTicket (s : Scheduler) : Prop :=
  (∃ nextTicket, s.policy = .fifo nextTicket) ∧ s.IdleLane ∧ s.AnyReady ∧
    ∀ index < s.instanceCount, s.isReady index → (s.entries index).readyTicket = maxSequence

/-- The selection finds a Ready entry unless only the last ticket is left. -/
theorem select_ne_iff (idle : s.IdleLane) (ready : s.AnyReady)
    (bounded : ∀ index < s.instanceCount, s.isReady index → (s.entries index).readyTicket ≤ maxSequence) :
    s.select.1 ≠ s.instanceCount ↔ ¬s.LastTicket := by
  obtain ⟨target, inside, isReady⟩ := ready
  constructor
  · rintro found ⟨⟨nextTicket, fifo⟩, -, -, last⟩
    apply found
    rw [select, fifo]
    dsimp only
    have selected := selectFifo_selected (s := s)
    generalize s.selectFifo = choice at selected ⊢
    cases selected with
    | none late => rfl
    | least inside' ready' early _ =>
      have final := last _ inside' ready'
      omega
  · intro notLast
    by_cases fifo : ∃ nextTicket, s.policy = .fifo nextTicket
    · have some : ∃ index < s.instanceCount, s.isReady index ∧ (s.entries index).readyTicket < maxSequence := by
        by_contra none
        apply notLast
        refine ⟨fifo, idle, ⟨target, inside, isReady⟩, ?_⟩
        intro index inside' ready'
        have most := bounded index inside' ready'
        by_contra other
        exact none ⟨index, inside', ready', by omega⟩
      obtain ⟨index, inside', ready', early⟩ := some
      exact select_ne inside' ready' fun _ _ => early
    · exact select_ne inside isReady fun nextTicket here => absurd ⟨nextTicket, here⟩ fifo

/-- What the FIFO policy selects has the least ticket. -/
theorem select_least {nextTicket : Nat} (fifo : s.policy = .fifo nextTicket) (chosen : s.select.1 ≠ s.instanceCount) :
    ∀ other < s.instanceCount, s.isReady other → (s.entries s.select.1).readyTicket ≤ (s.entries other).readyTicket := by
  rw [select, fifo] at chosen ⊢
  dsimp only at chosen ⊢
  have selected := selectFifo_selected (s := s)
  generalize s.selectFifo = choice at selected chosen ⊢
  cases selected with
  | none late => exact absurd rfl chosen
  | least _ _ _ least => exact least

/-- How `try_schedule` ends. -/
theorem trySchedule_cases (instances : s.instanceCount ≠ 0) (lanes : s.executorLaneCount ≠ 0) :
    (¬(s.IdleLane ∧ s.AnyReady) ∧ s.trySchedule = some (s, none)) ∨
      (s.IdleLane ∧ s.AnyReady ∧ s.select.1 = s.instanceCount ∧ s.trySchedule = none) ∨
        (s.IdleLane ∧ s.AnyReady ∧ s.select.1 < s.instanceCount ∧ s.isReady s.select.1 ∧
          s.findIdleLane < s.executorLaneCount ∧ s.occupied s.findIdleLane = false ∧
          ∃ after, s.trySchedule = some (after, some ⟨(s.entries s.select.1).invocation, s.findIdleLane⟩) ∧
            after.entries =
              Function.update s.entries s.select.1
                { s.entries s.select.1 with
                  executorLaneIndex := s.findIdleLane
                  state := .active }) := by
  have shown : (List.range s.instanceCount).any s.isReady ↔ s.AnyReady := by
    rw [List.any_eq_true]
    exact exists_congr fun index => and_congr_left fun _ => List.mem_range
  simp only [trySchedule, instances, lanes, or_self, if_false]
  by_cases found : s.findIdleLane = s.executorLaneCount
  · left
    rw [if_pos found]
    exact ⟨fun both => findIdleLane_ne_iff.mpr both.1 found, rfl⟩
  · have idle := findIdleLane_ne_iff.mp found
    rw [if_neg found]
    by_cases ready : (List.range s.instanceCount).any s.isReady
    · right
      rw [if_pos ready]
      have anyReady := shown.mp ready
      by_cases chosen : s.select.1 = s.instanceCount
      · left
        rw [if_pos chosen]
        exact ⟨idle, anyReady, chosen, rfl⟩
      · right
        rw [if_neg chosen]
        have isReady := select_ready chosen
        obtain ⟨same, shape⟩ := select_entries (s := s)
        obtain ⟨free, empty⟩ := findIdleLane_idle found
        have within := select_le (s := s)
        refine ⟨idle, anyReady, by omega, isReady, free, empty, ?_⟩
        simp only [Scheduler.isReady, decide_eq_true_eq] at isReady
        refine ⟨s.select.2.setEntry s.select.1
          { s.entries s.select.1 with
            executorLaneIndex := s.findIdleLane
            state := .active }, ?_, by rw [setEntry_entries, same]⟩
        simp only [admitEntry, same, shape.executorLaneCount, isReady]
        rw [if_neg (not_or.mpr ⟨not_not_intro rfl, Nat.not_le.mpr free⟩)]
        rfl
    · left
      rw [if_neg ready]
      exact ⟨fun both => ready (shown.mpr both.2), rfl⟩

end Scheduler

/-! ## Runs of calls -/

inductive SchedulerCall where
  | enqueue (invocation : Invocation)
  | trySchedule
  | release (key : InvocationKey) (lane : Nat)
deriving DecidableEq, Repr

/-- A scheduler with the number of calls made on it; history, the call that last made
each entry Ready. -/
structure Scheduling where
  scheduler : Scheduler
  calls : Nat
  enqueuedAt : Nat → Nat

/-- One call; `none` where it aborts. -/
def Scheduling.call (h : Scheduling) : SchedulerCall → Option Scheduling
  | .enqueue invocation =>
    (h.scheduler.enqueue invocation).map fun (after, _) =>
      { scheduler := after
        calls := h.calls + 1
        enqueuedAt := Function.update h.enqueuedAt invocation.key.instanceIndex h.calls }
  | .trySchedule =>
    h.scheduler.trySchedule.map fun (after, _) =>
      { h with
        scheduler := after
        calls := h.calls + 1 }
  | .release key lane =>
    (h.scheduler.release key lane).map fun after =>
      { h with
        scheduler := after
        calls := h.calls + 1 }

/-- The policies a scheduler starts with. -/
def PolicyState.initial : PolicyState → Prop
  | .fifo nextTicket => nextTicket = 0
  | .random _ => True

/-- All runs of calls on schedulers of positive counts. -/
def scheduling : System Scheduling SchedulerCall where
  init h := ∃ policy instanceCount executorLaneCount, policy.initial ∧ instanceCount ≠ 0 ∧ executorLaneCount ≠ 0 ∧
    h = ⟨Scheduler.create policy instanceCount executorLaneCount, 0, fun _ => 0⟩
  step h call h' := h.call call = some h'

section Steps

variable {h : Scheduling} {after : Scheduler}

theorem step_enqueue {invocation : Invocation} {ticket : Nat} (enqueued : h.scheduler.enqueue invocation = some (after, ticket)) :
    scheduling.step h (.enqueue invocation)
      { scheduler := after
        calls := h.calls + 1
        enqueuedAt := Function.update h.enqueuedAt invocation.key.instanceIndex h.calls } :=
  Option.map_eq_some_iff.mpr ⟨_, enqueued, rfl⟩

theorem step_trySchedule {decision : Option Decision} (scheduled : h.scheduler.trySchedule = some (after, decision)) :
    scheduling.step h .trySchedule { h with scheduler := after, calls := h.calls + 1 } :=
  Option.map_eq_some_iff.mpr ⟨_, scheduled, rfl⟩

theorem step_release {key : InvocationKey} {lane : Nat} (released : h.scheduler.release key lane = some after) :
    scheduling.step h (.release key lane) { h with scheduler := after, calls := h.calls + 1 } :=
  Option.map_eq_some_iff.mpr ⟨_, released, rfl⟩

end Steps

/-- Tickets tell when entries became Ready. -/
structure Ticketed (h : Scheduling) : Prop where
  instances : h.scheduler.instanceCount ≠ 0
  lanes : h.scheduler.executorLaneCount ≠ 0
  past : ∀ index < h.scheduler.instanceCount, h.scheduler.isReady index → h.enqueuedAt index < h.calls
  handed : ∀ index < h.scheduler.instanceCount, h.scheduler.isReady index → (h.scheduler.entries index).readyTicket ≤ maxSequence
  word : ∀ nextTicket, h.scheduler.policy = .fifo nextTicket → nextTicket ≤ maxSequence
  issued : ∀ nextTicket, h.scheduler.policy = .fifo nextTicket →
    ∀ index < h.scheduler.instanceCount, h.scheduler.isReady index → (h.scheduler.entries index).readyTicket ≤ nextTicket
  ordered : ∀ nextTicket, h.scheduler.policy = .fifo nextTicket →
    ∀ index < h.scheduler.instanceCount, ∀ other < h.scheduler.instanceCount, h.scheduler.isReady index →
      h.scheduler.isReady other → index ≠ other →
        ((h.scheduler.entries index).readyTicket ≤ (h.scheduler.entries other).readyTicket ↔
          h.enqueuedAt index < h.enqueuedAt other)

theorem Scheduler.isReady_congr {s after : Scheduler} {index : Nat} (same : after.entries index = s.entries index) :
    after.isReady index = s.isReady index := by
  rw [isReady, isReady, same]

/-- A call that makes no entry Ready and takes no ticket keeps the tickets. -/
theorem Ticketed.keep {h : Scheduling} {after : Scheduler} (ticketed : Ticketed h)
    (shape : Scheduler.SameShape h.scheduler after)
    (fifo : ∀ nextTicket, after.policy = .fifo nextTicket → h.scheduler.policy = .fifo nextTicket)
    (kept : ∀ index, after.isReady index → after.entries index = h.scheduler.entries index) :
    Ticketed { h with scheduler := after, calls := h.calls + 1 } := by
  have before {index : Nat} (ready : after.isReady index) : h.scheduler.isReady index := by
    rw [← Scheduler.isReady_congr (kept index ready)]
    exact ready
  have count := shape.instanceCount
  constructor
  · exact count ▸ ticketed.instances
  · exact shape.executorLaneCount ▸ ticketed.lanes
  · intro index inside ready
    exact Nat.lt_succ_of_lt (ticketed.past index (count ▸ inside) (before ready))
  · intro index inside ready
    rw [kept index ready]
    exact ticketed.handed index (count ▸ inside) (before ready)
  · intro nextTicket policy
    exact ticketed.word nextTicket (fifo nextTicket policy)
  · intro nextTicket policy index inside ready
    rw [kept index ready]
    exact ticketed.issued nextTicket (fifo nextTicket policy) index (count ▸ inside) (before ready)
  · intro nextTicket policy index inside other inside' ready ready' differ
    rw [kept index ready, kept other ready']
    exact ticketed.ordered nextTicket (fifo nextTicket policy) index (count ▸ inside) other (count ▸ inside') (before ready)
      (before ready') differ

/-- An enqueued invocation takes a ticket beyond all others. -/
theorem Ticketed.enqueue {h : Scheduling} {invocation : Invocation} {after : Scheduler} {ticket : Nat}
    (ticketed : Ticketed h) (enqueued : h.scheduler.enqueue invocation = some (after, ticket)) :
    Ticketed
      { scheduler := after
        calls := h.calls + 1
        enqueuedAt := Function.update h.enqueuedAt invocation.key.instanceIndex h.calls } := by
  obtain ⟨shape, -, -, idle, -, entries⟩ := Scheduler.enqueue_eq_some enqueued
  have count := shape.instanceCount
  have kept {index : Nat} (other : index ≠ invocation.key.instanceIndex) : after.entries index = h.scheduler.entries index := by
    rw [entries, Function.update_of_ne other]
  have before {index : Nat} (other : index ≠ invocation.key.instanceIndex) (ready : after.isReady index) :
      h.scheduler.isReady index := by
    rw [← Scheduler.isReady_congr (kept other)]
    exact ready
  have taken : (after.entries invocation.key.instanceIndex).readyTicket = ticket := by
    rw [entries, Function.update_self]
  -- the FIFO ticket is the next one, which did not wrap
  have next (nextTicket : Nat) (policy : after.policy = .fifo nextTicket) :
      h.scheduler.policy = .fifo (nextTicket - 1) ∧ ticket = nextTicket ∧ nextTicket ≠ 0 := by
    obtain ⟨previous, policy', same, moved, some⟩ := Scheduler.enqueue_fifo policy enqueued
    have word := ticketed.word previous policy'
    rw [maxSequence] at word
    have prior : nextTicket - 1 = previous := by omega
    exact ⟨prior ▸ policy', same, some⟩
  have bounded : ticket ≤ maxSequence := by
    simp only [Scheduler.enqueue] at enqueued
    split at enqueued
    · cases enqueued
    · split at enqueued
      · split at enqueued
        · cases enqueued
        · obtain ⟨-, rfl⟩ := Prod.mk.inj (Option.some.inj enqueued)
          rw [maxSequence]
          omega
      · obtain ⟨-, rfl⟩ := Prod.mk.inj (Option.some.inj enqueued)
        exact Nat.zero_le _
  constructor
  · exact count ▸ ticketed.instances
  · exact shape.executorLaneCount ▸ ticketed.lanes
  · intro index inside ready
    dsimp only
    by_cases other : index = invocation.key.instanceIndex
    · rw [other, Function.update_self]
      exact Nat.lt_succ_self _
    · rw [Function.update_of_ne other]
      exact Nat.lt_succ_of_lt (ticketed.past index (count ▸ inside) (before other ready))
  · intro index inside ready
    by_cases other : index = invocation.key.instanceIndex
    · rw [other, taken]
      exact bounded
    · rw [kept other]
      exact ticketed.handed index (count ▸ inside) (before other ready)
  · intro nextTicket policy
    exact (next nextTicket policy).2.1 ▸ bounded
  · intro nextTicket policy index inside ready
    obtain ⟨previous, same, some⟩ := next nextTicket policy
    by_cases other : index = invocation.key.instanceIndex
    · rw [other, taken, same]
    · have issued := ticketed.issued _ previous index (count ▸ inside) (before other ready)
      rw [kept other]
      omega
  · intro nextTicket policy index inside other inside' ready ready' differ
    obtain ⟨previous, same, some⟩ := next nextTicket policy
    by_cases first : index = invocation.key.instanceIndex
    · have second : other ≠ invocation.key.instanceIndex := fun again => differ (first.trans again.symm)
      have issued := ticketed.issued _ previous other (count ▸ inside') (before second ready')
      have past := ticketed.past other (count ▸ inside') (before second ready')
      dsimp only
      rw [first, taken, kept second, Function.update_self, Function.update_of_ne second]
      omega
    · by_cases second : other = invocation.key.instanceIndex
      · have issued := ticketed.issued _ previous index (count ▸ inside) (before first ready)
        have past := ticketed.past index (count ▸ inside) (before first ready)
        dsimp only
        rw [second, taken, kept first, Function.update_self, Function.update_of_ne first]
        omega
      · dsimp only
        rw [kept first, kept second, Function.update_of_ne first, Function.update_of_ne second]
        exact ticketed.ordered _ previous index (count ▸ inside) other (count ▸ inside') (before first ready)
          (before second ready') differ

theorem ticketed_of_reachable {h : Scheduling} (reached : scheduling.Reachable h) : Ticketed h := by
  apply System.ReachableUnder.invariant ?_ ?_ reached
  · rintro _ ⟨policy, instanceCount, executorLaneCount, initial, instances, lanes, rfl⟩
    have none (index : Nat) : ¬(Scheduler.create policy instanceCount executorLaneCount).isReady index := by
      simp [Scheduler.create, Scheduler.isReady, default]
    refine ⟨instances, lanes, fun index _ ready => absurd ready (none index), fun index _ ready => absurd ready (none index), ?_,
      fun _ _ index _ ready => absurd ready (none index), fun _ _ index _ _ _ ready => absurd ready (none index)⟩
    rintro nextTicket rfl
    exact initial ▸ Nat.zero_le _
  · intro h call h' _ ticketed _ taken
    cases call with
    | enqueue invocation =>
      obtain ⟨⟨after, ticket⟩, enqueued, rfl⟩ := Option.map_eq_some_iff.mp taken
      exact ticketed.enqueue enqueued
    | trySchedule =>
      obtain ⟨⟨after, decision⟩, scheduled, rfl⟩ := Option.map_eq_some_iff.mp taken
      obtain ⟨shape, moved⟩ := Scheduler.trySchedule_eq_some scheduled
      apply ticketed.keep shape fun _ fifo => Scheduler.trySchedule_fifo fifo scheduled
      intro index ready
      rcases moved with ⟨-, same⟩ | ⟨chosen, -, lane, -, -, -, -, entries⟩
      · rw [same]
      · by_cases here : index = chosen
        · rw [here, Scheduler.isReady, entries, Function.update_self] at ready
          simp at ready
        · rw [entries, Function.update_of_ne here]
    | release key lane =>
      obtain ⟨after, released, rfl⟩ := Option.map_eq_some_iff.mp taken
      obtain ⟨shape, -, -, -, entries⟩ := Scheduler.release_eq_some released
      apply ticketed.keep shape fun _ fifo => (Scheduler.release_policy released).symm.trans fifo
      intro index ready
      by_cases here : index = key.instanceIndex
      · rw [here, Scheduler.isReady, entries, Function.update_self] at ready
        simp at ready
      · rw [entries, Function.update_of_ne here]

/-! ## What a call of try_schedule does -/

/-- `try_schedule` does not abort; it decides just where a lane is idle and an entry is
Ready, for a Ready entry on a lane of no Active entry, under FIFO for the one that was
enqueued first. -/
structure Conserving (h : Scheduling) : Prop where
  returns : h.scheduler.trySchedule ≠ none
  decides : ∀ after decision, h.scheduler.trySchedule = some (after, decision) →
    (decision.isSome ↔ h.scheduler.IdleLane ∧ h.scheduler.AnyReady)
  admits : ∀ after decision, h.scheduler.trySchedule = some (after, some decision) →
    decision.executorLaneIndex < h.scheduler.executorLaneCount ∧
      (∀ index < h.scheduler.instanceCount, (h.scheduler.entries index).state = .active →
        (h.scheduler.entries index).executorLaneIndex ≠ decision.executorLaneIndex) ∧
      ∃ index < h.scheduler.instanceCount, (h.scheduler.entries index).state = .ready ∧
        decision.invocation = (h.scheduler.entries index).invocation ∧
        after.entries =
          Function.update h.scheduler.entries index
            { h.scheduler.entries index with
              executorLaneIndex := decision.executorLaneIndex
              state := .active } ∧
        ∀ nextTicket, h.scheduler.policy = .fifo nextTicket →
          ∀ other < h.scheduler.instanceCount, (h.scheduler.entries other).state = .ready → other ≠ index →
            h.enqueuedAt index < h.enqueuedAt other

/-- In every run, `try_schedule` conserves work and FIFO order unless the FIFO policy is
left with the last ticket alone while a lane is idle. -/
theorem conserving_iff {h : Scheduling} (reached : scheduling.Reachable h) :
    Conserving h ↔ ¬h.scheduler.LastTicket := by
  have ticketed := ticketed_of_reachable reached
  have least (idle : h.scheduler.IdleLane) (ready : h.scheduler.AnyReady) :=
    Scheduler.select_ne_iff idle ready ticketed.handed
  have cases := Scheduler.trySchedule_cases ticketed.instances ticketed.lanes
  constructor
  · intro conserving last
    have ⟨_, idle, ready, _⟩ := last
    obtain ⟨neither, -⟩ | ⟨-, -, -, aborts⟩ | ⟨-, -, chosen, -⟩ := cases
    · exact neither ⟨idle, ready⟩
    · exact conserving.returns aborts
    · exact (least idle ready).mp chosen.ne last
  · intro notLast
    obtain ⟨neither, returns⟩ | ⟨idle, ready, nothing, -⟩ | ⟨idle, ready, chosen, isReady, free, empty, after, returns, entries⟩ :=
      cases
    · refine ⟨by simp [returns], ?_, ?_⟩
      · intro after decision scheduled
        obtain ⟨-, rfl⟩ := Prod.mk.inj (Option.some.inj (returns.symm.trans scheduled))
        simp only [Option.isSome_none, Bool.false_eq_true, false_iff]
        exact neither
      · intro after decision scheduled
        obtain ⟨-, impossible⟩ := Prod.mk.inj (Option.some.inj (returns.symm.trans scheduled))
        cases impossible
    · exact absurd nothing ((least idle ready).mpr notLast)
    · refine ⟨by simp [returns], ?_, ?_⟩
      · intro after' decision scheduled
        obtain ⟨-, rfl⟩ := Prod.mk.inj (Option.some.inj (returns.symm.trans scheduled))
        simp only [Option.isSome_some, true_iff]
        exact ⟨idle, ready⟩
      · intro after' decision scheduled
        obtain ⟨rfl, same⟩ := Prod.mk.inj (Option.some.inj (returns.symm.trans scheduled))
        obtain rfl := Option.some.inj same
        refine ⟨free, Scheduler.not_occupied_iff.mp empty, h.scheduler.select.1, chosen, ?_, rfl, entries, ?_⟩
        · simpa [Scheduler.isReady] using isReady
        · intro nextTicket fifo other inside ready' differ
          have isReady' : h.scheduler.isReady other := by simpa [Scheduler.isReady] using ready'
          rw [← ticketed.ordered nextTicket fifo _ chosen other inside isReady isReady' differ.symm]
          exact Scheduler.select_least fifo chosen.ne other inside isReady'

/-- One Instance is served on the first of two lanes while two others queue up. -/
def backlogCalls : List SchedulerCall :=
  [.enqueue ⟨⟨2, 1⟩, 0, 1, .perRankComplete⟩, .trySchedule, .enqueue ⟨⟨1, 1⟩, 0, 1, .perRankComplete⟩,
    .enqueue ⟨⟨0, 1⟩, 0, 1, .perRankComplete⟩]

/-- The other lane goes to the one of the two that was enqueued first, though it is the
later entry. -/
theorem conserving_iff_backlog :
    ∃ h, scheduling.Reachable h ∧ h.scheduler.policy = .fifo 3 ∧ h.scheduler.occupied 0 ∧ h.scheduler.occupied 1 = false ∧
      h.scheduler.isReady 0 ∧ h.scheduler.isReady 1 ∧ h.enqueuedAt 1 < h.enqueuedAt 0 ∧
      (h.scheduler.trySchedule.bind Prod.snd).map (fun decision => (decision.invocation.key, decision.executorLaneIndex)) =
        some (⟨1, 1⟩, 1) ∧
      (Conserving h ↔ ¬h.scheduler.LastTicket) := by
  have starts : scheduling.Reachable ⟨Scheduler.create (.fifo 0) 3 2, 0, fun _ => 0⟩ :=
    .start ⟨.fifo 0, 3, 2, rfl, by decide, by decide, rfl⟩
  obtain ⟨h, reached, ends⟩ :=
    System.ReachableUnder.run Scheduling.call (fun _ _ _ called => ⟨trivial, called⟩) starts backlogCalls
      (fun h =>
        h.scheduler.policy = .fifo 3 ∧ h.scheduler.occupied 0 ∧ h.scheduler.occupied 1 = false ∧ h.scheduler.isReady 0 ∧
          h.scheduler.isReady 1 ∧ h.enqueuedAt 1 < h.enqueuedAt 0 ∧
          (h.scheduler.trySchedule.bind Prod.snd).map
            (fun decision => (decision.invocation.key, decision.executorLaneIndex)) = some (⟨1, 1⟩, 1))
      (by decide +kernel)
  obtain ⟨policy, busy, idle, ready, ready', earlier, decision⟩ := of_decide_eq_true ends
  exact ⟨h, reached, policy, busy, idle, ready, ready', earlier, decision, conserving_iff reached⟩

/-! ## The last ticket -/

/-- One Instance and one lane under FIFO. -/
def soloScheduler (nextTicket : Nat) (entry : SchedulerEntry) : Scheduler where
  policy := .fifo nextTicket
  entries := Function.update (fun _ => default) 0 entry
  instanceCount := 1
  executorLaneCount := 1

/-- The invocation after some that are completed. -/
def soloInvocation (completed : Nat) : Invocation :=
  ⟨⟨0, completed + 1⟩, 0, 1, .perRankComplete⟩

def soloEntry (completed : Nat) (state : EntryState) : SchedulerEntry :=
  match state with
  | .idle => { (default : SchedulerEntry) with completedSequence := completed }
  | state => ⟨soloInvocation completed, completed, completed + 1, 0, state⟩

theorem solo_entries (nextTicket : Nat) (entry : SchedulerEntry) : (soloScheduler nextTicket entry).entries 0 = entry := by
  simp [soloScheduler]

theorem solo_setEntry (nextTicket : Nat) (entry entry' : SchedulerEntry) :
    (soloScheduler nextTicket entry).setEntry 0 entry' = soloScheduler nextTicket entry' := by
  simp only [Scheduler.setEntry, soloScheduler, Function.update_idem]

theorem solo_enqueue {completed : Nat} (more : completed < maxSequence) :
    (soloScheduler completed (soloEntry completed .idle)).enqueue (soloInvocation completed) =
      some (soloScheduler (completed + 1) (soloEntry completed .ready), completed + 1) := by
  have unwrapped : (completed + 1) % 2 ^ 64 = completed + 1 := by
    rw [maxSequence] at more
    omega
  have index : (soloInvocation completed).key.instanceIndex = 0 := rfl
  rw [Scheduler.enqueue]
  simp only [index, solo_entries, solo_setEntry]
  rw [if_neg]
  · change (if (completed + 1) % 2 ^ 64 = 0 then _ else _) = _
    rw [unwrapped, if_neg (Nat.succ_ne_zero completed)]
    rfl
  · rintro (invalid | out | busy | wrapped | skipped)
    · simp [soloInvocation, Invocation.valid, InvocationKey.valid, Transport.OutputRequirement.isValid] at invalid
    · exact absurd out (Nat.not_le.mpr Nat.one_pos)
    · exact busy rfl
    · exact more.ne wrapped
    · exact skipped rfl

theorem solo_findIdleLane {nextTicket completed : Nat} :
    (soloScheduler nextTicket (soloEntry completed .ready)).findIdleLane = 0 := by
  simp [Scheduler.findIdleLane, Scheduler.occupied, soloScheduler, soloEntry, List.range_succ]

theorem solo_select {nextTicket completed : Nat} :
    (soloScheduler nextTicket (soloEntry completed .ready)).select.1 = if completed + 1 < maxSequence then 0 else 1 := by
  simp only [Scheduler.select, soloScheduler, Scheduler.selectFifo, List.range_succ, List.range_zero, List.nil_append,
    List.foldl_cons, List.foldl_nil, Scheduler.isReady, Function.update_self, soloEntry, decide_true, Bool.true_and,
    decide_eq_true_eq]
  split <;> rfl

theorem solo_trySchedule {completed : Nat} :
    (soloScheduler (completed + 1) (soloEntry completed .ready)).trySchedule =
      if completed + 1 < maxSequence then
        some (soloScheduler (completed + 1) (soloEntry completed .active), some ⟨soloInvocation completed, 0⟩)
      else none := by
  have advanced : (soloScheduler (completed + 1) (soloEntry completed .ready)).select.2 =
      soloScheduler (completed + 1) (soloEntry completed .ready) := rfl
  have anyReady : (List.range (soloScheduler (completed + 1) (soloEntry completed .ready)).instanceCount).any
      (soloScheduler (completed + 1) (soloEntry completed .ready)).isReady := by
    simp [soloScheduler, soloEntry, Scheduler.isReady, List.range_succ]
  have instances : (soloScheduler (completed + 1) (soloEntry completed .ready)).instanceCount = 1 := rfl
  have lanes : (soloScheduler (completed + 1) (soloEntry completed .ready)).executorLaneCount = 1 := rfl
  have chosen : (soloScheduler (completed + 1) (soloEntry completed .ready)).select.1 =
      if completed + 1 < maxSequence then 0 else 1 := solo_select
  rw [Scheduler.trySchedule, instances, lanes, if_neg (by decide), solo_findIdleLane, if_neg (by decide),
    if_pos (instances ▸ anyReady)]
  generalize (soloScheduler (completed + 1) (soloEntry completed .ready)).select = choice at advanced chosen
  obtain ⟨selected, after⟩ := choice
  obtain rfl := advanced
  obtain rfl := chosen
  dsimp only
  split
  · rw [if_neg (by decide), Scheduler.admitEntry]
    simp only [solo_entries, solo_setEntry]
    have ready : (soloEntry completed .ready).state = .ready := rfl
    have lanes' : (soloScheduler (completed + 1) (soloEntry completed .ready)).executorLaneCount = 1 := rfl
    rw [ready, lanes', if_neg (by decide)]
    rfl
  · exact if_pos rfl

theorem solo_release {completed : Nat} :
    (soloScheduler (completed + 1) (soloEntry completed .active)).release (soloInvocation completed).key 0 =
      some (soloScheduler (completed + 1) (soloEntry (completed + 1) .idle)) := by
  have index : (soloInvocation completed).key.instanceIndex = 0 := rfl
  rw [Scheduler.release]
  simp only [index, solo_entries, solo_setEntry]
  rw [if_neg]
  · rfl
  · rintro (invalid | out | out | inactive | differ | elsewhere)
    · simp [soloInvocation, InvocationKey.valid] at invalid
    · exact absurd out (Nat.not_le.mpr Nat.one_pos)
    · exact absurd out (Nat.not_le.mpr Nat.one_pos)
    · exact inactive rfl
    · exact differ rfl
    · exact elsewhere rfl

/-- Any number of invocations below the last ticket is served one after the other. -/
theorem solo_served {completed : Nat} (few : completed < maxSequence) :
    ∃ h, scheduling.Reachable h ∧ h.scheduler = soloScheduler completed (soloEntry completed .idle) := by
  induction completed with
  | zero =>
    refine ⟨_, .start ⟨.fifo 0, 1, 1, rfl, Nat.one_ne_zero, Nat.one_ne_zero, rfl⟩, ?_⟩
    simp only [Scheduler.create, soloScheduler, soloEntry, Scheduler.mk.injEq, true_and, and_true]
    exact (Function.update_eq_self 0 _).symm
  | succ completed ih =>
    obtain ⟨h, reached, same⟩ := ih (by omega)
    have enqueued := solo_enqueue (show completed < maxSequence by omega)
    have scheduled := @solo_trySchedule completed
    rw [if_pos few] at scheduled
    have released := @solo_release completed
    obtain ⟨scheduler, calls, enqueuedAt⟩ := h
    obtain rfl := same
    have first := reached.step (step_enqueue enqueued)
    have second := first.step (step_trySchedule scheduled)
    have third := second.step (step_release released)
    exact ⟨_, third, rfl⟩

/-- A run reaches a state in which a lane is idle and an entry is Ready, and
`try_schedule` aborts. -/
theorem trySchedule_aborts : ∃ h, scheduling.Reachable h ∧ h.scheduler.IdleLane ∧ h.scheduler.AnyReady ∧
    h.scheduler.trySchedule = none := by
  obtain ⟨⟨scheduler, calls, enqueuedAt⟩, reached, same⟩ := @solo_served (maxSequence - 1) (by decide)
  obtain rfl := same
  have enqueued := @solo_enqueue (maxSequence - 1) (by decide)
  have last := reached.step (step_enqueue enqueued)
  have aborts := @solo_trySchedule (maxSequence - 1)
  rw [if_neg (by decide)] at aborts
  refine ⟨_, last, ⟨0, Nat.one_pos, ?_⟩, ⟨0, Nat.one_pos, ?_⟩, aborts⟩
  · simp [Scheduler.occupied, soloScheduler, soloEntry, List.range_succ]
  · simp [Scheduler.isReady, solo_entries, soloEntry]

end CrossPool.Fabric
