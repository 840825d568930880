import Mathlib.Algebra.Order.BigOperators.Group.Finset
import CrossPool.Fabric.Rendezvous

/-!
# Coordinator and scheduler

The scheduler entry of an Instance only moves from Idle to Ready to Active and
back, each time with the next sequence, so that a journal of these moves counts
without gaps. As long as no counter is exhausted none of the checks on the way
can abort.
-/

namespace CrossPool.Fabric

open CrossPool.Control (ResultCode)
open CrossPool.Lib

/-! ## Journal -/

/-- Sequences by Instance, in the order in which they were enqueued, scheduled and
retired. -/
structure Journal where
  enqueued : Nat → List Nat
  scheduled : Nat → List Nat
  retired : Nat → List Nat

/-- What one step adds: the moves of the scheduler entries. -/
def Journal.record (journal : Journal) (k k' : Control) : Journal where
  enqueued i :=
    journal.enqueued i ++
      if (k.scheduler.entries i).state = .idle ∧ (k'.scheduler.entries i).state = .ready then
        [(k'.scheduler.entries i).invocation.key.invocationSequence]
      else []
  scheduled i :=
    journal.scheduled i ++
      if (k.scheduler.entries i).state = .ready ∧ (k'.scheduler.entries i).state = .active then
        [(k'.scheduler.entries i).invocation.key.invocationSequence]
      else []
  retired i :=
    journal.retired i ++
      if (k.scheduler.entries i).state = .active ∧ (k'.scheduler.entries i).state = .idle then
        [(k.scheduler.entries i).invocation.key.invocationSequence]
      else []

/-- A generation with its journal. -/
def Topology.journaled (T : Topology) {V : Type} (K : Kernels V) (policy : PolicyState) :
    System (State V × Journal) (Event V) where
  init s := (T.fabric K policy).init s.1 ∧ s.2 = ⟨fun _ => [], fun _ => [], fun _ => []⟩
  step s event t := (T.fabric K policy).step s.1 event t.1 ∧ t.2 = s.2.record s.1.control t.1.control

/-- The invocations enqueued so far. -/
def Journal.enqueuedCount (journal : Journal) (T : Topology) : Nat :=
  ∑ i ∈ Finset.range T.instanceCount, (journal.enqueued i).length

/-- The last sequence of an Instance that the Coordinator has scheduled. -/
def Control.scheduledSequence (k : Control) (i : Nat) : Nat :=
  (k.scheduler.entries i).completedSequence + if (k.scheduler.entries i).state = .active then 1 else 0

/-- The journal counts every Instance from one, without gaps or repetition. -/
structure Journal.Counts (journal : Journal) (k : Control) (i : Nat) : Prop where
  enqueued : journal.enqueued i = List.range' 1 (k.enqueuedSequence i)
  scheduled : journal.scheduled i = List.range' 1 (k.scheduledSequence i)
  retired : journal.retired i = List.range' 1 (k.scheduler.entries i).completedSequence

section Coordination

variable {T : Topology} {k k' : Control} {journal : Journal}

theorem range'_concat_next (n : Nat) : List.range' 1 n ++ [n + 1] = List.range' 1 (n + 1) := by
  rw [List.range'_1_concat, Nat.add_comm 1 n]

/-! ## Entries -/

/-- How one step moves the scheduler entries. -/
inductive EntryStep (k k' : Control) : Prop where
  | same (entries : k'.scheduler.entries = k.scheduler.entries)
  | enqueue (index ticket : Nat) (invocation : Invocation) (idle : (k.scheduler.entries index).state = .idle)
      (sequence : invocation.key.invocationSequence = (k.scheduler.entries index).completedSequence + 1)
      (entries :
        k'.scheduler.entries =
          Function.update k.scheduler.entries index
            { invocation := invocation
              completedSequence := (k.scheduler.entries index).completedSequence
              readyTicket := ticket
              executorLaneIndex := 0
              state := .ready })
  | schedule (index lane : Nat) (ready : (k.scheduler.entries index).state = .ready)
      (entries :
        k'.scheduler.entries =
          Function.update k.scheduler.entries index
            { k.scheduler.entries index with
              executorLaneIndex := lane
              state := .active })
  | release (index : Nat) (active : (k.scheduler.entries index).state = .active)
      (entries :
        k'.scheduler.entries =
          Function.update k.scheduler.entries index
            { invocation := default
              completedSequence := (k.scheduler.entries index).completedSequence + 1
              readyTicket := 0
              executorLaneIndex := 0
              state := .idle })

theorem ControlStep.entries (step : ControlStep T k k') (books : Books T k) : EntryStep k k' := by
  cases step with
  | same => exact .same rfl
  | deliver => exact .same rfl
  | atnagent i r _ _ effect => exact .same (by rw [effect.frame.scheduler])
  | lane p ℓ _ _ effect => exact .same (by rw [effect.frame.scheduler])
  | coordinator _ effect =>
    cases effect with
    | reschedule scheduler stands scheduled => exact .same (Scheduler.trySchedule_eq_none scheduled).2
    | enqueue index invocation scheduler ticket stands bound idle ready enqueued =>
      obtain ⟨-, -, -, -, sequence, entries⟩ := Scheduler.enqueue_eq_some enqueued
      have key := (inspectSubmissionRendezvous_ready ready).key
      rw [key] at sequence entries
      refine .enqueue index ticket invocation idle ?_ entries
      rw [key]
      exact sequence
    | release index decision scheduler active committed stands ready released =>
      obtain ⟨state, same, -⟩ := Scheduler.activeDecision_eq_some active
      obtain ⟨-, -, -, -, entries⟩ := Scheduler.release_eq_some released
      obtain ⟨key, -⟩ := (books.entry index).enqueued (by simp [state])
      rw [← same, key] at entries
      exact .release index state entries
    | schedule decision scheduler stands scheduled =>
      obtain ⟨-, ⟨impossible, -⟩ | ⟨index, bound, lane, free, state, unoccupied, made, entries⟩⟩ :=
        Scheduler.trySchedule_eq_some scheduled
      · cases impossible
      · exact .schedule index lane state entries
    | _ => exact .same rfl

theorem EntryStep.counts (step : EntryStep k k') (books : Books T k) {i : Nat} (counts : journal.Counts k i) :
    (journal.record k k').Counts k' i := by
  obtain ⟨enqueued, scheduled, retired⟩ := counts
  have still : k'.scheduler.entries i = k.scheduler.entries i → (journal.record k k').Counts k' i := by
    intro same
    constructor
    all_goals simp only [Journal.record, Control.enqueuedSequence, Control.scheduledSequence, same]
    · rw [enqueued, Control.enqueuedSequence]
      cases (k.scheduler.entries i).state <;> simp
    · rw [scheduled, Control.scheduledSequence]
      cases (k.scheduler.entries i).state <;> simp
    · rw [retired]
      cases (k.scheduler.entries i).state <;> simp
  cases step with
  | same entries => exact still (by rw [entries])
  | enqueue index ticket invocation idle sequence entries =>
    by_cases here : i = index
    · subst here
      constructor
      all_goals simp only [Journal.record, Control.enqueuedSequence, Control.scheduledSequence, entries,
        Function.update_self, idle]
      · rw [enqueued, Control.enqueuedSequence, idle, sequence]
        simp [range'_concat_next]
      · rw [scheduled, Control.scheduledSequence, idle]
        simp
      · rw [retired]
        simp
    · exact still (by rw [entries, Function.update_of_ne here])
  | schedule index lane ready entries =>
    by_cases here : i = index
    · subst here
      obtain ⟨key, -⟩ := (books.entry i).enqueued (by simp [ready])
      constructor
      all_goals simp only [Journal.record, Control.enqueuedSequence, Control.scheduledSequence, entries,
        Function.update_self, ready, key]
      · rw [enqueued, Control.enqueuedSequence, ready]
        simp
      · rw [scheduled, Control.scheduledSequence, ready]
        simp [range'_concat_next]
      · rw [retired]
        simp
    · exact still (by rw [entries, Function.update_of_ne here])
  | release index active entries =>
    by_cases here : i = index
    · subst here
      obtain ⟨key, -⟩ := (books.entry i).enqueued (by simp [active])
      constructor
      all_goals simp only [Journal.record, Control.enqueuedSequence, Control.scheduledSequence, entries,
        Function.update_self, active, key]
      · rw [enqueued, Control.enqueuedSequence, active]
        simp
      · rw [scheduled, Control.scheduledSequence, active]
        simp
      · rw [retired]
        simp [range'_concat_next]
    · exact still (by rw [entries, Function.update_of_ne here])

/-! ## Tallies -/

def Control.enqueuedTotal (k : Control) (T : Topology) : Nat :=
  ∑ i ∈ Finset.range T.instanceCount, k.enqueuedSequence i

def Control.scheduledTotal (k : Control) (T : Topology) : Nat :=
  ∑ i ∈ Finset.range T.instanceCount, k.scheduledSequence i

/-- Leases and tickets are not ahead of the invocations that they were given to. -/
structure Tallies (T : Topology) (k : Control) : Prop where
  lease : ∀ ℓ, k.leaseCount ℓ ≤ k.scheduledTotal T
  ticket :
    ∀ nextTicket, k.scheduler.policy = .fifo nextTicket → nextTicket ≤ k.enqueuedTotal T ∧ nextTicket < 2 ^ 64
  tickets :
    ∀ nextTicket, k.scheduler.policy = .fifo nextTicket →
      ∀ i, (k.scheduler.entries i).state = .ready → (k.scheduler.entries i).readyTicket ≤ nextTicket

/-- A sum changes by what one of its terms does. -/
theorem sum_range_replace {f g : Nat → Nat} {count index : Nat} (bound : index < count) (others : ∀ i ≠ index, g i = f i) :
    (∑ i ∈ Finset.range count, g i) + f index = (∑ i ∈ Finset.range count, f i) + g index := by
  have member : index ∈ Finset.range count := Finset.mem_range.mpr bound
  have rest : ∑ i ∈ (Finset.range count).erase index, g i = ∑ i ∈ (Finset.range count).erase index, f i :=
    Finset.sum_congr rfl fun i inRest => others i (Finset.ne_of_mem_erase inRest)
  have first := Finset.add_sum_erase (Finset.range count) g member
  have second := Finset.add_sum_erase (Finset.range count) f member
  omega

/-- What the replacement of one entry does to the totals. -/
theorem totals_replace {index : Nat} {entry : SchedulerEntry} (bound : index < T.instanceCount)
    (entries : k'.scheduler.entries = Function.update k.scheduler.entries index entry) :
    k'.enqueuedTotal T + k.enqueuedSequence index =
        k.enqueuedTotal T + (entry.completedSequence + if entry.state = .idle then 0 else 1) ∧
      k'.scheduledTotal T + k.scheduledSequence index =
        k.scheduledTotal T + (entry.completedSequence + if entry.state = .active then 1 else 0) := by
  have others : ∀ i ≠ index, k'.scheduler.entries i = k.scheduler.entries i :=
    fun i ne => by rw [entries, Function.update_of_ne ne]
  have own : k'.scheduler.entries index = entry := by rw [entries, Function.update_self]
  have enqueued := sum_range_replace (f := k.enqueuedSequence) (g := k'.enqueuedSequence) bound fun i ne => by
    simp [Control.enqueuedSequence, others i ne]
  have scheduled := sum_range_replace (f := k.scheduledSequence) (g := k'.scheduledSequence) bound fun i ne => by
    simp [Control.scheduledSequence, others i ne]
  constructor
  · rw [Control.enqueuedTotal, enqueued, Control.enqueuedTotal]
    simp only [Control.enqueuedSequence, own]
  · rw [Control.scheduledTotal, scheduled, Control.scheduledTotal]
    simp only [Control.scheduledSequence, own]

theorem totals_congr (entries : k'.scheduler.entries = k.scheduler.entries) :
    k'.enqueuedTotal T = k.enqueuedTotal T ∧ k'.scheduledTotal T = k.scheduledTotal T := by
  simp [Control.enqueuedTotal, Control.scheduledTotal, Control.enqueuedSequence, Control.scheduledSequence, entries]

theorem EntryStep.total_le (step : EntryStep k k') (books : Books T k) (books' : Books T k') :
    k.enqueuedTotal T ≤ k'.enqueuedTotal T := by
  cases step with
  | same entries => rw [(totals_congr entries).1]
  | enqueue index ticket invocation idle sequence entries =>
    have bound := (books'.entry index).bounded (by simp [entries])
    have total := (totals_replace bound entries).1
    simp [Control.enqueuedSequence, idle] at total
    omega
  | schedule index lane ready entries =>
    have bound := (books.entry index).bounded (by simp [ready])
    have total := (totals_replace bound entries).1
    simp [Control.enqueuedSequence, ready] at total
    omega
  | release index active entries =>
    have bound := (books.entry index).bounded (by simp [active])
    have total := (totals_replace bound entries).1
    simp [Control.enqueuedSequence, active] at total
    omega

theorem Tallies.congr (tallies : Tallies T k) (scheduler : k'.scheduler = k.scheduler) (leases : k'.leases = k.leases) :
    Tallies T k' := by
  obtain ⟨enqueued, scheduled⟩ : k'.enqueuedTotal T = k.enqueuedTotal T ∧ k'.scheduledTotal T = k.scheduledTotal T :=
    totals_congr (by rw [scheduler])
  refine ⟨fun ℓ => ?_, ?_, ?_⟩
  · rw [scheduled, Control.leaseCount, leases]
    exact tallies.lease ℓ
  · rw [enqueued, scheduler]
    exact tallies.ticket
  · rw [scheduler]
    exact tallies.tickets

theorem CoordinatorControl.tallies (effect : CoordinatorControl T k k') (books : Books T k) (tallies : Tallies T k) :
    Tallies T k' := by
  cases effect with
  | reschedule scheduler stands scheduled =>
    obtain ⟨-, entries⟩ := Scheduler.trySchedule_eq_none scheduled
    obtain ⟨enqueuedSame, scheduledSame⟩ :
        Control.enqueuedTotal { k with scheduler := scheduler, coordinator := .readFailure } T = k.enqueuedTotal T ∧
          Control.scheduledTotal { k with scheduler := scheduler, coordinator := .readFailure } T = k.scheduledTotal T :=
      totals_congr entries
    refine ⟨fun ℓ => ?_, fun nextTicket fifo => ?_, fun nextTicket fifo => ?_⟩
    · rw [scheduledSame]
      exact tallies.lease ℓ
    · rw [enqueuedSame]
      exact tallies.ticket nextTicket (Scheduler.trySchedule_fifo fifo scheduled)
    · simp only [entries]
      exact tallies.tickets nextTicket (Scheduler.trySchedule_fifo fifo scheduled)
  | enqueue index invocation scheduler ticket stands bound idle ready enqueued =>
    obtain ⟨-, -, -, -, -, entries⟩ := Scheduler.enqueue_eq_some enqueued
    rw [(inspectSubmissionRendezvous_ready ready).key] at entries
    dsimp only at entries
    obtain ⟨enqueuedTotal, scheduledTotal⟩ :=
      totals_replace (T := T) (k := k) bound
        (show ({ k with scheduler := scheduler, coordinator := .discover (index + 1) } : Control).scheduler.entries = _ from
          entries)
    simp [Control.enqueuedSequence, Control.scheduledSequence, idle] at enqueuedTotal scheduledTotal
    refine ⟨fun ℓ => ?_, fun nextTicket fifo => ?_, fun nextTicket fifo i isReady => ?_⟩
    · rw [scheduledTotal]
      exact tallies.lease ℓ
    · obtain ⟨before, policy, -, next, -⟩ := Scheduler.enqueue_fifo fifo enqueued
      have := (tallies.ticket before policy).1
      exact ⟨by omega, by omega⟩
    · obtain ⟨before, policy, same, next, unwrapped⟩ := Scheduler.enqueue_fifo fifo enqueued
      have small := (tallies.ticket before policy).2
      simp only [entries] at isReady ⊢
      by_cases here : i = index
      · subst here
        rw [Function.update_self]
        exact Nat.le_of_eq same
      · rw [Function.update_of_ne here] at isReady ⊢
        have := tallies.tickets before policy i isReady
        omega
  | release index decision scheduler active committed stands ready released =>
    obtain ⟨state, same, -⟩ := Scheduler.activeDecision_eq_some active
    obtain ⟨-, -, -, -, entries⟩ := Scheduler.release_eq_some released
    obtain ⟨key, -⟩ := (books.entry index).enqueued (by simp [state])
    rw [← same, key] at entries
    dsimp only at entries
    have bound := (books.entry index).bounded (by simp [state])
    obtain ⟨enqueuedTotal, scheduledTotal⟩ :=
      totals_replace (T := T) (k := k) bound
        (show ({ k with scheduler := scheduler, coordinator := .progress (index + 1) } : Control).scheduler.entries = _ from
          entries)
    simp [Control.enqueuedSequence, Control.scheduledSequence, state] at enqueuedTotal scheduledTotal
    refine ⟨fun ℓ => ?_, fun nextTicket fifo => ?_, fun nextTicket fifo i isReady => ?_⟩
    · rw [scheduledTotal]
      exact tallies.lease ℓ
    · rw [enqueuedTotal]
      exact tallies.ticket nextTicket ((Scheduler.release_policy released).symm.trans fifo)
    · simp only [entries] at isReady ⊢
      by_cases here : i = index
      · subst here
        simp at isReady
      · rw [Function.update_of_ne here] at isReady ⊢
        exact tallies.tickets nextTicket ((Scheduler.release_policy released).symm.trans fifo) i isReady
  | schedule decision scheduler stands scheduled =>
    obtain ⟨-, ⟨impossible, -⟩ | ⟨index, bound, lane, free, state, unoccupied, made, entries⟩⟩ :=
      Scheduler.trySchedule_eq_some scheduled
    · cases impossible
    obtain rfl := Option.some.inj made
    rw [books.instanceCount] at bound
    generalize eq : Function.update k.leases lane (k.leases lane ++ [(k.scheduler.entries index).invocation]) = leases
    obtain ⟨enqueuedTotal, scheduledTotal⟩ :=
      totals_replace (T := T) (k := k) bound
        (show
          ({ k with
              scheduler := scheduler
              coordinator := .writeAdmission (k.scheduler.entries index).invocation lane
              leases := leases } : Control).scheduler.entries = _ from entries)
    simp [Control.enqueuedSequence, Control.scheduledSequence, state] at enqueuedTotal scheduledTotal
    refine ⟨fun ℓ => ?_, fun nextTicket fifo => ?_, fun nextTicket fifo i isReady => ?_⟩
    · have before := tallies.lease ℓ
      have grown : (leases ℓ).length ≤ (k.leases ℓ).length + 1 := by
        rw [← eq]
        by_cases here : ℓ = lane
        · subst here
          rw [Function.update_self, List.length_append, List.length_singleton]
        · rw [Function.update_of_ne here]
          omega
      simp only [Control.leaseCount] at before ⊢
      omega
    · obtain ⟨behind, unwrapped⟩ := tallies.ticket nextTicket (Scheduler.trySchedule_fifo fifo scheduled)
      exact ⟨behind.trans (Nat.le_of_eq enqueuedTotal.symm), unwrapped⟩
    · simp only [entries] at isReady ⊢
      by_cases here : i = index
      · subst here
        simp at isReady
      · rw [Function.update_of_ne here] at isReady ⊢
        exact tallies.tickets nextTicket (Scheduler.trySchedule_fifo fifo scheduled) i isReady
  | _ => exact tallies.congr rfl rfl

theorem ControlStep.tallies (step : ControlStep T k k') (books : Books T k) (tallies : Tallies T k) : Tallies T k' := by
  cases step with
  | same => exact tallies
  | deliver => exact tallies.congr rfl rfl
  | atnagent i r _ _ effect => exact tallies.congr effect.frame.scheduler effect.frame.leases
  | lane p ℓ _ _ effect => exact tallies.congr effect.frame.scheduler effect.frame.leases
  | coordinator _ effect => exact effect.tallies books tallies

/-! ## Aborts -/

theorem Topology.counts_ne_zero (T : Topology) : T.instanceCount ≠ 0 ∧ T.executorLaneCount ≠ 0 := by
  have valid := T.valid
  simp only [ArenaProjection.validate, Bool.and_eq_true, decide_eq_true_eq] at valid
  obtain ⟨⟨⟨-, lanes⟩, instances⟩, -⟩ := valid
  exact ⟨fun empty => instances (List.length_eq_zero_iff.mp empty), lanes⟩

/-- The Coordinator runs, and a mismatch that it is about to publish names an
invocation. -/
structure Running (k : Control) : Prop where
  unaborted : k.coordinator ≠ .aborted
  mismatch : ∀ key layerOrdinal site, k.coordinator = .publishMismatch key layerOrdinal site → key.valid

theorem Running.plain (unaborted : k.coordinator ≠ .aborted)
    (named : ∀ key layerOrdinal site, k.coordinator ≠ .publishMismatch key layerOrdinal site) : Running k :=
  ⟨unaborted, fun key layerOrdinal site stands => absurd stands (named key layerOrdinal site)⟩

theorem Tallies.completed_lt (below : k.enqueuedTotal T < maxSequence) {i : Nat} (bound : i < T.instanceCount) :
    k.enqueuedSequence i < maxSequence := by
  have term : k.enqueuedSequence i ≤ k.enqueuedTotal T :=
    Finset.single_le_sum (f := k.enqueuedSequence) (fun _ _ => Nat.zero_le _) (Finset.mem_range.mpr bound)
  omega

/-- A mismatch names the awaited invocation and no more of it. -/
theorem inspectSubmissionRendezvous_mismatch {index expected : Nat} {invocation : Invocation}
    (mismatch : T.inspectSubmissionRendezvous k index expected = (.protocolMismatch, invocation)) :
    invocation = { (default : Invocation) with key := ⟨index, expected⟩ } := by
  simp only [Topology.inspectSubmissionRendezvous] at mismatch
  split at mismatch
  · cases mismatch
  split at mismatch
  · exact (Prod.mk.inj mismatch).2.symm
  split at mismatch
  · exact (Prod.mk.inj mismatch).2.symm
  split at mismatch
  · exact (Prod.mk.inj mismatch).2.symm
  next mode rows =>
  generalize
    (if mode = .prefill then (T.instanceEntry index).prefillPayloadRowCapacity
      else (T.instanceEntry index).decodePayloadRowCapacity) = profileCapacity at mismatch
  split at mismatch
  · exact (Prod.mk.inj mismatch).2.symm
  · cases mismatch

theorem inspectSubmissionRendezvous_key {index expected : Nat} {invocation : Invocation}
    (mismatch : T.inspectSubmissionRendezvous k index expected = (.protocolMismatch, invocation)) :
    invocation.key = ⟨index, expected⟩ := by
  rw [inspectSubmissionRendezvous_mismatch mismatch]

theorem Rendezvous.valid {index expected : Nat} {invocation : Invocation} (bound : index < T.instanceCount)
    (meets : Rendezvous T k index expected invocation) :
    invocation.payloadRows ≠ 0 ∧ invocation.outputRequirement.isValid := by
  have ranks : 0 < (T.atnagentPes index).length := List.length_pos_iff.mpr (Topology.atnagentPes_ne_nil bound)
  obtain ⟨valid, -, rows, requirement⟩ := meets.expected 0 ranks
  simp only [validateExpected, Bool.and_eq_true] at valid
  have valid := valid.1.2
  simp only [PublicationRecord.valid, Bool.and_eq_true, decide_eq_true_eq] at valid
  rw [← rows, ← requirement]
  exact ⟨valid.1.1.1.1.2, valid.1.2⟩

section Steps

variable {V : Type} {s t : State V}

theorem discoverStep_running (books : Books T s.control) (tallies : Tallies T s.control)
    (below : s.control.enqueuedTotal T < maxSequence) {index : Nat} (bound : index < T.instanceCount) :
    Running (T.discoverStep s index).control := by
  have sequence := Tallies.completed_lt below bound
  simp only [Topology.discoverStep]
  split
  · exact .plain (by simp [Topology.coordinatorGoto]) (by simp [Topology.coordinatorGoto])
  next resolved =>
  have idle : (s.control.scheduler.entries index).state = .idle := by
    simpa [Scheduler.hasUnresolvedInvocation] using resolved
  have committed := (books.entry index).idle idle
  simp only [Control.enqueuedSequence, idle, if_true, Nat.add_zero] at sequence
  split
  · next wrapped =>
    have : s.control.commitSequence T index = maxSequence := wrapped
    omega
  split
  · exact .plain (by simp [Topology.coordinatorGoto]) (by simp [Topology.coordinatorGoto])
  · next invocation mismatch =>
    refine ⟨by simp [Topology.coordinatorGoto], ?_⟩
    intro key layerOrdinal site stands
    obtain ⟨rfl, -, -⟩ := CoordinatorPc.publishMismatch.inj stands
    rw [inspectSubmissionRendezvous_key mismatch]
    simp [InvocationKey.valid]
  · next invocation ready =>
    have meets := inspectSubmissionRendezvous_ready ready
    have accepted : s.control.scheduler.enqueue invocation ≠ none := by
      apply Scheduler.enqueue_isSome
      · simp [Invocation.valid, InvocationKey.valid, meets.key, meets.valid bound]
      · rw [meets.key, books.instanceCount]
        exact bound
      · rw [meets.key]
        exact idle
      · rw [meets.key]
        exact Nat.ne_of_lt sequence
      · rw [meets.key]
        exact congrArg (· + 1) committed
      · intro nextTicket fifo
        have := (tallies.ticket nextTicket fifo).1
        unfold maxSequence at below
        omega
    split
    · next refused => exact absurd refused accepted
    · exact .plain (by simp [Topology.coordinatorGoto]) (by simp [Topology.coordinatorGoto])

theorem progressStep_running (books : Books T s.control) {index : Nat} (stands : s.control.coordinator = .progress index)
    : Running (T.progressStep s index).control := by
  simp only [Topology.progressStep]
  split
  · exact .plain (by simp [Topology.coordinatorGoto]) (by simp [Topology.coordinatorGoto])
  next invocation lane active =>
  obtain ⟨state, admitted, leased⟩ := Scheduler.activeDecision_eq_some active
  dsimp only at admitted leased
  have entry := books.entry index
  have bound := entry.bounded (by simp [state])
  obtain ⟨key, -⟩ := entry.enqueued (by simp [state])
  rw [admitted] at key
  have holds : s.control.scheduler.Holds invocation lane := by
    have holds := entry.holds state
    rwa [admitted, leased] at holds
  have named : invocation.key.valid := by simp [key, InvocationKey.valid]
  have mismatch : ∀ site, Running (Topology.coordinatorGoto s (.publishMismatch invocation.key invocation.layerOrdinal site)).control := by
    intro site
    refine ⟨by simp [Topology.coordinatorGoto], ?_⟩
    intro key' layerOrdinal site' stands'
    obtain ⟨rfl, -, -⟩ := CoordinatorPc.publishMismatch.inj stands'
    exact named
  split
  · split
    · next unleased =>
      have lease := books.settled (by simp [stands]) lane
      have granted := (books.granted holds).le
      have : s.control.leaseSequence T lane = 0 := unleased
      simp only [stands, CoordinatorPc.leasing] at lease
      simp at lease
      omega
    split
    · exact mismatch _
    · exact .plain (by simp [Topology.coordinatorGoto]) (by simp [Topology.coordinatorGoto])
    · exact .plain (by simp [Topology.coordinatorGoto]) (by simp [Topology.coordinatorGoto])
  · split
    · next zero => simp [key] at zero
    split
    · exact mismatch _
    · exact .plain (by simp [Topology.coordinatorGoto]) (by simp [Topology.coordinatorGoto])
    · split
      · next refused =>
        have accepted : s.control.scheduler.release invocation.key lane ≠ none := by
          obtain ⟨-, laneBound, -⟩ := entry.active state
          rw [leased] at laneBound
          have index' : invocation.key.instanceIndex = index := by rw [key]
          simp only [Scheduler.release, index', state, admitted, leased, books.instanceCount, books.executorLaneCount, named]
          rw [if_neg (by simp; omega)]
          simp
        exact absurd refused accepted
      · exact .plain (by simp [Topology.coordinatorGoto]) (by simp [Topology.coordinatorGoto])

theorem publishStep_running {slot : Slot} {rest : List Nat} {resume : List Nat → CoordinatorPc} {done : CoordinatorPc}
    (publishable : s.control.publishable T.coordinatorPe slot) (resumes : ∀ rest, (resume rest).plain = false)
    (finishes : done ≠ .aborted ∧ ∀ key layerOrdinal site, done ≠ .publishMismatch key layerOrdinal site) :
    Running (T.publishStep s slot rest resume done).control := by
  cases rest with
  | nil => exact .plain finishes.1 finishes.2
  | cons destination tail =>
    have resumed := resumes tail
    simp only [Topology.publishStep, publishable, if_true]
    refine .plain ?_ ?_
    · intro aborted
      change resume tail = .aborted at aborted
      simp [aborted, CoordinatorPc.plain] at resumed
    · intro key layerOrdinal site stands
      change resume tail = .publishMismatch key layerOrdinal site at stands
      simp [stands, CoordinatorPc.plain] at resumed

theorem Books.publishable_admission (books : Books T k) {invocation : Invocation} {lane lease : Nat} {rest : List Nat}
    (stands : k.coordinator = .publishAdmission invocation lane lease rest) :
    k.publishable T.coordinatorPe (.admission invocation.key.instanceIndex) := by
  have standing := books.standing
  rw [stands] at standing
  obtain ⟨holds, last, -, record, -⟩ := standing
  have sequence := books.sequence_of_holds holds
  have granted := (books.granted holds).le
  have named : invocation.key.invocationSequence ≠ 0 := by omega
  have leased : lease ≠ 0 := by omega
  simp [Control.publishable, record, publicationSequence, PublicationRecord.valid, InvocationKey.valid, named, leased]

theorem Books.publishable_laneExecution (books : Books T k) {invocation : Invocation} {lane : Nat} {rest : List Nat}
    (stands : k.coordinator = .publishLaneExecution invocation lane rest) :
    k.publishable T.coordinatorPe (.laneExecution lane) := by
  have standing := books.standing
  rw [stands] at standing
  obtain ⟨holds, record, -⟩ := standing
  have sequence := books.sequence_of_holds holds
  have granted := (books.granted holds).le
  obtain ⟨-, rows⟩ := (books.entry invocation.key.instanceIndex).enqueued (by simp [holds.state])
  rw [holds.admitted] at rows
  have named : invocation.key.invocationSequence ≠ 0 := by omega
  have leased : k.leaseCount lane ≠ 0 := by omega
  simp [Control.publishable, record, publicationSequence, PublicationRecord.valid, InvocationKey.valid,
    Invocation.execution, named, leased, rows]

theorem Books.publishable_commit (books : Books T k) {index : Nat} {rest : List Nat}
    (stands : k.coordinator = .publishCommit index rest) : k.publishable T.coordinatorPe (.outputCommit index) := by
  have standing := books.standing
  rw [stands] at standing
  have committed : (k.slots T.coordinatorPe (.outputCommit index)).record.key.invocationSequence ≠ 0 := standing
  simp [Control.publishable, publicationSequence, PublicationRecord.valid, InvocationKey.valid, committed]

theorem coordinatorStep_running (books : Books T s.control) (tallies : Tallies T s.control)
    (scheduledLe : s.control.scheduledTotal T ≤ s.control.enqueuedTotal T)
    (below : s.control.enqueuedTotal T < maxSequence) (running : Running s.control)
    (taken : T.coordinatorStep s = some t) : Running t.control := by
  simp only [Topology.coordinatorStep] at taken
  split at taken
  case h_1 =>
    split at taken <;> cases taken
    · exact .plain (by simp [Topology.coordinatorGoto]) (by simp [Topology.coordinatorGoto])
    · exact .plain (by simp [Topology.coordinatorGoto]) (by simp [Topology.coordinatorGoto])
  case h_2 =>
    cases taken
    refine .plain ?_ ?_
    all_goals
      simp only [Topology.coordinatorGoto]
      split <;> simp
  case h_3 index stands =>
    split at taken <;> cases taken
    · next bound => exact discoverStep_running books tallies below bound
    · exact .plain (by simp [Topology.coordinatorGoto]) (by simp [Topology.coordinatorGoto])
  case h_4 key layerOrdinal site stands =>
    have named := running.mismatch key layerOrdinal site stands
    simp only [Signals.admissible, named] at taken
    cases taken
    exact .plain (by simp [Topology.coordinatorGoto]) (by simp [Topology.coordinatorGoto])
  case h_5 site stands =>
    split at taken
    · cases taken
      exact .plain (by simp [Topology.coordinatorGoto]) (by simp [Topology.coordinatorGoto])
    · split at taken <;> cases taken
      · exact .plain (by simp [Topology.coordinatorGoto]) (by simp [Topology.coordinatorGoto])
      · exact .plain (by simp [Topology.coordinatorGoto]) (by simp [Topology.coordinatorGoto])
  case h_6 index stands =>
    split at taken <;> cases taken
    · exact progressStep_running books stands
    · exact .plain (by simp [Topology.coordinatorGoto]) (by simp [Topology.coordinatorGoto])
  case h_7 =>
    split at taken <;> cases taken
    · exact .plain (by simp [Topology.coordinatorGoto]) (by simp [Topology.coordinatorGoto])
    · exact .plain (by simp [Topology.coordinatorGoto]) (by simp [Topology.coordinatorGoto])
  case h_8 =>
    cases taken
    exact .plain (by simp [Topology.storeStep]) (by simp [Topology.storeStep])
  case h_9 index rest stands =>
    cases taken
    exact publishStep_running (books.publishable_commit stands) (fun _ => rfl) (by simp)
  case h_10 =>
    have scheduled : s.control.scheduler.trySchedule ≠ none := by
      apply Scheduler.trySchedule_isSome
      · rw [books.instanceCount]
        exact T.counts_ne_zero.1
      · rw [books.executorLaneCount]
        exact T.counts_ne_zero.2
      · intro nextTicket fifo index ready
        have := tallies.tickets nextTicket fifo index ready
        have := (tallies.ticket nextTicket fifo).1
        omega
    split at taken
    · next refused => exact absurd refused scheduled
    · cases taken
      exact .plain (by simp [Topology.coordinatorGoto]) (by simp [Topology.coordinatorGoto])
    · cases taken
      exact .plain (by simp) (by simp)
  case h_11 invocation lane stands =>
    split at taken
    · next wrapped =>
      have lease := (books.lease lane).1
      have scheduled := tallies.lease lane
      have : s.control.leaseSequence T lane = maxSequence := wrapped
      omega
    · cases taken
      exact .plain (by simp [Topology.storeStep]) (by simp [Topology.storeStep])
  case h_12 invocation lane lease rest stands =>
    cases taken
    exact publishStep_running (books.publishable_admission stands) (fun _ => rfl) (by simp)
  case h_13 =>
    cases taken
    exact .plain (by simp [Topology.storeStep]) (by simp [Topology.storeStep])
  case h_14 invocation lane rest stands =>
    cases taken
    exact publishStep_running (books.publishable_laneExecution stands) (fun _ => rfl) (by simp)
  case h_15 =>
    cases taken
    exact .plain (by simp [Topology.coordinatorGoto]) (by simp [Topology.coordinatorGoto])
  case h_16 =>
    cases taken
    exact .plain (by simp [Topology.coordinatorGoto]) (by simp [Topology.coordinatorGoto])
  case h_17 => cases taken
  case h_18 => cases taken

end Steps

/-! ## Runs -/

/-- `Scheduler::from` starts the tickets at zero. -/
def PolicyState.fresh : PolicyState → Bool
  | fifo nextTicket => nextTicket = 0
  | random _ => true

/-- Only the Coordinator moves the Coordinator. -/
theorem next_coordinator {V : Type} {K : Kernels V} {s t : State V} {event : Event V} (taken : T.next K s event = some t) :
    T.coordinatorStep s = some t ∨ t.control.coordinator = s.control.coordinator := by
  cases event with
  | coordinator => exact .inl taken
  | atnagent i r move =>
    simp only [Topology.next] at taken
    split at taken
    · exact .inr (atnAgentMove_taken taken).control.frame.coordinator
    · cases taken
  | lane p ℓ move =>
    simp only [Topology.next] at taken
    split at taken
    · exact .inr (laneMove_taken taken).control.frame.coordinator
    · cases taken
  | publication destination slot delivery =>
    obtain ⟨⟨channel, written⟩, -, rfl⟩ := Option.map_eq_some_iff.mp taken
    exact .inr rfl
  | payload destination slot delivery =>
    obtain ⟨⟨channel, written⟩, -, rfl⟩ := Option.map_eq_some_iff.mp taken
    cases written <;> exact .inr rfl
  | failure destination delivery =>
    obtain ⟨⟨channel, written⟩, -, rfl⟩ := Option.map_eq_some_iff.mp taken
    exact .inr rfl
  | put pe lane index move =>
    simp only [Topology.next, Topology.putStep] at taken
    split at taken
    · split at taken
      · cases taken
        exact .inr rfl
      · cases taken
    · obtain ⟨value, -, rfl⟩ := Option.map_eq_some_iff.mp taken
      exact .inr rfl
    · cases taken
  | shutdown pe =>
    cases taken
    exact .inr rfl

theorem Control.scheduledTotal_le (k : Control) (T : Topology) : k.scheduledTotal T ≤ k.enqueuedTotal T := by
  apply Finset.sum_le_sum
  intro i _
  simp only [Control.scheduledSequence, Control.enqueuedSequence]
  cases (k.scheduler.entries i).state <;> simp

section Reachable

variable {V : Type} {K : Kernels V} {policy : PolicyState} {s : State V}

theorem reachable_tallies (fresh : policy.fresh) (reached : (T.fabric K policy).Reachable s) : Tallies T s.control := by
  apply System.ReachableUnder.invariant ?_ ?_ reached
  · rintro s ⟨memory, rfl⟩
    refine ⟨fun ℓ => Nat.zero_le _, ?_, ?_⟩
    · rintro nextTicket fifo
      change policy = .fifo nextTicket at fifo
      simp only [fifo, PolicyState.fresh, decide_eq_true_eq] at fresh
      omega
    · rintro nextTicket - i ready
      cases ready
  · intro s event t reached tallies _ taken
    exact (next_control taken).tallies (reachable_books reached) tallies

theorem reachable_running (fresh : policy.fresh) (reached : (T.fabric K policy).Reachable s) :
    s.control.enqueuedTotal T < maxSequence → Running s.control := by
  apply System.ReachableUnder.invariant ?_ ?_ reached
  · rintro s ⟨memory, rfl⟩ -
    exact .plain (by simp [Topology.create]) (by simp [Topology.create])
  · intro s event t reached ih _ taken below
    have books := reachable_books reached
    have books' := reachable_books (System.Reachable.step reached taken)
    have grown := ((next_control taken).entries books).total_le books books'
    have running := ih (by omega)
    rcases next_coordinator taken with moved | same
    · exact coordinatorStep_running books (reachable_tallies fresh reached) (s.control.scheduledTotal_le T) (by omega)
        running moved
    · obtain ⟨unaborted, mismatch⟩ := running
      rw [← same] at unaborted mismatch
      exact ⟨unaborted, mismatch⟩

/-- A run with a journal is a run. -/
theorem journaled_reachable {journal : Journal} (reached : (T.journaled K policy).Reachable (s, journal)) :
    (T.fabric K policy).Reachable s := by
  have first : ∀ state : State V × Journal, (T.journaled K policy).Reachable state → (T.fabric K policy).Reachable state.1 := by
    intro state reached
    induction reached with
    | start init => exact .start init.1
    | next _ _ taken ih => exact ih.step taken.1
  exact first _ reached

theorem journaled_counts {journal : Journal} (reached : (T.journaled K policy).Reachable (s, journal)) (i : Nat) :
    journal.Counts s.control i := by
  have counts : ∀ state : State V × Journal, (T.journaled K policy).Reachable state → state.2.Counts state.1.control i := by
    intro state reached
    apply System.ReachableUnder.invariant ?_ ?_ reached
    · rintro ⟨s, journal⟩ ⟨⟨memory, rfl⟩, rfl⟩
      exact ⟨rfl, rfl, rfl⟩
    · rintro ⟨s, journal⟩ event ⟨t, journal'⟩ reached counts _ ⟨taken, recorded⟩
      have books := reachable_books (journaled_reachable reached)
      dsimp only at recorded taken counts ⊢
      rw [recorded]
      exact ((next_control taken).entries books).counts books counts
  exact counts _ reached

theorem Journal.enqueuedCount_eq {journal : Journal} {k : Control} (counts : ∀ i, journal.Counts k i) :
    journal.enqueuedCount T = k.enqueuedTotal T := by
  simp only [Journal.enqueuedCount, Control.enqueuedTotal]
  apply Finset.sum_congr rfl
  intro i _
  rw [(counts i).enqueued, List.length_range']

/-- What the Coordinator, its scheduler and the submitters agree on. -/
structure Coordinated (T : Topology) (k : Control) (journal : Journal) : Prop where
  exclusive :
    ∀ i j, (k.scheduler.entries i).state = .active → (k.scheduler.entries j).state = .active →
      (k.scheduler.entries i).executorLaneIndex = (k.scheduler.entries j).executorLaneIndex → i = j
  idle :
    ∀ i, (k.scheduler.entries i).state = .idle →
      k.commitSequence T i = (k.scheduler.entries i).completedSequence ∧
        (k.commitSequence T i ≠ 0 →
          (k.slots T.coordinatorPe (.outputCommit i)).record.key = ⟨i, (k.scheduler.entries i).completedSequence⟩)
  counts : ∀ i, journal.Counts k i
  order :
    ∀ i, (k.scheduler.entries i).completedSequence ≤ k.scheduledSequence i ∧
      k.scheduledSequence i ≤ k.enqueuedSequence i ∧
      k.enqueuedSequence i ≤ (k.scheduler.entries i).completedSequence + 1
  submissions :
    ∀ i r, T.isRank i r →
      (∀ (n : Nat) (record : Submission), (k.submissions i r)[n]? = some record → record.key = ⟨i, n + 1⟩) ∧
        k.enqueuedSequence i ≤ (k.submissions i r).length ∧ (k.submissions i r).length ≤ k.enqueuedSequence i + 1
  enqueued : ∀ i, (k.scheduler.entries i).state ≠ .idle → Submitted T k (k.scheduler.entries i).invocation
  running : k.coordinator ≠ .aborted

/-- Every submission is enqueued, scheduled and retired once and in order, and
until the sequences are exhausted the Coordinator never aborts. -/
theorem coordinator_consistent {journal : Journal} (fresh : policy.fresh)
    (reached : (T.journaled K policy).Reachable (s, journal)) (below : journal.enqueuedCount T < 2 ^ 64 - 1) :
    Coordinated T s.control journal := by
  have run := journaled_reachable reached
  have books := reachable_books run
  have admissions := reachable_admissions run
  have counts := journaled_counts reached
  rw [Journal.enqueuedCount_eq counts] at below
  have running := reachable_running fresh run below
  refine ⟨books.exclusive, ?_, counts, ?_, ?_, admissions.entry, running.unaborted⟩
  · intro i idle
    have committed := (books.entry i).idle idle
    refine ⟨committed, fun nonzero => ?_⟩
    have index := (books.entry i).keyed nonzero
    rw [← committed]
    exact congrArg₂ InvocationKey.mk index rfl
  · intro i
    simp only [Control.scheduledSequence, Control.enqueuedSequence]
    cases (s.control.scheduler.entries i).state <;> simp
  · intro i r rank
    have ledger := reachable_ledger run rank
    have book := admissions.rank i r rank
    have acknowledged := book.acknowledged
    have committed := books.commit_le i
    have behind := ledger.behind
    exact ⟨ledger.numbered, book.enqueued, by omega⟩

end Reachable

/-- The first request of a rank has been enqueued. -/
theorem coordinator_consistent_enqueued :
    ∃ (s : State Nat) (journal : Journal),
      (solo.journaled soloKernels (.fifo 0)).Reachable (s, journal) ∧ journal.enqueued 0 = [1] ∧
        Coordinated solo s.control journal := by
  let start : State Nat × Journal :=
    (solo.create soloKernels (.fifo 0) fun _ _ _ _ => 0, ⟨fun _ => [], fun _ => [], fun _ => []⟩)
  let next (s : State Nat × Journal) (event : Event Nat) : Option (State Nat × Journal) :=
    (solo.next soloKernels s.1 event).map fun t => (t, s.2.record s.1.control t.control)
  have agrees : ∀ s event t, next s event = some t → True ∧ (solo.journaled soloKernels (.fifo 0)).step s event t := by
    intro s event t taken
    obtain ⟨after, stepped, rfl⟩ := Option.map_eq_some_iff.mp taken
    exact ⟨trivial, stepped, rfl⟩
  have starts : (solo.journaled soloKernels (.fifo 0)).Reachable start := .start ⟨⟨_, rfl⟩, rfl⟩
  obtain ⟨⟨s, journal⟩, reached, enqueued⟩ :=
    System.ReachableUnder.run next agrees starts
      (soloSubmits ++
        [ .publication 1 (.submission 0 0) (.land 0), .publication 1 (.submission 0 0) (.signal 0), .coordinator,
          .coordinator, .coordinator ])
      (fun s => s.2.enqueued 0 = [1]) (by decide +kernel)
  have enqueued : journal.enqueued 0 = [1] := by simpa using enqueued
  have count : journal.enqueuedCount solo < 2 ^ 64 - 1 := by
    have single : solo.instanceCount = 1 := rfl
    simp [Journal.enqueuedCount, single, enqueued]
  exact ⟨s, journal, reached, enqueued, coordinator_consistent (by decide) reached count⟩

end Coordination

end CrossPool.Fabric
