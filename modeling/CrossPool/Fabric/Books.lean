import CrossPool.Fabric.Ledger

/-!
# The Coordinator's books

The Coordinator keeps one invocation in several places: the scheduler entry of
its Instance, the commit record, the lease record of its lane and, while a lease
is being published, the program counter. `Books` says how they agree after each
of its steps; nobody else's step touches any of them.
-/

namespace CrossPool.Fabric

open CrossPool.Lib

/-! ## Records -/

/-- The lane record of an invocation under a lease. -/
def Invocation.execution (invocation : Invocation) (lease : Nat) : LaneExecution :=
  ⟨invocation.key, lease, invocation.layerOrdinal, invocation.payloadRows, invocation.outputRequirement⟩

namespace Control

/-- The last committed sequence of an Instance. -/
def commitSequence (k : Control) (T : Topology) (instanceIndex : Nat) : Nat :=
  (k.slots T.coordinatorPe (.outputCommit instanceIndex)).record.key.invocationSequence

/-- The last lease of a lane that is on record. -/
def leaseSequence (k : Control) (T : Topology) (lane : Nat) : Nat :=
  (k.slots T.coordinatorPe (.laneExecution lane)).record.executorLeaseSequence

/-- The leases of a lane so far. -/
def leaseCount (k : Control) (lane : Nat) : Nat :=
  (k.leases lane).length

/-- The lane was leased under this number to the invocation. -/
def Granted (k : Control) (lane lease : Nat) (invocation : Invocation) : Prop :=
  lease ≠ 0 ∧ (k.leases lane)[lease - 1]? = some invocation

end Control

/-- The invocation is Active on the lane. -/
structure Scheduler.Holds (scheduler : Scheduler) (invocation : Invocation) (lane : Nat) : Prop where
  state : (scheduler.entries invocation.key.instanceIndex).state = .active
  admitted : (scheduler.entries invocation.key.instanceIndex).invocation = invocation
  lane : (scheduler.entries invocation.key.instanceIndex).executorLaneIndex = lane

/-- What the Coordinator relies on where it stands. -/
def Standing (T : Topology) (k : Control) : CoordinatorPc → Prop
  | .readCommitFailure index =>
    (k.scheduler.entries index).state = .active ∧ k.commitSequence T index = (k.scheduler.entries index).completedSequence
  | .writeCommit index =>
    (k.scheduler.entries index).state = .active ∧ k.commitSequence T index = (k.scheduler.entries index).completedSequence
  | .publishCommit index _ => k.commitSequence T index ≠ 0
  | .writeAdmission invocation lane => k.scheduler.Holds invocation lane
  | .publishAdmission invocation lane lease rest =>
    k.scheduler.Holds invocation lane ∧ lease = k.leaseCount lane ∧ lease ≤ maxSequence ∧
      (k.slots T.coordinatorPe (.admission invocation.key.instanceIndex)).record = ⟨invocation.key, lane, lease⟩ ∧
      rest <:+ T.atnagentPes invocation.key.instanceIndex
  | .writeLaneExecution invocation lane lease =>
    k.scheduler.Holds invocation lane ∧ lease = k.leaseCount lane ∧ lease ≤ maxSequence
  | .publishLaneExecution invocation lane rest =>
    k.scheduler.Holds invocation lane ∧
      (k.slots T.coordinatorPe (.laneExecution lane)).record = invocation.execution (k.leaseCount lane) ∧
      rest <:+ T.group invocation
  | _ => True

/-- How one scheduler entry agrees with the commit record and the leases. -/
structure EntryBook (T : Topology) (k : Control) (i : Nat) : Prop where
  bounded : (k.scheduler.entries i).state ≠ .idle → i < T.instanceCount
  keyed :
    k.commitSequence T i ≠ 0 → (k.slots T.coordinatorPe (.outputCommit i)).record.key.instanceIndex = i
  idle : (k.scheduler.entries i).state = .idle → k.commitSequence T i = (k.scheduler.entries i).completedSequence
  enqueued :
    (k.scheduler.entries i).state ≠ .idle →
      (k.scheduler.entries i).invocation.key = ⟨i, (k.scheduler.entries i).completedSequence + 1⟩ ∧
        (k.scheduler.entries i).invocation.payloadRows ≠ 0 ∧
        (k.scheduler.entries i).invocation.outputRequirement.isValid
  ready : (k.scheduler.entries i).state = .ready → k.commitSequence T i = (k.scheduler.entries i).completedSequence
  active :
    (k.scheduler.entries i).state = .active →
      (k.commitSequence T i = (k.scheduler.entries i).completedSequence ∨
        k.commitSequence T i = (k.scheduler.entries i).completedSequence + 1) ∧
      (k.scheduler.entries i).executorLaneIndex < T.executorLaneCount ∧
      (k.leases (k.scheduler.entries i).executorLaneIndex).getLast? = some (k.scheduler.entries i).invocation

structure Books (T : Topology) (k : Control) : Prop where
  instanceCount : k.scheduler.instanceCount = T.instanceCount
  executorLaneCount : k.scheduler.executorLaneCount = T.executorLaneCount
  entry : ∀ i, EntryBook T k i
  exclusive :
    ∀ i j, (k.scheduler.entries i).state = .active → (k.scheduler.entries j).state = .active →
      (k.scheduler.entries i).executorLaneIndex = (k.scheduler.entries j).executorLaneIndex → i = j
  lease : ∀ ℓ, k.leaseSequence T ℓ ≤ k.leaseCount ℓ ∧ k.leaseCount ℓ ≤ k.leaseSequence T ℓ + 1
  sequence : ∀ ℓ, k.leaseSequence T ℓ ≤ maxSequence
  settled :
    k.coordinator ≠ .aborted →
      ∀ ℓ, k.leaseSequence T ℓ + (if k.coordinator.leasing = some ℓ then 1 else 0) = k.leaseCount ℓ
  standing : Standing T k k.coordinator

section Books

variable {T : Topology} {k k' : Control} {i ℓ L : Nat} {invocation : Invocation}

/-! ## Reading the books -/

theorem EntryBook.holds (entry : EntryBook T k i) (state : (k.scheduler.entries i).state = .active) :
    k.scheduler.Holds (k.scheduler.entries i).invocation (k.scheduler.entries i).executorLaneIndex := by
  obtain ⟨key, -⟩ := entry.enqueued (by simp [state])
  refine ⟨?_, ?_, ?_⟩
  all_goals simp [key, state]

theorem Control.Granted.le (granted : k.Granted ℓ L invocation) : 1 ≤ L ∧ L ≤ k.leaseCount ℓ := by
  obtain ⟨nonzero, found⟩ := granted
  have bound := (List.getElem?_eq_some_iff.mp found).1
  unfold Control.leaseCount
  omega

theorem Control.Granted.unique {invocation' : Invocation} (granted : k.Granted ℓ L invocation)
    (granted' : k.Granted ℓ L invocation') : invocation = invocation' :=
  Option.some.inj (granted.2.symm.trans granted'.2)

theorem Control.granted_last (last : (k.leases ℓ).getLast? = some invocation) :
    k.Granted ℓ (k.leaseCount ℓ) invocation := by
  rw [List.getLast?_eq_getElem?] at last
  refine ⟨?_, last⟩
  have bound := (List.getElem?_eq_some_iff.mp last).1
  unfold Control.leaseCount
  omega

theorem Books.granted (books : Books T k) (active : k.scheduler.Holds invocation ℓ) : k.Granted ℓ (k.leaseCount ℓ) invocation := by
  obtain ⟨-, -, last⟩ := (books.entry _).active active.state
  rw [active.admitted, active.lane] at last
  exact Control.granted_last last

theorem Books.active_unique (books : Books T k) {invocation' : Invocation} (active : k.scheduler.Holds invocation ℓ)
    (active' : k.scheduler.Holds invocation' ℓ) : invocation = invocation' :=
  (books.granted active).unique (books.granted active')

/-- Committed means that the record carries the key. -/
theorem Books.committed_iff (books : Books T k) (state : (k.scheduler.entries i).state = .active) :
    (k.slots T.coordinatorPe (.outputCommit i)).record.key = (k.scheduler.entries i).invocation.key ↔
      k.commitSequence T i = (k.scheduler.entries i).completedSequence + 1 := by
  have entry := books.entry i
  obtain ⟨key, -⟩ := entry.enqueued (by simp [state])
  rw [key]
  constructor
  · intro same
    simp [Control.commitSequence, same]
  · intro committed
    have index := entry.keyed (by omega)
    rw [Control.commitSequence] at committed
    generalize (k.slots T.coordinatorPe (.outputCommit i)).record.key = commit at index committed ⊢
    obtain ⟨_, _⟩ := commit
    simp_all

/-! ## Frame -/

/-- The books are the Coordinator's own. -/
theorem Books.frame (books : Books T k) (scheduler : k'.scheduler = k.scheduler) (coordinator : k'.coordinator = k.coordinator)
    (leases : k'.leases = k.leases)
    (records :
      ∀ slot : Slot, slot.coordinated → (k'.slots T.coordinatorPe slot).record = (k.slots T.coordinatorPe slot).record) :
    Books T k' := by
  have commits : ∀ i, k'.commitSequence T i = k.commitSequence T i := by
    intro i
    simp only [Control.commitSequence]
    rw [records (.outputCommit i) rfl]
  have sequences : ∀ ℓ, k'.leaseSequence T ℓ = k.leaseSequence T ℓ := by
    intro ℓ
    simp only [Control.leaseSequence]
    rw [records (.laneExecution ℓ) rfl]
  have counts : ∀ ℓ, k'.leaseCount ℓ = k.leaseCount ℓ := by
    intro ℓ
    simp only [Control.leaseCount, leases]
  have actives : ∀ invocation ℓ, k.scheduler.Holds invocation ℓ → k'.scheduler.Holds invocation ℓ := by
    rw [scheduler]
    exact fun _ _ => id
  constructor
  · rw [scheduler]
    exact books.instanceCount
  · rw [scheduler]
    exact books.executorLaneCount
  · intro i
    obtain ⟨bounded, keyed, idle, enqueued, ready, active⟩ := books.entry i
    exact
      ⟨by rwa [scheduler], by rw [commits, records (.outputCommit i) rfl]; exact keyed, by rwa [scheduler, commits],
        by rwa [scheduler], by rwa [scheduler, commits], by rwa [scheduler, commits, leases]⟩
  · rw [scheduler]
    exact books.exclusive
  · intro ℓ
    rw [sequences, counts]
    exact books.lease ℓ
  · intro ℓ
    rw [sequences]
    exact books.sequence ℓ
  · intro running ℓ
    rw [coordinator] at running ⊢
    rw [sequences, counts]
    exact books.settled running ℓ
  · have standing := books.standing
    rw [coordinator]
    cases stands : k.coordinator with
    | readCommitFailure index =>
      rw [stands] at standing
      simpa only [Standing, scheduler, commits] using standing
    | writeCommit index =>
      rw [stands] at standing
      simpa only [Standing, scheduler, commits] using standing
    | publishCommit index rest =>
      rw [stands] at standing
      simpa only [Standing, commits] using standing
    | writeAdmission invocation lane =>
      rw [stands] at standing
      exact actives _ _ standing
    | publishAdmission invocation lane lease rest =>
      rw [stands] at standing
      obtain ⟨active, last, bound, record, suffix⟩ := standing
      exact ⟨actives _ _ active, by rwa [counts], bound, by rw [records _ rfl]; exact record, suffix⟩
    | writeLaneExecution invocation lane lease =>
      rw [stands] at standing
      obtain ⟨active, last, bound⟩ := standing
      exact ⟨actives _ _ active, by rwa [counts], bound⟩
    | publishLaneExecution invocation lane rest =>
      rw [stands] at standing
      obtain ⟨active, record, suffix⟩ := standing
      exact ⟨actives _ _ active, by rw [counts, records _ rfl]; exact record, suffix⟩
    | _ => trivial

/-- The Coordinator moves without writing. -/
theorem Books.goto (books : Books T k) (pc : CoordinatorPc)
    (settled : (k.coordinator ≠ .aborted ∧ k.coordinator.leasing = pc.leasing) ∨ pc = .aborted) (standing : Standing T k pc) :
    Books T { k with coordinator := pc } := by
  refine ⟨books.instanceCount, books.executorLaneCount, fun i => ?_, books.exclusive, books.lease, books.sequence, ?_, ?_⟩
  · obtain ⟨bounded, keyed, idle, enqueued, ready, active⟩ := books.entry i
    exact ⟨bounded, keyed, idle, enqueued, ready, active⟩
  · intro running
    rcases settled with ⟨ran, same⟩ | aborted
    · have before := books.settled ran
      rw [same] at before
      exact before
    · exact absurd aborted running
  · cases pc <;> exact standing

theorem Standing.plain {pc : CoordinatorPc} (plain : pc.plain) : Standing T k pc := by
  cases pc <;> trivial

theorem CoordinatorPc.plain_leasing {pc : CoordinatorPc} (plain : pc.plain) : pc.leasing = none := by
  cases pc <;> first | rfl | cases plain

/-! ## Submission rendezvous -/

/-- What a Ready rendezvous says about the submissions it looked at. -/
structure Rendezvous (T : Topology) (k : Control) (index expected : Nat) (invocation : Invocation) : Prop where
  key : invocation.key = ⟨index, expected⟩
  reached : ∀ r < (T.atnagentPes index).length, expected ≤ (T.submissionAt k index r).sequence
  expected :
    ∀ r < (T.atnagentPes index).length,
      validateExpected (T.submissionAt k index r) expected ⟨index, expected⟩ ∧
        (T.submissionAt k index r).record.layerOrdinal = invocation.layerOrdinal ∧
        (T.submissionAt k index r).record.payloadRows = invocation.payloadRows ∧
        (T.submissionAt k index r).record.outputRequirement = invocation.outputRequirement
  layer : invocation.layerOrdinal < (T.instanceEntry index).layers.length
  requirement : invocation.outputRequirement = .groupSumComplete → (T.instanceEntry index).groupSumCompleteAdmitted
  rows :
    invocation.payloadRows ≤ (T.instanceEntry index).prefillPayloadRowCapacity ∨
      invocation.payloadRows ≤ (T.instanceEntry index).decodePayloadRowCapacity

theorem inspectSubmissionRendezvous_ready {index expected : Nat}
    (ready : T.inspectSubmissionRendezvous k index expected = (.ready, invocation)) :
    Rendezvous T k index expected invocation := by
  simp only [Topology.inspectSubmissionRendezvous] at ready
  split at ready
  · cases ready
  next reached =>
  split at ready
  · cases ready
  next agree =>
  split at ready
  · cases ready
  next admitted =>
  split at ready
  · cases ready
  next mode rows =>
  generalize capacity :
    (if mode = .prefill then (T.instanceEntry index).prefillPayloadRowCapacity
      else (T.instanceEntry index).decodePayloadRowCapacity) = profileCapacity at ready
  split at ready
  · cases ready
  next fits =>
  obtain ⟨-, rfl⟩ := Prod.mk.inj ready
  simp only [List.any_eq_true, List.mem_range, decide_eq_true_eq, not_exists, not_and, not_lt] at reached
  simp only [Topology.submissionsAgree, Bool.not_eq_true', Bool.not_eq_false, List.all_eq_true, List.mem_range,
    Bool.and_eq_true, decide_eq_true_eq] at agree
  simp only [not_or, not_le, not_and, Bool.not_eq_true', Bool.not_eq_false, not_lt] at admitted fits
  refine ⟨rfl, reached, ?_, admitted.1, admitted.2, ?_⟩
  · intro r bound
    obtain ⟨⟨⟨⟨valid, layer⟩, rows⟩, requirement⟩, -⟩ := agree r bound
    exact ⟨valid, layer, rows, requirement⟩
  · rw [← capacity] at fits
    split at fits
    · exact .inl fits.1
    · exact .inr fits.1

/-! ## Steps -/

/-- Replacing one entry that is not the lane's holder leaves every other alone. -/
theorem Books.setEntry (books : Books T k) {index : Nat} {scheduler : Scheduler} {entry : SchedulerEntry} {pc : CoordinatorPc}
    (shape : Scheduler.SameShape k.scheduler scheduler)
    (entries : scheduler.entries = Function.update k.scheduler.entries index entry)
    (running : k.coordinator ≠ .aborted) (leasing : k.coordinator.leasing = none) (plain : pc.plain)
    (inactive : entry.state ≠ .active)
    (book : EntryBook T { k with scheduler := scheduler, coordinator := pc } index) :
    Books T { k with scheduler := scheduler, coordinator := pc } := by
  have others : ∀ i, i ≠ index → scheduler.entries i = k.scheduler.entries i := by
    intro i ne
    rw [entries, Function.update_of_ne ne]
  have own : scheduler.entries index = entry := by rw [entries, Function.update_self]
  refine ⟨shape.instanceCount.trans books.instanceCount, shape.executorLaneCount.trans books.executorLaneCount, ?_, ?_,
    books.lease, books.sequence, ?_, Standing.plain plain⟩
  · intro i
    by_cases same : i = index
    · subst same
      exact book
    · obtain ⟨bounded, keyed, idle, enqueued, ready, active⟩ := books.entry i
      refine ⟨?_, keyed, ?_, ?_, ?_, ?_⟩
      all_goals simp only [others i same]
      · exact bounded
      · exact idle
      · exact enqueued
      · exact ready
      · exact active
  · intro i j first second
    have ne : ∀ i, (scheduler.entries i).state = .active → i ≠ index := by
      rintro i active rfl
      rw [own] at active
      exact inactive active
    simp only [others i (ne i first), others j (ne j second)] at first second ⊢
    exact books.exclusive i j first second
  · intro _ ℓ
    have before := books.settled running ℓ
    rw [leasing] at before
    show k.leaseSequence T ℓ + (if pc.leasing = some ℓ then 1 else 0) = k.leaseCount ℓ
    rw [CoordinatorPc.plain_leasing plain]
    exact before

theorem Books.enqueue (books : Books T k) {index ticket : Nat} {scheduler : Scheduler}
    (stands : k.coordinator = .discover index)
    (meets : Rendezvous T k index (k.commitSequence T index + 1) invocation)
    (enqueued : k.scheduler.enqueue invocation = some (scheduler, ticket)) :
    Books T { k with scheduler := scheduler, coordinator := .discover (index + 1) } := by
  obtain ⟨shape, valid, bound, idle, sequence, entries⟩ := Scheduler.enqueue_eq_some enqueued
  have key := meets.key
  rw [key] at bound idle sequence entries
  dsimp only at bound idle sequence entries
  rw [books.instanceCount] at bound
  have entry := books.entry index
  have rows : invocation.payloadRows ≠ 0 ∧ invocation.outputRequirement.isValid := by
    simp only [Invocation.valid, Bool.and_eq_true, decide_eq_true_eq] at valid
    exact ⟨valid.1.2, valid.2⟩
  apply books.setEntry shape entries (by simp [stands]) (by simp [stands, CoordinatorPc.leasing]) rfl (by simp)
  have own := congrFun entries index
  rw [Function.update_self] at own
  refine ⟨fun _ => bound, entry.keyed, ?_, ?_, ?_, ?_⟩
  all_goals simp only [own]
  · simp
  · intro _
    exact ⟨by rw [key, sequence], rows⟩
  · intro _
    exact entry.idle idle
  · simp

theorem Books.release (books : Books T k) {index : Nat} {decision : Decision} {scheduler : Scheduler}
    (active : k.scheduler.activeDecision index = some decision)
    (committed : (k.slots T.coordinatorPe (.outputCommit index)).record.key = decision.invocation.key)
    (stands : k.coordinator = .progress index)
    (released : k.scheduler.release decision.invocation.key decision.executorLaneIndex = some scheduler) :
    Books T { k with scheduler := scheduler, coordinator := .progress (index + 1) } := by
  obtain ⟨state, same, -⟩ := Scheduler.activeDecision_eq_some active
  obtain ⟨shape, -, -, -, entries⟩ := Scheduler.release_eq_some released
  have entry := books.entry index
  obtain ⟨key, -⟩ := entry.enqueued (by simp [state])
  rw [← same, key] at entries
  apply books.setEntry shape entries (by simp [stands]) (by simp [stands, CoordinatorPc.leasing]) rfl (by simp)
  have own := congrFun entries index
  rw [Function.update_self] at own
  refine ⟨?_, entry.keyed, ?_, ?_, ?_, ?_⟩
  all_goals simp only [own]
  · simp
  · intro _
    rw [← same] at committed
    exact (books.committed_iff state).mp committed
  · simp
  · simp
  · simp

theorem Books.schedule (books : Books T k) {decision : Decision} {scheduler : Scheduler} (stands : k.coordinator = .schedule)
    (scheduled : k.scheduler.trySchedule = some (scheduler, some decision)) :
    Books T
      { k with
        scheduler := scheduler
        coordinator := .writeAdmission decision.invocation decision.executorLaneIndex
        leases :=
          Function.update k.leases decision.executorLaneIndex
            (k.leases decision.executorLaneIndex ++ [decision.invocation]) } := by
  obtain ⟨shape, ⟨impossible, -⟩ | ⟨index, bound, lane, free, state, unoccupied, made, entries⟩⟩ :=
    Scheduler.trySchedule_eq_some scheduled
  · cases impossible
  obtain rfl := Option.some.inj made
  have entry := books.entry index
  obtain ⟨key, rows⟩ := entry.enqueued (by simp [state])
  rw [Scheduler.not_occupied_iff, books.instanceCount] at unoccupied
  have own := congrFun entries index
  rw [Function.update_self] at own
  have others : ∀ i, i ≠ index → scheduler.entries i = k.scheduler.entries i := by
    intro i ne
    rw [entries, Function.update_of_ne ne]
  -- the lane is nobody else's
  have apart : ∀ i, i ≠ index → (scheduler.entries i).state = .active → (scheduler.entries i).executorLaneIndex ≠ lane := by
    intro i ne active
    rw [others i ne] at active ⊢
    exact unoccupied i ((books.entry i).bounded (by simp [active])) active
  refine ⟨shape.instanceCount.trans books.instanceCount, shape.executorLaneCount.trans books.executorLaneCount, ?_, ?_, ?_,
    books.sequence, ?_, ?_⟩
  · intro i
    by_cases same : i = index
    · subst same
      refine ⟨?_, entry.keyed, ?_, ?_, ?_, ?_⟩
      all_goals simp only [own]
      · intro _
        exact entry.bounded (by simp [state])
      · simp
      · intro _
        exact ⟨key, rows⟩
      · simp
      · intro _
        rw [books.executorLaneCount] at free
        exact ⟨.inl (entry.ready state), free, by simp⟩
    · obtain ⟨bounded, keyed, idle, enqueued, ready, active⟩ := books.entry i
      refine ⟨?_, keyed, ?_, ?_, ?_, ?_⟩
      all_goals simp only [others i same]
      · exact bounded
      · exact idle
      · exact enqueued
      · exact ready
      · intro holds
        have elsewhere := apart i same (by rw [others i same]; exact holds)
        rw [others i same] at elsewhere
        rw [Function.update_of_ne elsewhere]
        exact active holds
  · intro i j first second together
    by_cases isFirst : i = index
    · by_cases isSecond : j = index
      · rw [isFirst, isSecond]
      · subst isFirst
        simp only [own] at together
        exact absurd together.symm (apart j isSecond second)
    · by_cases isSecond : j = index
      · subst isSecond
        simp only [own] at together
        exact absurd together (apart i isFirst first)
      · simp only [others i isFirst, others j isSecond] at first second together
        exact books.exclusive i j first second together
  · intro ℓ
    have before := books.settled (by simp [stands]) ℓ
    simp only [stands, CoordinatorPc.leasing] at before
    have lease := books.lease ℓ
    simp only [Control.leaseSequence, Control.leaseCount] at before lease ⊢
    by_cases here : ℓ = lane
    · subst here
      rw [Function.update_self]
      simp at before ⊢
      omega
    · rw [Function.update_of_ne here]
      exact lease
  · intro _ ℓ
    have before := books.settled (by simp [stands]) ℓ
    simp only [stands, CoordinatorPc.leasing] at before
    simp only [Control.leaseSequence, Control.leaseCount, CoordinatorPc.leasing] at before ⊢
    by_cases here : ℓ = lane
    · subst here
      rw [Function.update_self]
      simp at before ⊢
      omega
    · rw [Function.update_of_ne here]
      simpa [Ne.symm here] using before
  · show scheduler.Holds _ lane
    refine ⟨?_, ?_, ?_⟩
    all_goals simp [key, own]

/-- What a store by the Coordinator leaves on record. -/
theorem Control.store_record {slot slot' : Slot} (record : slot.Record) (other : slot' ≠ slot) :
    ((k.store T.coordinatorPe slot record).slots T.coordinatorPe slot').record = (k.slots T.coordinatorPe slot').record := by
  rw [Control.store, Control.setSlot_of_slot_ne _ other]

theorem Control.store_record_same (slot : Slot) (record : slot.Record) :
    ((k.store T.coordinatorPe slot record).slots T.coordinatorPe slot).record = record := by
  rw [Control.store, Control.setSlot_same]
  rfl

theorem Books.commit (books : Books T k) {index : Nat} (stands : k.coordinator = .writeCommit index) :
    Books T
      { k.store T.coordinatorPe (.outputCommit index) ⟨(k.scheduler.entries index).invocation.key⟩ with
        coordinator := .publishCommit index (T.atnagentPes index) } := by
  have standing := books.standing
  rw [stands] at standing
  obtain ⟨state, uncommitted⟩ := standing
  obtain ⟨key, -⟩ := (books.entry index).enqueued (by simp [state])
  have others : ∀ i, i ≠ index →
      ((k.store T.coordinatorPe (.outputCommit index) ⟨(k.scheduler.entries index).invocation.key⟩).slots T.coordinatorPe
        (.outputCommit i)).record = (k.slots T.coordinatorPe (.outputCommit i)).record :=
    fun i ne => Control.store_record _ (by simpa using ne)
  have own :
      ((k.store T.coordinatorPe (.outputCommit index) ⟨(k.scheduler.entries index).invocation.key⟩).slots T.coordinatorPe
        (.outputCommit index)).record.key = ⟨index, (k.scheduler.entries index).completedSequence + 1⟩ := by
    rw [Control.store_record_same]
    exact key
  have lanes : ∀ ℓ,
      ((k.store T.coordinatorPe (.outputCommit index) ⟨(k.scheduler.entries index).invocation.key⟩).slots T.coordinatorPe
        (.laneExecution ℓ)).record = (k.slots T.coordinatorPe (.laneExecution ℓ)).record :=
    fun ℓ => Control.store_record _ (by simp)
  refine ⟨books.instanceCount, books.executorLaneCount, ?_, books.exclusive, ?_, ?_, ?_, ?_⟩
  · intro i
    by_cases same : i = index
    · subst same
      refine ⟨(books.entry i).bounded, ?_, ?_, (books.entry i).enqueued, ?_, ?_⟩
      all_goals simp only [Control.commitSequence, own]
      · intro _
        trivial
      · intro idle
        exact absurd (state.symm.trans idle) (by simp)
      · intro ready
        exact absurd (state.symm.trans ready) (by simp)
      · intro active
        exact ⟨.inr rfl, ((books.entry i).active active).2⟩
    · obtain ⟨bounded, keyed, idle, enqueued, ready, active⟩ := books.entry i
      refine ⟨bounded, ?_, ?_, enqueued, ?_, ?_⟩
      all_goals simp only [Control.commitSequence, others i same]
      · exact keyed
      · exact idle
      · exact ready
      · exact active
  · intro ℓ
    simp only [Control.leaseSequence, lanes]
    exact books.lease ℓ
  · intro ℓ
    simp only [Control.leaseSequence, lanes]
    exact books.sequence ℓ
  · intro _ ℓ
    have before := books.settled (by simp [stands]) ℓ
    rw [stands] at before
    simp only [Control.leaseSequence, lanes]
    exact before
  · simp only [Standing, Control.commitSequence, own]
    omega

theorem Books.writeAdmission (books : Books T k) {lane : Nat} (stands : k.coordinator = .writeAdmission invocation lane)
    (unwrapped : k.leaseSequence T lane ≠ maxSequence) :
    Books T
      { k.store T.coordinatorPe (.admission invocation.key.instanceIndex)
          ⟨invocation.key, lane, k.leaseSequence T lane + 1⟩ with
        coordinator :=
          .publishAdmission invocation lane (k.leaseSequence T lane + 1) (T.atnagentPes invocation.key.instanceIndex) } := by
  have active := books.standing
  rw [stands] at active
  have lease := books.settled (by simp [stands]) lane
  simp only [stands, CoordinatorPc.leasing, if_true] at lease
  have sequence := books.sequence lane
  generalize number : k.leaseSequence T lane + 1 = L at lease ⊢
  have stored : Books T (k.store T.coordinatorPe (.admission invocation.key.instanceIndex) ⟨invocation.key, lane, L⟩) := by
    -- no field of the books but the new standing reads the admission record
    have same : ∀ slot : Slot, slot ≠ .admission invocation.key.instanceIndex →
        ((k.store T.coordinatorPe (.admission invocation.key.instanceIndex) ⟨invocation.key, lane, L⟩).slots T.coordinatorPe
          slot).record = (k.slots T.coordinatorPe slot).record :=
      fun slot => Control.store_record _
    refine ⟨books.instanceCount, books.executorLaneCount, ?_, books.exclusive, ?_, ?_, ?_, ?_⟩
    · intro i
      obtain ⟨bounded, keyed, idle, enqueued, ready, active⟩ := books.entry i
      refine ⟨bounded, ?_, ?_, enqueued, ?_, ?_⟩
      all_goals simp only [Control.commitSequence, same (.outputCommit i) (by simp)]
      · exact keyed
      · exact idle
      · exact ready
      · exact active
    · intro ℓ
      simp only [Control.leaseSequence, same (.laneExecution ℓ) (by simp)]
      exact books.lease ℓ
    · intro ℓ
      simp only [Control.leaseSequence, same (.laneExecution ℓ) (by simp)]
      exact books.sequence ℓ
    · intro running ℓ
      simp only [Control.leaseSequence, same (.laneExecution ℓ) (by simp)]
      exact books.settled running ℓ
    · show Standing T _ k.coordinator
      rw [stands]
      exact active
  refine stored.goto (.publishAdmission invocation lane L (T.atnagentPes invocation.key.instanceIndex)) (.inl ⟨?_, ?_⟩) ?_
  · show k.coordinator ≠ _
    simp [stands]
  · show k.coordinator.leasing = _
    simp [stands, CoordinatorPc.leasing]
  · exact ⟨active, lease, by omega, Control.store_record_same _ _, List.suffix_refl _⟩

theorem Books.writeLaneExecution (books : Books T k) {lane lease : Nat}
    (stands : k.coordinator = .writeLaneExecution invocation lane lease) :
    Books T
      { k.store T.coordinatorPe (.laneExecution lane) (invocation.execution lease) with
        coordinator := .publishLaneExecution invocation lane (T.group invocation) } := by
  have standing := books.standing
  rw [stands] at standing
  obtain ⟨active, last, bound⟩ := standing
  have other : ∀ slot : Slot, slot ≠ .laneExecution lane →
      ((k.store T.coordinatorPe (.laneExecution lane) (invocation.execution lease)).slots T.coordinatorPe slot).record =
        (k.slots T.coordinatorPe slot).record :=
    fun slot => Control.store_record _
  have own := Control.store_record_same (T := T) (k := k) (.laneExecution lane) (invocation.execution lease)
  refine ⟨books.instanceCount, books.executorLaneCount, ?_, books.exclusive, ?_, ?_, ?_, ?_⟩
  · intro i
    obtain ⟨bounded, keyed, idle, enqueued, ready, active⟩ := books.entry i
    refine ⟨bounded, ?_, ?_, enqueued, ?_, ?_⟩
    all_goals simp only [Control.commitSequence, other (.outputCommit i) (by simp)]
    · exact keyed
    · exact idle
    · exact ready
    · exact active
  · intro ℓ
    by_cases here : ℓ = lane
    · subst here
      simp only [Control.leaseSequence, own]
      show lease ≤ k.leaseCount ℓ ∧ k.leaseCount ℓ ≤ lease + 1
      omega
    · simp only [Control.leaseSequence, other (.laneExecution ℓ) (by simpa using here)]
      exact books.lease ℓ
  · intro ℓ
    by_cases here : ℓ = lane
    · subst here
      simp only [Control.leaseSequence, own]
      exact bound
    · simp only [Control.leaseSequence, other (.laneExecution ℓ) (by simpa using here)]
      exact books.sequence ℓ
  · intro _ ℓ
    by_cases here : ℓ = lane
    · subst here
      simp only [Control.leaseSequence, own]
      exact last
    · have before := books.settled (by simp [stands]) ℓ
      simp only [stands, CoordinatorPc.leasing, Option.some.injEq, Ne.symm here, if_false] at before
      simp only [Control.leaseSequence, other (.laneExecution ℓ) (by simpa using here)]
      exact before
  · exact ⟨active, own.trans (congrArg invocation.execution last), List.suffix_refl _⟩

/-- A put from the Coordinator changes none of its records. -/
theorem Books.publish (books : Books T k) (slot : Slot) (destination : Nat) :
    Books T (k.publish T.coordinatorPe destination slot) := by
  exact books.frame rfl rfl rfl fun slot' _ => Control.publish_record _ _

theorem CoordinatorControl.books (effect : CoordinatorControl T k k') (books : Books T k) : Books T k' := by
  have standing := books.standing
  cases effect with
  | rest pc plain settled =>
    refine books.goto pc ?_ (Standing.plain plain)
    rwa [CoordinatorPc.plain_leasing plain]
  | reschedule scheduler stands scheduled =>
    obtain ⟨shape, same⟩ := Scheduler.trySchedule_eq_none scheduled
    have moved := books.goto .readFailure (.inl (by simp [stands, CoordinatorPc.leasing])) trivial
    refine ⟨shape.instanceCount.trans books.instanceCount, shape.executorLaneCount.trans books.executorLaneCount, ?_, ?_,
      moved.lease, moved.sequence, moved.settled, trivial⟩
    · intro i
      obtain ⟨bounded, keyed, idle, enqueued, ready, active⟩ := books.entry i
      exact ⟨by rwa [same], keyed, by rwa [same], by rwa [same], by rwa [same], by rwa [same]⟩
    · simp only [same]
      exact books.exclusive
  | enqueue index invocation scheduler ticket stands bound idle ready enqueued =>
    exact books.enqueue stands (inspectSubmissionRendezvous_ready ready) enqueued
  | completed index decision active uncommitted stands ready =>
    obtain ⟨state, same, -⟩ := Scheduler.activeDecision_eq_some active
    refine books.goto _ (.inl (by simp [stands, CoordinatorPc.leasing])) ⟨state, ?_⟩
    rw [← same] at uncommitted
    have open' := mt (books.committed_iff state).mpr uncommitted
    have := ((books.entry index).active state).1
    omega
  | proceed index stands =>
    rw [stands] at standing
    exact books.goto _ (.inl (by simp [stands, CoordinatorPc.leasing])) standing
  | commit index stands => exact books.commit stands
  | publishCommit index destination rest stands =>
    rw [stands] at standing
    refine (books.publish _ _).goto _ (.inl ?_) ?_
    · show k.coordinator ≠ _ ∧ k.coordinator.leasing = _
      simp [stands, CoordinatorPc.leasing]
    · have published := books.publish (.outputCommit index) destination
      have after := published.standing
      rw [show (k.publish T.coordinatorPe destination (.outputCommit index)).coordinator = k.coordinator from rfl, stands] at after
      exact after
  | release index decision scheduler active committed stands ready released =>
    exact books.release active committed stands released
  | schedule decision scheduler stands scheduled => exact books.schedule stands scheduled
  | writeAdmission invocation lane stands unwrapped => exact books.writeAdmission stands unwrapped
  | publishAdmission invocation lane lease destination rest stands =>
    have after := (books.publish (.admission invocation.key.instanceIndex) destination).standing
    rw [show (k.publish T.coordinatorPe destination (.admission invocation.key.instanceIndex)).coordinator = k.coordinator
      from rfl, stands] at after
    obtain ⟨active, last, bound, record, suffix⟩ := after
    refine (books.publish _ _).goto _ (.inl ?_) ⟨active, last, bound, record, (List.suffix_cons _ _).trans suffix⟩
    show k.coordinator ≠ _ ∧ k.coordinator.leasing = _
    simp [stands, CoordinatorPc.leasing]
  | admitted invocation lane lease stands =>
    rw [stands] at standing
    obtain ⟨active, last, bound, -⟩ := standing
    exact books.goto _ (.inl (by simp [stands, CoordinatorPc.leasing])) ⟨active, last, bound⟩
  | writeLaneExecution invocation lane lease stands => exact books.writeLaneExecution stands
  | publishLaneExecution invocation lane destination rest stands =>
    have after := (books.publish (.laneExecution lane) destination).standing
    rw [show (k.publish T.coordinatorPe destination (.laneExecution lane)).coordinator = k.coordinator from rfl, stands] at after
    obtain ⟨active, record, suffix⟩ := after
    refine (books.publish _ _).goto _ (.inl ?_) ⟨active, record, (List.suffix_cons _ _).trans suffix⟩
    show k.coordinator ≠ _ ∧ k.coordinator.leasing = _
    simp [stands, CoordinatorPc.leasing]

theorem ControlStep.books (step : ControlStep T k k') (homes : Homes T k) (books : Books T k) : Books T k' := by
  cases step with
  | same => exact books
  | deliver destination slot delivery channel written delivered =>
    refine books.frame rfl rfl rfl fun slot' coordinated => ?_
    have home : slot'.home T = T.coordinatorPe := by
      cases slot' <;> first | rfl | cases coordinated
    have same := homes.deliver_record delivered slot'
    rwa [home] at same
  | coordinator _ effect => exact effect.books books
  | atnagent i r _ _ effect =>
    have frame := effect.frame
    refine books.frame frame.scheduler frame.coordinator frame.leases fun slot coordinated => ?_
    rw [frame.slots]
    · rintro rfl
      cases coordinated
    · rintro rfl
      cases coordinated
  | lane p ℓ _ _ effect =>
    have frame := effect.frame
    refine books.frame frame.scheduler frame.coordinator frame.leases fun slot coordinated => ?_
    rw [frame.slots]
    rintro rfl
    cases coordinated

theorem reachable_books {V : Type} {K : Kernels V} {policy : PolicyState} {s : State V}
    (reached : (T.fabric K policy).Reachable s) : Books T s.control := by
  apply System.ReachableUnder.invariant ?_ ?_ reached
  · rintro s ⟨memory, rfl⟩
    refine ⟨rfl, rfl, fun i => ?_, ?_, ?_, ?_, ?_, trivial⟩
    · refine ⟨?_, ?_, ?_, ?_, ?_, ?_⟩
      · exact fun busy => absurd rfl busy
      · exact fun committed => absurd rfl committed
      · exact fun _ => rfl
      · exact fun busy => absurd rfl busy
      · exact fun _ => rfl
      · exact fun active => by cases active
    · intro i j active
      simp [Topology.create, Scheduler.create, default] at active
    all_goals simp [Topology.create, Control.leaseSequence, Control.leaseCount, Channel.create, Slot.zero, default,
      CoordinatorPc.leasing]
  · intro s event t reached books _ taken
    exact (next_control taken).books (reachable_homes reached) books

end Books

end CrossPool.Fabric
