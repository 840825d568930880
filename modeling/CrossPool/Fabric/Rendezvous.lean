import CrossPool.Fabric.Lease

/-!
# Rendezvous

What the ranks of an Instance and the Coordinator know of each other: every
enqueued invocation was submitted by all ranks, a rank only takes the Admission
of a lease that was granted to its own submission, and nobody sees a commit that
was not made.
-/

namespace CrossPool.Fabric

open CrossPool.Lib

/-- All ranks of the Instance submitted the invocation, and it passed the checks
of the rendezvous. -/
structure Submitted (T : Topology) (k : Control) (invocation : Invocation) : Prop where
  ranks :
    ∀ r, T.isRank invocation.key.instanceIndex r →
      ∃ record ∈ k.submissions invocation.key.instanceIndex r,
        record.key = invocation.key ∧ record.layerOrdinal = invocation.layerOrdinal ∧
          record.payloadRows = invocation.payloadRows ∧ record.outputRequirement = invocation.outputRequirement
  layer : invocation.layerOrdinal < (T.instanceEntry invocation.key.instanceIndex).layers.length
  requirement :
    invocation.outputRequirement = .groupSumComplete →
      (T.instanceEntry invocation.key.instanceIndex).groupSumCompleteAdmitted
  named : invocation.outputRequirement.isValid
  rows :
    invocation.payloadRows ≠ 0 ∧
      (invocation.payloadRows ≤ (T.instanceEntry invocation.key.instanceIndex).prefillPayloadRowCapacity ∨
        invocation.payloadRows ≤ (T.instanceEntry invocation.key.instanceIndex).decodePayloadRowCapacity)

/-- The last sequence of an Instance that the Coordinator has enqueued. -/
def Control.enqueuedSequence (k : Control) (i : Nat) : Nat :=
  (k.scheduler.entries i).completedSequence + if (k.scheduler.entries i).state = .idle then 0 else 1

/-- The Coordinator has yet to send the Instance's Admission to the PE. -/
def CoordinatorPc.withholdsAdmission (pe i : Nat) : CoordinatorPc → Prop
  | writeAdmission invocation _ => invocation.key.instanceIndex = i
  | publishAdmission invocation _ _ rest => invocation.key.instanceIndex = i ∧ pe ∈ rest
  | _ => False

/-- What a rank may find in its Admission. -/
structure Admitted (T : Topology) (k : Control) (pe i : Nat) (record : Admission) (invocation : Invocation) : Prop where
  granted : k.Granted record.executorLaneIndex record.executorLeaseSequence invocation
  key : record.key = invocation.key
  index : invocation.key.instanceIndex = i
  sent :
    record.key.invocationSequence ≤ (k.scheduler.entries i).completedSequence ∨ ¬k.coordinator.withholdsAdmission pe i

structure RankBook (T : Topology) (k : Control) (i r : Nat) : Prop where
  tracks :
    (k.slots (T.atnagentPe i r) (.admission i)).Tracks publicationSequence
      (fun record => ∃ invocation, Admitted T k (T.atnagentPe i r) i record invocation)
      (max (k.acknowledgements i r).length (k.atnagents i r).admission.key.invocationSequence)
  admitted :
    (k.acknowledgements i r).length < (k.atnagents i r).admission.key.invocationSequence →
      ∃ invocation, Admitted T k (T.atnagentPe i r) i (k.atnagents i r).admission invocation
  free :
    (k.atnagents i r).pc = .resting ∨ (k.atnagents i r).pc = .submit ∨ (k.atnagents i r).pc = .awaitAdmission →
      (k.atnagents i r).admission.key.invocationSequence ≤ (k.acknowledgements i r).length
  holding : (k.atnagents i r).pc.holding → (k.atnagents i r).admission.key = ⟨i, (k.atnagents i r).invocationSequence⟩
  commits :
    (k.slots (T.atnagentPe i r) (.outputCommit i)).Bounded publicationSequence (k.commitSequence T i)
  committed : (k.atnagents i r).pc.committed → (k.atnagents i r).invocationSequence ≤ k.commitSequence T i
  acknowledged : (k.acknowledgements i r).length ≤ k.commitSequence T i
  submissions :
    (k.slots T.coordinatorPe (.submission (T.atnagentPe i r) i)).Tracks publicationSequence
      (· ∈ k.submissions i r) (k.enqueuedSequence i)
  enqueued : k.enqueuedSequence i ≤ (k.submissions i r).length

structure Admissions (T : Topology) (k : Control) : Prop where
  rank : ∀ i r, T.isRank i r → RankBook T k i r
  entry : ∀ i, (k.scheduler.entries i).state ≠ .idle → Submitted T k (k.scheduler.entries i).invocation
  granted : ∀ ℓ L invocation, k.Granted ℓ L invocation → Submitted T k invocation

section Admissions

variable {T : Topology} {k k' : Control} {i r p ℓ L : Nat} {invocation : Invocation}

theorem Submitted.mono (submitted : Submitted T k invocation)
    (submissions : ∀ i r, k.submissions i r ⊆ k'.submissions i r) : Submitted T k' invocation where
  ranks r rank := by
    obtain ⟨record, member, agrees⟩ := submitted.ranks r rank
    exact ⟨record, submissions _ r member, agrees⟩
  layer := submitted.layer
  requirement := submitted.requirement
  named := submitted.named
  rows := submitted.rows

theorem Submitted.width (submitted : Submitted T k invocation) :
    (T.group invocation).length = (T.instanceEntry invocation.key.instanceIndex).ffnTpSize := by
  have valid := Topology.layer_validate submitted.layer
  simp only [Layer.validate, Bool.and_eq_true, decide_eq_true_eq] at valid
  rw [Topology.group, Topology.ffnagentPes, List.length_map]
  exact valid.1.1.1.2

theorem Submitted.group_ne_nil (submitted : Submitted T k invocation) : T.group invocation ≠ [] := by
  have valid := Topology.layer_validate submitted.layer
  simp only [Layer.validate, Bool.and_eq_true, decide_eq_true_eq] at valid
  intro empty
  simp only [Topology.group, Topology.ffnagentPes, List.map_eq_nil_iff] at empty
  exact absurd empty valid.1.1.1.1

/-! ## Consequences -/

/-- An Active invocation is the one after the last completed. -/
theorem Books.sequence_of_holds (books : Books T k) (holds : k.scheduler.Holds invocation ℓ) :
    invocation.key.invocationSequence = (k.scheduler.entries invocation.key.instanceIndex).completedSequence + 1 := by
  obtain ⟨key, -⟩ := (books.entry invocation.key.instanceIndex).enqueued (by simp [holds.state])
  rw [holds.admitted] at key
  generalize (k.scheduler.entries invocation.key.instanceIndex).completedSequence = completed at key ⊢
  rw [key]

/-- What a rank has not acknowledged is Active. -/
theorem Leases.unacknowledged (leases : Leases T k) (granted : k.Granted ℓ L invocation)
    (rank : T.isRank invocation.key.instanceIndex r)
    (unacknowledged : invocation.key.invocationSequence ∉ k.acknowledgements invocation.key.instanceIndex r) :
    L = k.leaseCount ℓ ∧ k.scheduler.Holds invocation ℓ := by
  rcases leases.chain.settled ℓ L invocation granted with settled | active
  · exact absurd (settled.acknowledged r rank) unacknowledged
  · exact active

/-- While its lease is withheld from some lane, an invocation is not committed. -/
theorem Leases.uncommitted (leases : Leases T k) (books : Books T k) (submitted : Submitted T k invocation)
    (holds : k.scheduler.Holds invocation ℓ) (withholds : ∀ p ∈ T.group invocation, k.coordinator.withholds p ℓ) :
    k.commitSequence T invocation.key.instanceIndex ≠ invocation.key.invocationSequence := by
  intro committed
  obtain ⟨p, member⟩ := List.exists_mem_of_ne_nil _ submitted.group_ne_nil
  have isLane := leases.isLane (books.granted holds) member
  have done := leases.chain.completed invocation ℓ holds (.inl committed) p member
  have le := ((leases.lane p ℓ isLane).completed _ done).1
  have before := (leases.quiescent books isLane (withholds p member)).2.2.2
  omega

/-- Where its Admission is withheld, a rank is done with all that it may have. -/
theorem RankBook.quiescent (book : RankBook T k i r) (leases : Leases T k) (books : Books T k)
    (ledger : RankLedger T k i r) (rank : T.isRank i r)
    (withholds : k.coordinator.withholdsAdmission (T.atnagentPe i r) i) :
    (∀ record invocation, Admitted T k (T.atnagentPe i r) i record invocation →
        record.key.invocationSequence ≤ (k.acknowledgements i r).length) := by
  intro record invocation admitted
  by_contra beyond
  have unacknowledged : invocation.key.invocationSequence ∉ k.acknowledgements i r := by
    rw [ledger.mem_acknowledgements, ← admitted.key]
    omega
  have index := admitted.index
  subst index
  obtain ⟨-, holds⟩ := leases.unacknowledged admitted.granted rank unacknowledged
  have sequence := books.sequence_of_holds holds
  rcases admitted.sent with old | sent
  · rw [admitted.key] at old
    omega
  · exact sent withholds

/-! ## Frame -/

/-- What was sent to a rank stays sent. -/
def StaysSent (T : Topology) (k k' : Control) (i r : Nat) : Prop :=
  ∀ record invocation, Admitted T k (T.atnagentPe i r) i record invocation →
    record.key.invocationSequence ≤ (k'.scheduler.entries i).completedSequence ∨
      ¬k'.coordinator.withholdsAdmission (T.atnagentPe i r) i

theorem Admitted.mono {record : Admission} (admitted : Admitted T k (T.atnagentPe i r) i record invocation)
    (leases : ∀ ℓ, k.leases ℓ <+: k'.leases ℓ) (sent : StaysSent T k k' i r) :
    Admitted T k' (T.atnagentPe i r) i record invocation where
  granted := admitted.granted.mono (leases _)
  key := admitted.key
  index := admitted.index
  sent := sent record invocation admitted

theorem StaysSent.of_le (completed : (k.scheduler.entries i).completedSequence ≤ (k'.scheduler.entries i).completedSequence)
    (withholds :
      k'.coordinator.withholdsAdmission (T.atnagentPe i r) i → k.coordinator.withholdsAdmission (T.atnagentPe i r) i) :
    StaysSent T k k' i r := by
  intro record invocation admitted
  rcases admitted.sent with old | sent
  · exact .inl (Nat.le_trans old completed)
  · exact .inr fun again => sent (withholds again)

/-- A book under a step that leaves the rank itself alone. -/
theorem RankBook.frame (book : RankBook T k i r) (leases : ∀ ℓ, k.leases ℓ <+: k'.leases ℓ) (sent : StaysSent T k k' i r)
    (atnagents : k'.atnagents i r = k.atnagents i r)
    (acknowledgements : k'.acknowledgements i r = k.acknowledgements i r)
    (commit : k.commitSequence T i ≤ k'.commitSequence T i)
    (tracks :
      (k'.slots (T.atnagentPe i r) (.admission i)).Tracks publicationSequence
        (fun record => ∃ invocation, Admitted T k' (T.atnagentPe i r) i record invocation)
        (max (k.acknowledgements i r).length (k.atnagents i r).admission.key.invocationSequence))
    (commits :
      (k'.slots (T.atnagentPe i r) (.outputCommit i)).Bounded publicationSequence (k'.commitSequence T i))
    (submissions :
      (k'.slots T.coordinatorPe (.submission (T.atnagentPe i r) i)).Tracks publicationSequence
        (· ∈ k'.submissions i r) (k'.enqueuedSequence i))
    (enqueued : k'.enqueuedSequence i ≤ (k'.submissions i r).length) : RankBook T k' i r := by
  refine ⟨?_, ?_, ?_, ?_, commits, ?_, ?_, submissions, enqueued⟩
  all_goals simp only [atnagents, acknowledgements]
  · exact tracks
  · intro ahead
    obtain ⟨invocation, admitted⟩ := book.admitted ahead
    exact ⟨invocation, admitted.mono leases sent⟩
  · exact book.free
  · exact book.holding
  · exact fun committed => Nat.le_trans (book.committed committed) commit
  · exact Nat.le_trans book.acknowledged commit

/-- A book under a step that leaves the rank and its publications alone. -/
theorem RankBook.same (book : RankBook T k i r) (leases : ∀ ℓ, k.leases ℓ <+: k'.leases ℓ) (sent : StaysSent T k k' i r)
    (atnagents : k'.atnagents i r = k.atnagents i r)
    (acknowledgements : k'.acknowledgements i r = k.acknowledgements i r)
    (submissions : k'.submissions i r = k.submissions i r)
    (commit : k.commitSequence T i ≤ k'.commitSequence T i)
    (enqueued : k'.enqueuedSequence i = k.enqueuedSequence i)
    (admission : k'.slots (T.atnagentPe i r) (.admission i) = k.slots (T.atnagentPe i r) (.admission i))
    (outputCommit : k'.slots (T.atnagentPe i r) (.outputCommit i) = k.slots (T.atnagentPe i r) (.outputCommit i))
    (submission :
      k'.slots T.coordinatorPe (.submission (T.atnagentPe i r) i) =
        k.slots T.coordinatorPe (.submission (T.atnagentPe i r) i)) :
    RankBook T k' i r := by
  refine book.frame leases sent atnagents acknowledgements commit ?_ ?_ ?_ ?_
  · rw [admission]
    refine book.tracks.mono ?_
    rintro record ⟨invocation, admitted⟩
    exact ⟨invocation, admitted.mono leases sent⟩
  · rw [outputCommit]
    exact book.commits.mono commit
  · rw [submission, submissions, enqueued]
    exact book.submissions
  · rw [enqueued, submissions]
    exact book.enqueued

/-! ## Steps of the Coordinator -/

theorem Books.commit_le (books : Books T k) (i : Nat) : k.commitSequence T i ≤ k.enqueuedSequence i := by
  have entry := books.entry i
  unfold Control.enqueuedSequence
  cases state : (k.scheduler.entries i).state with
  | idle =>
    have := entry.idle state
    simp
    omega
  | ready =>
    have := entry.ready state
    simp
    omega
  | active =>
    have := (entry.active state).1
    simp
    omega

theorem RankBook.enqueue (book : RankBook T k i r) (ledger : RankLedger T k i r) (rank : T.isRank i r) {scheduler : Scheduler} {index ticket : Nat}
    {pc : CoordinatorPc} (books : Books T k) (plain : ∀ pe i, ¬pc.withholdsAdmission pe i)
    (meets : Rendezvous T k index (k.commitSequence T index + 1) invocation)
    (enqueued : k.scheduler.enqueue invocation = some (scheduler, ticket)) :
    RankBook T { k with scheduler := scheduler, coordinator := pc } i r := by
  obtain ⟨-, -, -, idle, sequence, entries⟩ := Scheduler.enqueue_eq_some enqueued
  have key := meets.key
  rw [key] at idle sequence entries
  dsimp only at idle sequence entries
  have leases : ∀ ℓ, k.leases ℓ <+: k.leases ℓ := fun ℓ => List.prefix_refl _
  have completed : (scheduler.entries i).completedSequence = (k.scheduler.entries i).completedSequence := by
    rw [entries]
    by_cases same : i = index
    · subst same
      rw [Function.update_self]
    · rw [Function.update_of_ne same]
  have sent : StaysSent T k { k with scheduler := scheduler, coordinator := pc } i r :=
    .of_le (Nat.le_of_eq completed.symm) fun withholds => absurd withholds (plain _ _)
  by_cases same : i = index
  · subst same
    have rankBound := (Topology.isRank_iff.mp rank).2
    have reached := meets.reached r rankBound
    obtain ⟨valid, -⟩ := meets.expected r rankBound
    have commit := (books.entry i).idle idle
    have before : k.enqueuedSequence i = k.commitSequence T i := by
      simp [Control.enqueuedSequence, idle, commit]
    have after : Control.enqueuedSequence { k with scheduler := scheduler, coordinator := pc } i = k.commitSequence T i + 1 := by
      simp [Control.enqueuedSequence, entries, commit]
    -- the word that the rendezvous saw is the next one
    have fresh : k.enqueuedSequence i < (T.submissionAt k i r).sequence := by omega
    obtain ⟨flight, member, number⟩ := book.submissions.fresh fresh
    have word : (T.submissionAt k i r).sequence = k.commitSequence T i + 1 := by
      simp only [validateExpected, Bool.and_eq_true, decide_eq_true_eq] at valid
      exact number.symm.trans valid.1.1.2
    refine book.frame leases sent rfl rfl (Nat.le_refl _) ?_ book.commits ?_ ?_
    · refine book.tracks.mono ?_
      rintro record ⟨invocation, admitted⟩
      exact ⟨invocation, admitted.mono leases sent⟩
    · rw [after, ← word]
      exact book.submissions.consume fresh
    · rw [after, ← word]
      have last := (ledger.of_mem member).2.2.1
      exact Nat.le_trans (Nat.le_of_eq number.symm) last
  · have enqueuedSame : Control.enqueuedSequence { k with scheduler := scheduler, coordinator := pc } i = k.enqueuedSequence i := by
      simp [Control.enqueuedSequence, entries, Function.update_of_ne same]
    exact book.same leases sent rfl rfl rfl (Nat.le_refl _) enqueuedSame rfl rfl rfl

theorem RankBook.release (book : RankBook T k i r) (books : Books T k) {index : Nat} {decision : Decision}
    {scheduler : Scheduler} {pc : CoordinatorPc} (plain : ∀ pe i, ¬pc.withholdsAdmission pe i)
    (active : k.scheduler.activeDecision index = some decision)
    (released : k.scheduler.release decision.invocation.key decision.executorLaneIndex = some scheduler) :
    RankBook T { k with scheduler := scheduler, coordinator := pc } i r := by
  obtain ⟨state, same, -⟩ := Scheduler.activeDecision_eq_some active
  obtain ⟨-, -, -, -, entries⟩ := Scheduler.release_eq_some released
  obtain ⟨key, -⟩ := (books.entry index).enqueued (by simp [state])
  rw [← same, key] at entries
  dsimp only at entries
  have leases : ∀ ℓ, k.leases ℓ <+: k.leases ℓ := fun ℓ => List.prefix_refl _
  have enqueued : Control.enqueuedSequence { k with scheduler := scheduler, coordinator := pc } i = k.enqueuedSequence i := by
    by_cases here : i = index
    · subst here
      simp [Control.enqueuedSequence, entries, state]
    · simp [Control.enqueuedSequence, entries, Function.update_of_ne here]
  have sent : StaysSent T k { k with scheduler := scheduler, coordinator := pc } i r := by
    refine .of_le ?_ fun withholds => absurd withholds (plain _ _)
    show (k.scheduler.entries i).completedSequence ≤ (scheduler.entries i).completedSequence
    rw [entries]
    by_cases here : i = index
    · subst here
      rw [Function.update_self]
      exact Nat.le_succ _
    · rw [Function.update_of_ne here]
  exact book.same leases sent rfl rfl rfl (Nat.le_refl _) enqueued rfl rfl rfl

theorem RankBook.schedule (book : RankBook T k i r) (leases : Leases T k) (books : Books T k) (ledger : RankLedger T k i r)
    (rank : T.isRank i r) {decision : Decision} {scheduler : Scheduler}
    (scheduled : k.scheduler.trySchedule = some (scheduler, some decision)) (grows : ∀ ℓ, k.leases ℓ <+: k'.leases ℓ)
    (eq :
      k' =
        { k with
          scheduler := scheduler
          coordinator := .writeAdmission decision.invocation decision.executorLaneIndex
          leases :=
            Function.update k.leases decision.executorLaneIndex
              (k.leases decision.executorLaneIndex ++ [decision.invocation]) }) :
    RankBook T k' i r := by
  obtain ⟨-, ⟨impossible, -⟩ | ⟨index, bound, lane, free, state, unoccupied, made, entries⟩⟩ :=
    Scheduler.trySchedule_eq_some scheduled
  · cases impossible
  obtain rfl := Option.some.inj made
  obtain ⟨key, -⟩ := (books.entry index).enqueued (by simp [state])
  have completed : ∀ i, (scheduler.entries i).completedSequence = (k.scheduler.entries i).completedSequence := by
    intro i
    by_cases here : i = index
    · subst here
      simp [entries]
    · simp [entries, Function.update_of_ne here]
  have enqueued : k'.enqueuedSequence i = k.enqueuedSequence i := by
    subst eq
    by_cases here : i = index
    · subst here
      simp [Control.enqueuedSequence, entries, state]
    · simp [Control.enqueuedSequence, entries, Function.update_of_ne here]
  have sent : StaysSent T k k' i r := by
    subst eq
    intro record invocation admitted
    by_cases here : i = index
    · -- a Ready Instance has no Active invocation, so all it was admitted to is settled
      left
      have acknowledged : record.key.invocationSequence ∈ k.acknowledgements i r := by
        by_contra unacknowledged
        have index := admitted.index
        subst index
        rw [admitted.key] at unacknowledged
        obtain ⟨-, holds⟩ := leases.unacknowledged admitted.granted rank unacknowledged
        have active := holds.state
        rw [here, state] at active
        cases active
      have le := (ledger.mem_acknowledgements.mp acknowledged).2
      have commit := book.acknowledged
      subst here
      have := (books.entry i).ready state
      rw [completed i]
      omega
    · rcases admitted.sent with old | unsent
      · left
        show _ ≤ (scheduler.entries i).completedSequence
        rw [completed i]
        exact old
      · right
        simp only [CoordinatorPc.withholdsAdmission, key]
        exact Ne.symm here
  subst eq
  exact book.same grows sent rfl rfl rfl (Nat.le_refl _) enqueued rfl rfl rfl

theorem RankBook.publishAdmission (book : RankBook T k i r) (leases : Leases T k) (books : Books T k)
    (admissions : ∀ ℓ L invocation, k.Granted ℓ L invocation → Submitted T k invocation)
    (ledger : RankLedger T k i r) (rank : T.isRank i r) {lane lease destination : Nat} {rest : List Nat}
    (stands : k.coordinator = .publishAdmission invocation lane lease (destination :: rest)) :
    RankBook T
      { k.publish T.coordinatorPe destination (.admission invocation.key.instanceIndex) with
        coordinator := .publishAdmission invocation lane lease rest } i r := by
  have standing := books.standing
  rw [stands] at standing
  obtain ⟨holds, last, bound, stored, suffix⟩ := standing
  have grows : ∀ ℓ, k.leases ℓ <+: k.leases ℓ := fun ℓ => List.prefix_refl _
  have sent : StaysSent T k
      { k.publish T.coordinatorPe destination (.admission invocation.key.instanceIndex) with
        coordinator := .publishAdmission invocation lane lease rest } i r := by
    refine .of_le (Nat.le_refl _) ?_
    rintro ⟨index, member⟩
    rw [stands]
    exact ⟨index, List.mem_cons_of_mem _ member⟩
  have commits :
      Control.commitSequence
          { k.publish T.coordinatorPe destination (.admission invocation.key.instanceIndex) with
            coordinator := .publishAdmission invocation lane lease rest } T i = k.commitSequence T i := by
    simp only [Control.commitSequence]
    rw [Control.publish_record]
  have others : ∀ pe slot, slot ≠ Slot.admission invocation.key.instanceIndex →
      (k.publish T.coordinatorPe destination (.admission invocation.key.instanceIndex)).slots pe slot = k.slots pe slot :=
    fun pe slot ne => Control.setSlot_of_slot_ne _ ne
  by_cases here : T.atnagentPe i r = destination ∧ i = invocation.key.instanceIndex
  · obtain ⟨rfl, rfl⟩ := here
    have withholds : k.coordinator.withholdsAdmission (T.atnagentPe invocation.key.instanceIndex r) invocation.key.instanceIndex := by
      rw [stands]
      exact ⟨rfl, List.mem_cons_self⟩
    have old := book.quiescent leases books ledger rank withholds
    have granted := books.granted holds
    have sequence := books.sequence_of_holds holds
    -- neither acknowledged nor held before it is sent
    have uncommitted := leases.uncommitted books (admissions _ _ _ granted) holds fun p _ => by rw [stands]; exact rfl
    have commit := ((books.entry _).active holds.state).1
    have acknowledged := book.acknowledged
    have admission : (k.atnagents invocation.key.instanceIndex r).admission.key.invocationSequence ≤
        (k.acknowledgements invocation.key.instanceIndex r).length := by
      by_contra ahead
      obtain ⟨other, admitted⟩ := book.admitted (by omega)
      exact ahead (old _ _ admitted)
    obtain ⟨flight, stale⟩ := book.tracks.quiescent (by
      rintro record ⟨other, admitted⟩
      have := old _ _ admitted
      show record.key.invocationSequence ≤ _
      omega)
    refine book.frame grows sent rfl rfl (Nat.le_of_eq commits.symm) ?_ ?_ ?_ ?_
    · dsimp only [Control.publish]
      rw [Control.setSlot_same, stored]
      apply Channel.Tracks.send flight stale
      · refine ⟨invocation, ?_, rfl, rfl, ?_⟩
        · show k.Granted lane lease invocation
          rw [last]
          exact granted
        · right
          rintro ⟨-, again⟩
          have nodup := suffix.sublist.nodup Topology.atnagentPes_nodup
          exact (List.nodup_cons.mp nodup).1 again
      · show _ < invocation.key.invocationSequence
        omega
      · intro landed
        have home : T.coordinatorPe = T.atnagentPe invocation.key.instanceIndex r := by simpa using landed
        exact absurd home.symm (Topology.atnagentPe_ne rank)
    · dsimp only
      rw [others _ _ (by simp), commits]
      exact book.commits
    · dsimp only
      rw [others _ _ (by simp)]
      exact book.submissions
    · exact book.enqueued
  · refine book.same grows sent rfl rfl rfl (Nat.le_of_eq commits.symm) rfl ?_ (others _ _ (by simp)) (others _ _ (by simp))
    dsimp only [Control.publish]
    by_cases same : i = invocation.key.instanceIndex
    · rw [Control.setSlot_of_pe_ne]
      exact fun eq => here ⟨eq, same⟩
    · exact Control.setSlot_of_slot_ne _ (by simpa using same)

theorem CoordinatorPc.plain_withholdsAdmission {pc : CoordinatorPc} (plain : pc.plain) (pe i : Nat) :
    ¬pc.withholdsAdmission pe i := by
  cases pc <;> simp [CoordinatorPc.plain, CoordinatorPc.withholdsAdmission] at plain ⊢

theorem CoordinatorControl.rankBook (effect : CoordinatorControl T k k') (admissions : Admissions T k) (leases : Leases T k)
    (books : Books T k) (ledger : RankLedger T k i r) (rank : T.isRank i r) : RankBook T k' i r := by
  have book := admissions.rank i r rank
  have grows := effect.grows.leases
  have away := Topology.atnagentPe_ne rank
  -- a step that leaves the scheduler and the rank's publications alone
  have quiet : ∀ {k' : Control}, k'.scheduler.entries = k.scheduler.entries → k'.leases = k.leases →
      k'.atnagents = k.atnagents → k'.submissions = k.submissions → k'.acknowledgements = k.acknowledgements →
      k.commitSequence T i ≤ k'.commitSequence T i →
      (∀ slot, k'.slots (T.atnagentPe i r) slot = k.slots (T.atnagentPe i r) slot) →
      k'.slots T.coordinatorPe (.submission (T.atnagentPe i r) i) =
        k.slots T.coordinatorPe (.submission (T.atnagentPe i r) i) →
      (k'.coordinator.withholdsAdmission (T.atnagentPe i r) i →
        k.coordinator.withholdsAdmission (T.atnagentPe i r) i) → RankBook T k' i r := by
    intro k' entries leases atnagents submissions acknowledgements commit slots submission withholds
    refine book.same (fun ℓ => by rw [leases]) (.of_le (by rw [entries]) withholds) (by rw [atnagents])
      (by rw [acknowledgements]) (by rw [submissions]) commit ?_ (slots _) (slots _) submission
    rw [Control.enqueuedSequence, Control.enqueuedSequence, entries]
  have stored : ∀ {slot : Slot} (record : slot.Record) (slot' : Slot),
      (k.store T.coordinatorPe slot record).slots (T.atnagentPe i r) slot' = k.slots (T.atnagentPe i r) slot' := by
    intro slot record slot'
    rw [Control.store, Control.setSlot_of_pe_ne _ away]
  have uncommitted : ∀ {slot : Slot} (record : slot.Record), Slot.outputCommit i ≠ slot →
      k.commitSequence T i ≤ (k.store T.coordinatorPe slot record).commitSequence T i := by
    intro slot record ne
    simp only [Control.commitSequence]
    rw [Control.store_record _ ne]
  have free : ∀ {pc : CoordinatorPc}, pc.plain → pc.withholdsAdmission (T.atnagentPe i r) i →
      k.coordinator.withholdsAdmission (T.atnagentPe i r) i :=
    fun plain withholds => absurd withholds (CoordinatorPc.plain_withholdsAdmission plain _ _)
  cases effect with
  | rest pc plain => exact quiet rfl rfl rfl rfl rfl (Nat.le_refl _) (fun _ => rfl) rfl (free plain)
  | reschedule scheduler stands scheduled =>
    exact quiet (Scheduler.trySchedule_eq_none scheduled).2 rfl rfl rfl rfl (Nat.le_refl _) (fun _ => rfl) rfl False.elim
  | enqueue index invocation scheduler ticket stands bound idle ready enqueued =>
    exact book.enqueue ledger rank books (fun _ _ => False.elim) (inspectSubmissionRendezvous_ready ready) enqueued
  | completed => exact quiet rfl rfl rfl rfl rfl (Nat.le_refl _) (fun _ => rfl) rfl False.elim
  | proceed => exact quiet rfl rfl rfl rfl rfl (Nat.le_refl _) (fun _ => rfl) rfl False.elim
  | commit index stands =>
    refine quiet rfl rfl rfl rfl rfl ?_ (stored _) (Control.setSlot_of_slot_ne _ (by simp)) False.elim
    by_cases same : index = i
    · subst same
      have standing := books.standing
      rw [stands] at standing
      obtain ⟨state, commit⟩ := standing
      obtain ⟨key, -⟩ := (books.entry index).enqueued (by simp [state])
      rw [commit]
      simp only [Control.commitSequence]
      rw [Control.store_record_same, key]
      exact Nat.le_succ _
    · exact uncommitted _ (by simpa using Ne.symm same)
  | publishCommit index destination rest stands =>
    have commits : (k.publish T.coordinatorPe destination (.outputCommit index)).commitSequence T i = k.commitSequence T i := by
      simp only [Control.commitSequence]
      rw [Control.publish_record]
    have sent : StaysSent T k
        { k.publish T.coordinatorPe destination (.outputCommit index) with coordinator := .publishCommit index rest } i r :=
      .of_le (Nat.le_refl _) False.elim
    refine book.frame grows sent rfl rfl (Nat.le_of_eq commits.symm) ?_ ?_ ?_ book.enqueued
    · dsimp only [Control.publish]
      rw [Control.setSlot_of_slot_ne _ (by simp)]
      refine book.tracks.mono ?_
      rintro record ⟨other, admitted⟩
      exact ⟨other, admitted.mono grows sent⟩
    · show (Channel.Bounded publicationSequence
        ((k.publish T.coordinatorPe destination (.outputCommit index)).commitSequence T i) _)
      rw [commits]
      dsimp only [Control.publish]
      by_cases same : Slot.outputCommit i = .outputCommit index
      · obtain rfl : i = index := by simpa using same
        by_cases here : T.atnagentPe i r = destination
        · subst here
          rw [Control.setSlot_same]
          exact book.commits.send (Nat.le_refl _)
        · rw [Control.setSlot_of_pe_ne _ here]
          exact book.commits
      · rw [Control.setSlot_of_slot_ne _ same]
        exact book.commits
    · dsimp only [Control.publish]
      rw [Control.setSlot_of_slot_ne _ (by simp)]
      exact book.submissions
  | release index decision scheduler active committed stands ready released =>
    exact book.release books (fun _ _ => False.elim) active released
  | schedule decision scheduler stands scheduled => exact book.schedule leases books ledger rank scheduled grows rfl
  | writeAdmission invocation lane stands =>
    refine quiet rfl rfl rfl rfl rfl (uncommitted _ (by simp)) (stored _) (Control.setSlot_of_slot_ne _ (by simp)) ?_
    rintro ⟨index, -⟩
    rw [stands]
    exact index
  | publishAdmission invocation lane lease destination rest stands =>
    exact book.publishAdmission leases books admissions.granted ledger rank stands
  | admitted => exact quiet rfl rfl rfl rfl rfl (Nat.le_refl _) (fun _ => rfl) rfl False.elim
  | writeLaneExecution invocation lane lease stands =>
    exact quiet rfl rfl rfl rfl rfl (uncommitted _ (by simp)) (stored _) (Control.setSlot_of_slot_ne _ (by simp)) False.elim
  | publishLaneExecution invocation lane destination rest stands =>
    have sent : StaysSent T k
        { k.publish T.coordinatorPe destination (.laneExecution lane) with coordinator := .publishLaneExecution invocation lane rest }
        i r := .of_le (Nat.le_refl _) False.elim
    refine book.same grows sent rfl rfl rfl ?_ rfl ?_ ?_ ?_
    · simp only [Control.commitSequence]
      rw [Control.publish_record]
    all_goals exact Control.setSlot_of_slot_ne _ (by simp)

theorem CoordinatorControl.submitted (effect : CoordinatorControl T k k') (admissions : Admissions T k)
    (books : Books T k) :
    (∀ i, (k'.scheduler.entries i).state ≠ .idle → Submitted T k' (k'.scheduler.entries i).invocation) ∧
      ∀ ℓ L invocation, k'.Granted ℓ L invocation → Submitted T k' invocation := by
  have frame := effect.frame
  have keep : ∀ {invocation}, Submitted T k invocation → Submitted T k' invocation := by
    intro invocation submitted
    refine submitted.mono fun i r => ?_
    rw [frame.submissions]
    exact fun _ => id
  have same : k'.scheduler.entries = k.scheduler.entries → k'.leases = k.leases →
      (∀ i, (k'.scheduler.entries i).state ≠ .idle → Submitted T k' (k'.scheduler.entries i).invocation) ∧
        ∀ ℓ L invocation, k'.Granted ℓ L invocation → Submitted T k' invocation := by
    intro entries leases
    constructor
    · intro i busy
      rw [entries] at busy ⊢
      exact keep (admissions.entry i busy)
    · intro ℓ L invocation granted
      exact keep (admissions.granted ℓ L invocation (granted.congr (congrFun leases ℓ)))
  cases effect with
  | enqueue index invocation scheduler ticket stands bound idle ready enqueued =>
    have meets := inspectSubmissionRendezvous_ready ready
    obtain ⟨-, valid, -, -, -, entries⟩ := Scheduler.enqueue_eq_some enqueued
    have key := meets.key
    rw [key] at entries
    refine ⟨fun i busy => ?_, fun ℓ L invocation granted => keep (admissions.granted ℓ L invocation granted)⟩
    by_cases here : i = index
    · subst here
      simp only [entries, Function.update_self]
      apply keep
      simp only [Invocation.valid, Bool.and_eq_true, decide_eq_true_eq] at valid
      refine ⟨?_, by rw [key]; exact meets.layer, by rw [key]; exact meets.requirement, valid.2, valid.1.2,
        by rw [key]; exact meets.rows⟩
      rw [key]
      intro r rank
      have rankBound := (Topology.isRank_iff.mp rank).2
      obtain ⟨expected, layer, rows, requirement⟩ := meets.expected r rankBound
      have reached := meets.reached r rankBound
      have before : k.enqueuedSequence i = k.commitSequence T i := by
        have commit := (books.entry i).idle idle
        simp [Control.enqueuedSequence, idle, commit]
      obtain ⟨-, member, -⟩ := (admissions.rank i r rank).submissions.fresh (by
        have : k.commitSequence T i + 1 ≤ (T.submissionAt k i r).sequence := reached
        rw [before]
        exact this)
      refine ⟨_, member, ?_, layer, rows, requirement⟩
      simp only [validateExpected, Bool.and_eq_true, decide_eq_true_eq] at expected
      exact expected.2
    · simp only [entries, Function.update_of_ne here] at busy ⊢
      exact keep (admissions.entry i busy)
  | release index decision scheduler active committed stands ready released =>
    obtain ⟨-, -, -, -, entries⟩ := Scheduler.release_eq_some released
    refine ⟨fun i busy => ?_, fun ℓ L invocation granted => keep (admissions.granted ℓ L invocation granted)⟩
    by_cases here : i = decision.invocation.key.instanceIndex
    · subst here
      simp [entries] at busy
    · simp only [entries, Function.update_of_ne here] at busy ⊢
      exact keep (admissions.entry i busy)
  | schedule decision scheduler stands scheduled =>
    obtain ⟨-, ⟨impossible, -⟩ | ⟨index, bound, lane, free, state, unoccupied, made, entries⟩⟩ :=
      Scheduler.trySchedule_eq_some scheduled
    · cases impossible
    obtain rfl := Option.some.inj made
    have submitted := admissions.entry index (by simp [state])
    constructor
    · intro i busy
      by_cases here : i = index
      · subst here
        simp only [entries, Function.update_self]
        exact keep submitted
      · simp only [entries, Function.update_of_ne here] at busy ⊢
        exact keep (admissions.entry i busy)
    · intro ℓ L invocation granted
      apply keep
      by_cases here : ℓ = lane
      · subst here
        obtain ⟨nonzero, found⟩ := granted
        simp only [Function.update_self] at found
        rcases List.mem_append.mp (List.mem_of_getElem? found) with old | new
        · obtain ⟨n, at'⟩ := List.getElem?_of_mem old
          exact admissions.granted ℓ (n + 1) invocation ⟨Nat.succ_ne_zero n, at'⟩
        · rw [List.mem_singleton.mp new]
          exact submitted
      · exact admissions.granted ℓ L invocation (granted.congr (Function.update_of_ne here _ _))
  | reschedule scheduler stands scheduled => exact same (Scheduler.trySchedule_eq_none scheduled).2 rfl
  | _ => exact same rfl rfl

/-! ## Steps of a rank -/

/-- Nothing but the rank's own place has changed. -/
theorem RankBook.setAtnAgent (book : RankBook T k i r) {a : AtnAgent} (admission : a.admission = (k.atnagents i r).admission)
    (sequence : a.pc.holding → (k.atnagents i r).pc.holding ∧ a.invocationSequence = (k.atnagents i r).invocationSequence)
    (committed : a.pc.committed → a.invocationSequence ≤ k.commitSequence T i)
    (free :
      a.pc = .resting ∨ a.pc = .submit ∨ a.pc = .awaitAdmission →
        (k.atnagents i r).admission.key.invocationSequence ≤ (k.acknowledgements i r).length) :
    RankBook T (k.setAtnAgent i r a) i r := by
  have sent : StaysSent T k (k.setAtnAgent i r a) i r := .of_le (Nat.le_refl _) id
  have leases : ∀ ℓ, k.leases ℓ <+: (k.setAtnAgent i r a).leases ℓ := fun ℓ => List.prefix_refl _
  refine ⟨?_, ?_, ?_, ?_, book.commits, ?_, book.acknowledged, book.submissions, book.enqueued⟩
  all_goals simp only [Control.setAtnAgent, update₂_same, admission]
  · refine book.tracks.mono ?_
    rintro record ⟨invocation, admitted⟩
    exact ⟨invocation, admitted.mono leases sent⟩
  · intro ahead
    obtain ⟨invocation, admitted⟩ := book.admitted ahead
    exact ⟨invocation, admitted.mono leases sent⟩
  · exact free
  · intro holds
    obtain ⟨held, same⟩ := sequence holds
    rw [same]
    exact book.holding held
  · exact committed

theorem AtnAgentPc.not_holding_of_failing {pc : AtnAgentPc} (failing : pc.failing) :
    pc.holding = false ∧ pc.committed = false ∧ pc ≠ .resting ∧ pc ≠ .submit ∧ pc ≠ .awaitAdmission := by
  cases pc <;> simp [AtnAgentPc.failing, AtnAgentPc.holding, AtnAgentPc.committed] at failing ⊢

theorem RankBook.fail (book : RankBook T k i r) {pc : AtnAgentPc} (failing : pc.failing) :
    RankBook T (k.setAtnAgent i r { k.atnagents i r with pc := pc }) i r := by
  obtain ⟨unheld, uncommitted, running, past, beyond⟩ := AtnAgentPc.not_holding_of_failing failing
  refine book.setAtnAgent rfl ?_ ?_ ?_
  · simp [unheld]
  · simp [uncommitted]
  · simp [running, past, beyond]

theorem RankBook.admit (book : RankBook T k i r) (ledger : RankLedger T k i r) {pc : AtnAgentPc}
    (stands : (k.atnagents i r).pc = .awaitAdmission) (holding : pc.holding) (uncommitted : pc.committed = false)
    (reached : (k.atnagents i r).invocationSequence ≤ (k.slots (T.atnagentPe i r) (.admission i)).sequence)
    (valid :
      validateExpected (k.slots (T.atnagentPe i r) (.admission i)) (k.atnagents i r).invocationSequence
        ((k.atnagents i r).key i)) :
    RankBook T
      (k.setAtnAgent i r
        { k.atnagents i r with
          pc := pc
          admission := (k.slots (T.atnagentPe i r) (.admission i)).record }) i r := by
  obtain ⟨count, number, -⟩ := ledger.waiting (by simp [stands, AtnAgentPc.submitted])
  have free := book.free (.inr (.inr stands))
  simp only [validateExpected, Bool.and_eq_true, decide_eq_true_eq] at valid
  have key : (k.slots (T.atnagentPe i r) (.admission i)).record.key = ⟨i, (k.atnagents i r).invocationSequence⟩ := valid.2
  have fresh :
      max (k.acknowledgements i r).length (k.atnagents i r).admission.key.invocationSequence <
        (k.slots (T.atnagentPe i r) (.admission i)).sequence := by omega
  obtain ⟨flight, admitted, word⟩ := book.tracks.fresh fresh
  have sequence : (k.slots (T.atnagentPe i r) (.admission i)).sequence = (k.atnagents i r).invocationSequence :=
    word.symm.trans valid.1.1.2
  have sent : ∀ a, StaysSent T k (k.setAtnAgent i r a) i r := fun a => .of_le (Nat.le_refl _) id
  have leases : ∀ a ℓ, k.leases ℓ <+: (k.setAtnAgent i r a).leases ℓ := fun a ℓ => List.prefix_refl _
  obtain ⟨-, running, past⟩ := AtnAgentPc.submitted_of_holding holding
  have beyond : pc ≠ .awaitAdmission := by
    rintro rfl
    cases holding
  refine ⟨?_, ?_, ?_, ?_, book.commits, ?_, book.acknowledged, book.submissions, book.enqueued⟩
  all_goals simp only [Control.setAtnAgent, update₂_same]
  · rw [key, show max (k.acknowledgements i r).length (k.atnagents i r).invocationSequence =
      (k.slots (T.atnagentPe i r) (.admission i)).sequence by omega]
    refine (book.tracks.consume fresh).mono ?_
    rintro record ⟨invocation, admitted⟩
    exact ⟨invocation, admitted.mono (leases _) (sent _)⟩
  · intro _
    obtain ⟨invocation, admitted⟩ := admitted
    exact ⟨invocation, admitted.mono (leases _) (sent _)⟩
  · simp [running, past, beyond]
  · exact fun _ => key
  · simp [uncommitted]

theorem RankBook.submit (book : RankBook T k i r) (ledger : RankLedger T k i r) (rank : T.isRank i r) (books : Books T k)
    (stands : (k.atnagents i r).pc = .submit) :
    RankBook T
      { (k.store (T.atnagentPe i r) (.submission (T.atnagentPe i r) i)
            (Topology.submissionOf (k.atnagents i r) i)).publish
          (T.atnagentPe i r) T.coordinatorPe (.submission (T.atnagentPe i r) i) with
        atnagents := update₂ k.atnagents i r { k.atnagents i r with pc := .awaitAdmission }
        submissions :=
          update₂ k.submissions i r (k.submissions i r ++ [Topology.submissionOf (k.atnagents i r) i]) } i r := by
  have same := ledger.free (.inr stands)
  have number := ledger.next stands
  have free := book.free (.inr (.inl stands))
  have away := Topology.atnagentPe_ne rank
  have others : ∀ pe slot, slot ≠ Slot.submission (T.atnagentPe i r) i →
      ((k.store (T.atnagentPe i r) (.submission (T.atnagentPe i r) i)
          (Topology.submissionOf (k.atnagents i r) i)).publish
        (T.atnagentPe i r) T.coordinatorPe (.submission (T.atnagentPe i r) i)).slots pe slot = k.slots pe slot := by
    intro pe slot ne
    rw [Control.publish, Control.setSlot_of_slot_ne _ ne, Control.store, Control.setSlot_of_slot_ne _ ne]
  have commit : Control.commitSequence
      { (k.store (T.atnagentPe i r) (.submission (T.atnagentPe i r) i)
            (Topology.submissionOf (k.atnagents i r) i)).publish
          (T.atnagentPe i r) T.coordinatorPe (.submission (T.atnagentPe i r) i) with
        atnagents := update₂ k.atnagents i r { k.atnagents i r with pc := .awaitAdmission }
        submissions :=
          update₂ k.submissions i r (k.submissions i r ++ [Topology.submissionOf (k.atnagents i r) i]) } T i =
      k.commitSequence T i := by
    simp only [Control.commitSequence]
    rw [others _ _ (by simp)]
  have sent : StaysSent T k
      { (k.store (T.atnagentPe i r) (.submission (T.atnagentPe i r) i)
            (Topology.submissionOf (k.atnagents i r) i)).publish
          (T.atnagentPe i r) T.coordinatorPe (.submission (T.atnagentPe i r) i) with
        atnagents := update₂ k.atnagents i r { k.atnagents i r with pc := .awaitAdmission }
        submissions :=
          update₂ k.submissions i r (k.submissions i r ++ [Topology.submissionOf (k.atnagents i r) i]) } i r :=
    .of_le (Nat.le_refl _) id
  have le := books.commit_le i
  have acknowledged := book.acknowledged
  have enqueued := book.enqueued
  obtain ⟨flight, stale⟩ := book.submissions.quiescent (by
    intro record member
    have := (ledger.of_mem member).2.2.1
    show record.key.invocationSequence ≤ _
    omega)
  refine ⟨?_, ?_, ?_, ?_, ?_, ?_, ?_, ?_, ?_⟩
  · simp only [update₂_same]
    rw [others _ _ (by simp)]
    refine book.tracks.mono ?_
    rintro record ⟨invocation, admitted⟩
    exact ⟨invocation, admitted.mono (fun ℓ => List.prefix_refl _) sent⟩
  · simp only [update₂_same]
    intro ahead
    obtain ⟨invocation, admitted⟩ := book.admitted ahead
    exact ⟨invocation, admitted.mono (fun ℓ => List.prefix_refl _) sent⟩
  · simp only [update₂_same]
    exact fun _ => free
  · simp [AtnAgentPc.holding]
  · rw [commit]
    dsimp only
    rw [others _ _ (by simp)]
    exact book.commits
  · simp [AtnAgentPc.committed]
  · rw [commit]
    exact acknowledged
  · dsimp only [Control.publish, Control.store]
    rw [Control.setSlot_same, Control.setSlot_of_pe_ne _ (Ne.symm away), Control.setSlot_same, update₂_same]
    apply Channel.Tracks.send flight stale
    · simp [Channel.store]
    · show k.enqueuedSequence i < (k.atnagents i r).invocationSequence
      omega
    · intro landed
      have home : T.atnagentPe i r = T.coordinatorPe := by simpa using landed
      exact absurd home away
  · simp only [update₂_same, List.length_append, List.length_singleton]
    exact Nat.le_trans enqueued (Nat.le_succ _)

theorem RankBook.acknowledge (book : RankBook T k i r) (ledger : RankLedger T k i r)
    (stands : (k.atnagents i r).pc = .acknowledge) :
    RankBook T
      { (k.store (T.atnagentPe i r) (.outputAcknowledgement (T.atnagentPe i r) i) ⟨(k.atnagents i r).key i⟩).publish
          (T.atnagentPe i r) T.coordinatorPe (.outputAcknowledgement (T.atnagentPe i r) i) with
        atnagents := update₂ k.atnagents i r { k.atnagents i r with pc := .resting }
        acknowledgements :=
          update₂ k.acknowledgements i r (k.acknowledgements i r ++ [(k.atnagents i r).invocationSequence]) } i r := by
  obtain ⟨count, number, -⟩ := ledger.waiting (by simp [stands, AtnAgentPc.submitted, AtnAgentPc.holding])
  have key := book.holding (by simp [stands, AtnAgentPc.holding])
  have committed := book.committed (by simp [stands, AtnAgentPc.committed])
  have others : ∀ pe slot, slot ≠ Slot.outputAcknowledgement (T.atnagentPe i r) i →
      ((k.store (T.atnagentPe i r) (.outputAcknowledgement (T.atnagentPe i r) i) ⟨(k.atnagents i r).key i⟩).publish
        (T.atnagentPe i r) T.coordinatorPe (.outputAcknowledgement (T.atnagentPe i r) i)).slots pe slot =
        k.slots pe slot := by
    intro pe slot ne
    rw [Control.publish, Control.setSlot_of_slot_ne _ ne, Control.store, Control.setSlot_of_slot_ne _ ne]
  have commit : Control.commitSequence
      { (k.store (T.atnagentPe i r) (.outputAcknowledgement (T.atnagentPe i r) i) ⟨(k.atnagents i r).key i⟩).publish
          (T.atnagentPe i r) T.coordinatorPe (.outputAcknowledgement (T.atnagentPe i r) i) with
        atnagents := update₂ k.atnagents i r { k.atnagents i r with pc := .resting }
        acknowledgements :=
          update₂ k.acknowledgements i r (k.acknowledgements i r ++ [(k.atnagents i r).invocationSequence]) } T i =
      k.commitSequence T i := by
    simp only [Control.commitSequence]
    rw [others _ _ (by simp)]
  have sent : StaysSent T k
      { (k.store (T.atnagentPe i r) (.outputAcknowledgement (T.atnagentPe i r) i) ⟨(k.atnagents i r).key i⟩).publish
          (T.atnagentPe i r) T.coordinatorPe (.outputAcknowledgement (T.atnagentPe i r) i) with
        atnagents := update₂ k.atnagents i r { k.atnagents i r with pc := .resting }
        acknowledgements :=
          update₂ k.acknowledgements i r (k.acknowledgements i r ++ [(k.atnagents i r).invocationSequence]) } i r :=
    .of_le (Nat.le_refl _) id
  refine ⟨?_, ?_, ?_, ?_, ?_, ?_, ?_, ?_, book.enqueued⟩
  · simp only [update₂_same, List.length_append, List.length_singleton]
    rw [others _ _ (by simp)]
    have tracks := book.tracks
    rw [key, show max (k.acknowledgements i r).length (k.atnagents i r).invocationSequence =
      max ((k.acknowledgements i r).length + 1) (k.atnagents i r).invocationSequence by omega] at tracks
    rw [key]
    refine tracks.mono ?_
    rintro record ⟨invocation, admitted⟩
    exact ⟨invocation, admitted.mono (fun ℓ => List.prefix_refl _) sent⟩
  · simp only [update₂_same, List.length_append, List.length_singleton, key]
    omega
  · simp only [update₂_same, List.length_append, List.length_singleton, key]
    omega
  · simp [AtnAgentPc.holding]
  · rw [commit]
    dsimp only
    rw [others _ _ (by simp)]
    exact book.commits
  · simp [AtnAgentPc.committed]
  · rw [commit]
    simp only [update₂_same, List.length_append, List.length_singleton]
    omega
  · dsimp only
    rw [others _ _ (by simp)]
    exact book.submissions

theorem AtnAgentControl.rankBook (effect : AtnAgentControl T k i r k') (rank : T.isRank i r) (books : Books T k)
    (ledger : RankLedger T k i r) (book : RankBook T k i r) : RankBook T k' i r := by
  cases effect with
  | stay => exact book
  | move pc running holding committed kind =>
    rcases kind with holds | failing
    · obtain ⟨-, stays, past⟩ := AtnAgentPc.submitted_of_holding holds
      have beyond : pc ≠ .awaitAdmission := by
        rintro rfl
        cases holds
      refine book.setAtnAgent rfl (fun _ => ⟨holding holds, rfl⟩) ?_ (by simp [stays, past, beyond])
      intro commits
      rcases committed commits with before | reached
      · exact book.committed before
      · exact Nat.le_trans reached book.commits.sequence
    · exact book.fail failing
  | refuse pc resting failing => exact book.fail failing
  | request context resting resolved =>
    refine book.setAtnAgent rfl ?_ ?_ fun _ => book.free (.inl resting)
    · simp [AtnAgentPc.holding]
    · simp [AtnAgentPc.committed]
  | submit stands => exact book.submit ledger rank books stands
  | admitted pc stands holding uncommitted reached valid lane => exact book.admit ledger stands holding uncommitted reached valid
  | acknowledge stands => exact book.acknowledge ledger stands

theorem AtnAgentControl.submissions_grow (effect : AtnAgentControl T k i r k') : k.submissions i r ⊆ k'.submissions i r := by
  cases effect with
  | submit => simp
  | _ => exact fun _ => id

/-! ## Every event -/

theorem ControlStep.admissions (step : ControlStep T k k') (homes : Homes T k) (books : Books T k)
    (ledgers : ∀ i r, T.isRank i r → RankLedger T k i r) (leases : Leases T k) (admissions : Admissions T k) :
    Admissions T k' := by
  cases step with
  | same => exact admissions
  | deliver destination slot delivery channel written delivered =>
    refine ⟨fun i r rank => ?_, fun i busy => (admissions.entry i busy).mono fun _ _ _ => id,
      fun ℓ L invocation granted => (admissions.granted ℓ L invocation granted).mono fun _ _ _ => id⟩
    have book := admissions.rank i r rank
    have sent : StaysSent T k (k.setSlot destination slot channel) i r := .of_le (Nat.le_refl _) id
    have grows : ∀ ℓ, k.leases ℓ <+: (k.setSlot destination slot channel).leases ℓ := fun ℓ => List.prefix_refl _
    have commit : (k.setSlot destination slot channel).commitSequence T i = k.commitSequence T i := by
      have same := homes.deliver_record delivered (.outputCommit i)
      simp only [Control.commitSequence]
      exact congrArg (fun record : InstanceSuccess => record.key.invocationSequence) same
    have tracks :
        (k.slots (T.atnagentPe i r) (.admission i)).Tracks publicationSequence
          (fun record =>
            ∃ invocation, Admitted T (k.setSlot destination slot channel) (T.atnagentPe i r) i record invocation)
          (max (k.acknowledgements i r).length (k.atnagents i r).admission.key.invocationSequence) := by
      refine book.tracks.mono ?_
      rintro record ⟨invocation, admitted⟩
      exact ⟨invocation, admitted.mono grows sent⟩
    refine book.frame grows sent rfl rfl (Nat.le_of_eq commit.symm) ?_ ?_ ?_ book.enqueued
    · rcases Control.setSlot_delivered delivered (T.atnagentPe i r) (.admission i) with same | ⟨_, _, delivered⟩
      · rw [same]
        exact tracks
      · exact tracks.deliver delivered
    · rw [commit]
      rcases Control.setSlot_delivered delivered (T.atnagentPe i r) (.outputCommit i) with same | ⟨_, _, delivered⟩
      · rw [same]
        exact book.commits
      · exact book.commits.deliver delivered
    · rcases Control.setSlot_delivered delivered T.coordinatorPe (.submission (T.atnagentPe i r) i) with
        same | ⟨_, _, delivered⟩
      · rw [same]
        exact book.submissions
      · exact book.submissions.deliver delivered
  | coordinator _ effect =>
    obtain ⟨entry, granted⟩ := effect.submitted admissions books
    exact ⟨fun i r rank => effect.rankBook admissions leases books (ledgers i r rank) rank, entry, granted⟩
  | atnagent i r rank _ effect =>
    have frame := effect.frame
    have submissions : ∀ i' r', k.submissions i' r' ⊆ k'.submissions i' r' := by
      intro i' r'
      by_cases own : i' = i ∧ r' = r
      · obtain ⟨rfl, rfl⟩ := own
        exact effect.submissions_grow
      · rw [frame.submissions i' r' own]
        exact fun _ => id
    refine ⟨fun i' r' rank' => ?_, fun i' busy => ?_, fun ℓ L invocation granted => ?_⟩
    · by_cases own : i' = i ∧ r' = r
      · obtain ⟨rfl, rfl⟩ := own
        exact effect.rankBook rank books (ledgers _ _ rank) (admissions.rank _ _ rank)
      · have other : ¬(T.atnagentPe i' r' = T.atnagentPe i r ∧ i' = i) := by
          rintro ⟨same, rfl⟩
          exact own ⟨rfl, Topology.atnagentPe_inj rank' rank same⟩
        refine (admissions.rank i' r' rank').same (fun ℓ => by rw [frame.leases]) ?_ (frame.atnagents i' r' own)
          (frame.acknowledgements i' r' own) (frame.submissions i' r' own) ?_ ?_ (frame.slots _ _ (by simp) (by simp))
          (frame.slots _ _ (by simp) (by simp)) (frame.slots _ _ (by simpa using other) (by simp))
        · refine .of_le (by rw [frame.scheduler]) ?_
          rw [frame.coordinator]
          exact id
        · simp only [Control.commitSequence]
          rw [frame.slots _ _ (by simp) (by simp)]
        · rw [Control.enqueuedSequence, Control.enqueuedSequence, frame.scheduler]
    · rw [frame.scheduler] at busy ⊢
      exact (admissions.entry i' busy).mono submissions
    · exact (admissions.granted ℓ L invocation (granted.congr (by rw [frame.leases]))).mono submissions
  | lane p ℓ isLane _ effect =>
    have frame := effect.frame
    have submissions : ∀ i' r', k.submissions i' r' ⊆ k'.submissions i' r' := by
      rw [frame.submissions]
      exact fun _ _ _ => id
    refine ⟨fun i r rank => ?_, fun i' busy => ?_, fun ℓ L invocation granted => ?_⟩
    · refine (admissions.rank i r rank).same (fun ℓ => by rw [frame.leases]) ?_ (by rw [frame.atnagents])
        (by rw [frame.acknowledgements]) (by rw [frame.submissions]) ?_ ?_ (frame.slots _ _ (by simp))
        (frame.slots _ _ (by simp)) (frame.slots _ _ (by simp))
      · refine .of_le (by rw [frame.scheduler]) ?_
        rw [frame.coordinator]
        exact id
      · simp only [Control.commitSequence]
        rw [frame.slots _ _ (by simp)]
      · rw [Control.enqueuedSequence, Control.enqueuedSequence, frame.scheduler]
    · rw [frame.scheduler] at busy ⊢
      exact (admissions.entry i' busy).mono submissions
    · exact (admissions.granted ℓ L invocation (granted.congr (by rw [frame.leases]))).mono submissions

theorem reachable_admissions {V : Type} {K : Kernels V} {policy : PolicyState} {s : State V}
    (reached : (T.fabric K policy).Reachable s) : Admissions T s.control := by
  apply System.ReachableUnder.invariant ?_ ?_ reached
  · rintro s ⟨memory, rfl⟩
    refine ⟨fun i r rank => ?_, fun i busy => absurd rfl busy, ?_⟩
    · refine ⟨.create _, ?_, ?_, ?_, ⟨Nat.zero_le _, ?_⟩, ?_, Nat.zero_le _, .create _, Nat.le_refl _⟩
      · exact fun ahead => absurd ahead (Nat.lt_irrefl 0)
      · exact fun _ => Nat.le_refl 0
      all_goals simp [Topology.create, Channel.create, AtnAgentPc.holding, AtnAgentPc.committed]
    · rintro ℓ L invocation ⟨-, found⟩
      simp [Topology.create] at found
  · intro s event t reached admissions _ taken
    exact (next_control taken).admissions (reachable_homes reached) (reachable_books reached)
      (fun i r rank => reachable_ledger reached rank) (reachable_leases reached) admissions

end Admissions

end CrossPool.Fabric
