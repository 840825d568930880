import CrossPool.Fabric.Books

/-!
# Leases

A lease of a lane is settled once every FfnAgent of its group has published
completion and every rank of its Instance has acknowledged. The Coordinator
infers this from words that may be stale. `Leases` is why the inference is sound:
every granted lease is settled, except the last of a lane while its invocation is
Active on it.
-/

namespace CrossPool.Fabric

open CrossPool.Lib

/-! ## Assignment and settlement -/

/-- The Coordinator has yet to send the lane's last lease to the PE. -/
def CoordinatorPc.withholds (p ℓ : Nat) : CoordinatorPc → Prop
  | writeAdmission _ lane => lane = ℓ
  | publishAdmission _ lane _ _ => lane = ℓ
  | writeLaneExecution _ lane _ => lane = ℓ
  | publishLaneExecution _ lane rest => lane = ℓ ∧ p ∈ rest
  | _ => False

/-- The lease was granted to a group with this PE, and may have been sent to it. -/
structure Assigned (T : Topology) (k : Control) (p ℓ L : Nat) (invocation : Invocation) : Prop where
  granted : k.Granted ℓ L invocation
  member : p ∈ T.group invocation
  bounded : L ≤ maxSequence
  sent : L < k.leaseCount ℓ ∨ ¬k.coordinator.withholds p ℓ

/-- What a lane may find in its publication. -/
def Executable (T : Topology) (k : Control) (p ℓ : Nat) (record : LaneExecution) : Prop :=
  ∃ invocation, Assigned T k p ℓ record.executorLeaseSequence invocation ∧
    record = invocation.execution record.executorLeaseSequence

/-- Every party of the lease is done with it. -/
structure Settled (T : Topology) (k : Control) (ℓ L : Nat) (invocation : Invocation) : Prop where
  completed : ∀ p ∈ T.group invocation, L ∈ k.completions p ℓ
  acknowledged :
    ∀ r, T.isRank invocation.key.instanceIndex r →
      invocation.key.invocationSequence ∈ k.acknowledgements invocation.key.instanceIndex r

/-- The lane executes a lease that it has not completed. -/
def Lane.leased (l : Lane) : Prop :=
  l.lastLeaseSequence < l.execution.executorLeaseSequence

/-- The last lease that the lane has taken from its publication. -/
def Lane.consumed (l : Lane) : Nat :=
  max l.lastLeaseSequence l.execution.executorLeaseSequence

structure LaneBook (T : Topology) (k : Control) (p ℓ : Nat) : Prop where
  tracks : (k.slots p (.laneExecution ℓ)).Tracks publicationSequence (Executable T k p ℓ) (k.lanes p ℓ).consumed
  held :
    (k.lanes p ℓ).leased →
      (k.slots p (.laneExecution ℓ)).flight = [] ∧ (k.slots p (.laneExecution ℓ)).record = (k.lanes p ℓ).execution
  executes : (k.lanes p ℓ).leased → Executable T k p ℓ (k.lanes p ℓ).execution
  engaged : (k.lanes p ℓ).engaged → (k.lanes p ℓ).leased
  waits : (k.lanes p ℓ).pc = .awaitExecution → ¬(k.lanes p ℓ).leased
  completed : ∀ L ∈ k.completions p ℓ, L ≤ (k.lanes p ℓ).lastLeaseSequence ∧ ∃ invocation, Assigned T k p ℓ L invocation
  last : (k.lanes p ℓ).lastLeaseSequence = 0 ∨ (k.lanes p ℓ).lastLeaseSequence ∈ k.completions p ℓ
  staged :
    (k.lanes p ℓ).pc = .quietCompletion →
      (k.slots p (.ffnAgentCompletion p ℓ)).record =
        ⟨(k.lanes p ℓ).execution.key, (k.lanes p ℓ).execution.executorLeaseSequence⟩
  reports :
    (k.slots T.coordinatorPe (.ffnAgentCompletion p ℓ)).Bounded publicationSequence (k.lanes p ℓ).lastLeaseSequence

/-- Every granted lease is settled or the last of its lane, and committed only
once its group has completed it. -/
structure Chain (T : Topology) (k : Control) : Prop where
  bounded : ∀ ℓ L invocation, k.Granted ℓ L invocation →
    ℓ < T.executorLaneCount ∧ invocation.key.instanceIndex < T.instanceCount
  settled : ∀ ℓ L invocation, k.Granted ℓ L invocation →
    Settled T k ℓ L invocation ∨ (L = k.leaseCount ℓ ∧ k.scheduler.Holds invocation ℓ)
  completed : ∀ invocation ℓ, k.scheduler.Holds invocation ℓ →
    (k.commitSequence T invocation.key.instanceIndex = invocation.key.invocationSequence ∨
      k.coordinator = .readCommitFailure invocation.key.instanceIndex ∨
      k.coordinator = .writeCommit invocation.key.instanceIndex) →
    ∀ p ∈ T.group invocation, k.leaseCount ℓ ∈ k.completions p ℓ

structure Leases (T : Topology) (k : Control) : Prop where
  lane : ∀ p ℓ, T.isLane p ℓ → LaneBook T k p ℓ
  chain : Chain T k

section Leases

variable {T : Topology} {k k' : Control} {p ℓ L : Nat} {invocation : Invocation}

/-! ## Consequences -/

theorem Lane.consumed_of_leased {l : Lane} (leased : l.leased) : l.consumed = l.execution.executorLeaseSequence := by
  unfold Lane.leased at leased
  unfold Lane.consumed
  omega

theorem Lane.consumed_of_not_leased {l : Lane} (idle : ¬l.leased) : l.consumed = l.lastLeaseSequence := by
  unfold Lane.leased at idle
  unfold Lane.consumed
  omega

theorem Leases.isLane (leases : Leases T k) (granted : k.Granted ℓ L invocation) (member : p ∈ T.group invocation) :
    T.isLane p ℓ := by
  obtain ⟨low, high⟩ := Topology.ffnagentPes_range member
  exact Topology.isLane_iff.mpr ⟨low, high, (leases.chain.bounded ℓ L invocation granted).1⟩

/-- A settled lease is behind every lane of its group. -/
theorem Leases.behind (leases : Leases T k) (granted : k.Granted ℓ L invocation) (settled : Settled T k ℓ L invocation)
    (member : p ∈ T.group invocation) : L ≤ (k.lanes p ℓ).lastLeaseSequence :=
  ((leases.lane p ℓ (leases.isLane granted member)).completed L (settled.completed p member)).1

/-- A lane only executes the last lease, and its invocation is Active. -/
theorem Leases.executing (leases : Leases T k) (isLane : T.isLane p ℓ) (leased : (k.lanes p ℓ).leased) :
    ∃ invocation, Assigned T k p ℓ (k.leaseCount ℓ) invocation ∧
      (k.lanes p ℓ).execution = invocation.execution (k.leaseCount ℓ) ∧ k.scheduler.Holds invocation ℓ := by
  obtain ⟨invocation, assigned, eq⟩ := (leases.lane p ℓ isLane).executes leased
  rcases leases.chain.settled _ _ _ assigned.granted with settled | ⟨last, holds⟩
  · have behind := leases.behind assigned.granted settled assigned.member
    unfold Lane.leased at leased
    omega
  · rw [last] at assigned eq
    exact ⟨invocation, assigned, eq, holds⟩

/-- A withheld lease is on its way to an Active invocation. -/
theorem Books.withheld (books : Books T k) (withholds : k.coordinator.withholds p ℓ) :
    ∃ invocation, k.scheduler.Holds invocation ℓ := by
  have standing := books.standing
  cases stands : k.coordinator with
  | writeAdmission invocation lane =>
    rw [stands] at standing withholds
    cases withholds
    exact ⟨invocation, standing⟩
  | publishAdmission invocation lane lease rest =>
    rw [stands] at standing withholds
    cases withholds
    exact ⟨invocation, standing.1⟩
  | writeLaneExecution invocation lane lease =>
    rw [stands] at standing withholds
    cases withholds
    exact ⟨invocation, standing.1⟩
  | publishLaneExecution invocation lane rest =>
    rw [stands] at standing withholds
    obtain ⟨rfl, -⟩ := withholds
    exact ⟨invocation, standing.1⟩
  | _ =>
    rw [stands] at withholds
    cases withholds

/-- Where the last lease is withheld, a lane is done with all that it may have. -/
theorem Leases.quiescent (leases : Leases T k) (books : Books T k) (isLane : T.isLane p ℓ) (withholds : k.coordinator.withholds p ℓ) :
    (k.slots p (.laneExecution ℓ)).flight = [] ∧
      (k.slots p (.laneExecution ℓ)).sequence ≤ (k.lanes p ℓ).consumed ∧ ¬(k.lanes p ℓ).leased ∧
      (k.lanes p ℓ).lastLeaseSequence < k.leaseCount ℓ := by
  have book := leases.lane p ℓ isLane
  have idle : ¬(k.lanes p ℓ).leased := by
    intro leased
    obtain ⟨invocation, assigned, -, -⟩ := leases.executing isLane leased
    rcases assigned.sent with before | sent
    · omega
    · exact sent withholds
  have old : ∀ L invocation, Assigned T k p ℓ L invocation → L < k.leaseCount ℓ ∧ L ≤ (k.lanes p ℓ).lastLeaseSequence := by
    intro L invocation assigned
    have before : L < k.leaseCount ℓ := by
      rcases assigned.sent with before | sent
      · exact before
      · exact absurd withholds sent
    rcases leases.chain.settled _ _ _ assigned.granted with settled | ⟨last, -⟩
    · exact ⟨before, leases.behind assigned.granted settled assigned.member⟩
    · omega
  obtain ⟨flight, sequence⟩ := book.tracks.quiescent (by
    rintro record ⟨invocation, assigned, -⟩
    have := (old _ _ assigned).2
    rw [Lane.consumed_of_not_leased idle]
    exact this)
  refine ⟨flight, sequence, idle, ?_⟩
  rcases book.last with zero | member
  · obtain ⟨invocation, holds⟩ := books.withheld withholds
    have := (books.granted holds).le
    omega
  · obtain ⟨-, invocation, assigned⟩ := book.completed _ member
    exact (old _ _ assigned).1

/-! ## Growth -/

/-- Leases are only added, and what was sent stays sent. -/
structure Grows (k k' : Control) : Prop where
  leases : ∀ ℓ, k.leases ℓ <+: k'.leases ℓ
  sent :
    ∀ p ℓ L, L ≤ k.leaseCount ℓ → (L < k.leaseCount ℓ ∨ ¬k.coordinator.withholds p ℓ) →
      (L < k'.leaseCount ℓ ∨ ¬k'.coordinator.withholds p ℓ)

theorem Grows.of_eq (leases : k'.leases = k.leases)
    (sent : ∀ p ℓ, k'.coordinator.withholds p ℓ → k.coordinator.withholds p ℓ) : Grows k k' := by
  refine ⟨fun ℓ => by rw [leases], ?_⟩
  intro p ℓ L _ before
  have counts : k'.leaseCount ℓ = k.leaseCount ℓ := by rw [Control.leaseCount, Control.leaseCount, leases]
  rw [counts]
  exact before.imp_right fun sentBefore withholds => sentBefore (sent p ℓ withholds)

theorem Control.Granted.mono (granted : k.Granted ℓ L invocation) (leases : k.leases ℓ <+: k'.leases ℓ) :
    k'.Granted ℓ L invocation := by
  obtain ⟨nonzero, found⟩ := granted
  obtain ⟨more, eq⟩ := leases
  refine ⟨nonzero, ?_⟩
  rw [← eq, List.getElem?_append_left (List.getElem?_eq_some_iff.mp found).1]
  exact found

theorem Assigned.mono (assigned : Assigned T k p ℓ L invocation) (grows : Grows k k') :
    Assigned T k' p ℓ L invocation where
  granted := assigned.granted.mono (grows.leases ℓ)
  member := assigned.member
  bounded := assigned.bounded
  sent := grows.sent p ℓ L assigned.granted.le.2 assigned.sent

theorem Executable.mono {record : LaneExecution} (executable : Executable T k p ℓ record) (grows : Grows k k') :
    Executable T k' p ℓ record := by
  obtain ⟨invocation, assigned, eq⟩ := executable
  exact ⟨invocation, assigned.mono grows, eq⟩

theorem Settled.mono (settled : Settled T k ℓ L invocation)
    (completions : ∀ p ℓ, k.completions p ℓ ⊆ k'.completions p ℓ)
    (acknowledgements : ∀ i r, k.acknowledgements i r ⊆ k'.acknowledgements i r) : Settled T k' ℓ L invocation where
  completed p member := completions p ℓ (settled.completed p member)
  acknowledged r rank := acknowledgements _ r (settled.acknowledged r rank)

theorem Settled.of_eq (settled : Settled T k ℓ L invocation) (completions : k'.completions = k.completions)
    (acknowledgements : k'.acknowledgements = k.acknowledgements) : Settled T k' ℓ L invocation :=
  settled.mono (fun p ℓ => by rw [completions]; exact fun _ => id) (fun i r => by rw [acknowledgements]; exact fun _ => id)

theorem Scheduler.Holds.congr {scheduler scheduler' : Scheduler} (holds : scheduler.Holds invocation ℓ)
    (same :
      scheduler'.entries invocation.key.instanceIndex = scheduler.entries invocation.key.instanceIndex) :
    scheduler'.Holds invocation ℓ := by
  obtain ⟨state, admitted, lane⟩ := holds
  exact ⟨by rwa [same], by rwa [same], by rwa [same]⟩

/-- Grants in a book that gained nothing on a lane. -/
theorem Control.Granted.congr (granted : k'.Granted ℓ L invocation) (leases : k'.leases ℓ = k.leases ℓ) :
    k.Granted ℓ L invocation := by
  unfold Control.Granted at granted
  rwa [leases] at granted

theorem CoordinatorPc.plain_withholds {pc : CoordinatorPc} (plain : pc.plain) : ¬pc.withholds p ℓ := by
  cases pc <;> simp [CoordinatorPc.plain, CoordinatorPc.withholds] at plain ⊢

theorem CoordinatorControl.grows (effect : CoordinatorControl T k k') : Grows k k' := by
  cases effect with
  | rest pc plain =>
    exact .of_eq rfl fun p ℓ withholds => absurd withholds (CoordinatorPc.plain_withholds plain)
  | reschedule => exact .of_eq rfl fun _ _ => False.elim
  | enqueue => exact .of_eq rfl fun _ _ => False.elim
  | completed => exact .of_eq rfl fun _ _ => False.elim
  | proceed => exact .of_eq rfl fun _ _ => False.elim
  | commit => exact .of_eq rfl fun _ _ => False.elim
  | publishCommit => exact .of_eq rfl fun _ _ => False.elim
  | release => exact .of_eq rfl fun _ _ => False.elim
  | schedule decision scheduler stands scheduled =>
    constructor
    · intro ℓ
      dsimp only
      by_cases here : ℓ = decision.executorLaneIndex
      · subst here
        rw [Function.update_self]
        exact List.prefix_append _ _
      · rw [Function.update_of_ne here]
    · intro p ℓ L le _
      by_cases here : ℓ = decision.executorLaneIndex
      · subst here
        left
        simp only [Control.leaseCount, Function.update_self, List.length_append, List.length_singleton] at le ⊢
        omega
      · exact .inr (Ne.symm here)
  | writeAdmission invocation lane stands =>
    refine .of_eq rfl fun p ℓ withholds => ?_
    rw [stands]
    exact withholds
  | publishAdmission invocation lane lease destination rest stands =>
    refine .of_eq rfl fun p ℓ withholds => ?_
    rw [stands]
    exact withholds
  | admitted invocation lane lease stands =>
    refine .of_eq rfl fun p ℓ withholds => ?_
    rw [stands]
    exact withholds
  | writeLaneExecution invocation lane lease stands =>
    refine .of_eq rfl fun p ℓ withholds => ?_
    rw [stands]
    exact withholds.1
  | publishLaneExecution invocation lane destination rest stands =>
    refine .of_eq rfl fun p ℓ withholds => ?_
    rw [stands]
    exact ⟨withholds.1, List.mem_cons_of_mem _ withholds.2⟩

/-! ## The chain -/

theorem Chain.frame (chain : Chain T k) (entries : k'.scheduler.entries = k.scheduler.entries)
    (leases : k'.leases = k.leases) (completions : ∀ p ℓ, k.completions p ℓ ⊆ k'.completions p ℓ)
    (acknowledgements : ∀ i r, k.acknowledgements i r ⊆ k'.acknowledgements i r)
    (commits : ∀ i, k'.commitSequence T i = k.commitSequence T i)
    (coordinator :
      ∀ i, (k'.coordinator = .readCommitFailure i ∨ k'.coordinator = .writeCommit i) →
        (k.coordinator = .readCommitFailure i ∨ k.coordinator = .writeCommit i)) :
    Chain T k' := by
  have counts : ∀ ℓ, k'.leaseCount ℓ = k.leaseCount ℓ := by
    intro ℓ
    rw [Control.leaseCount, Control.leaseCount, leases]
  have before : ∀ {ℓ L invocation}, k'.Granted ℓ L invocation → k.Granted ℓ L invocation :=
    fun granted => granted.congr (congrFun leases _)
  refine ⟨fun ℓ L invocation granted => chain.bounded ℓ L invocation (before granted), ?_, ?_⟩
  · intro ℓ L invocation granted
    rw [counts]
    rcases chain.settled ℓ L invocation (before granted) with settled | ⟨last, holds⟩
    · exact .inl (settled.mono completions acknowledgements)
    · exact .inr ⟨last, holds.congr (congrFun entries _)⟩
  · intro invocation ℓ holds committed p member
    have heldBefore := holds.congr (congrFun entries.symm _)
    rw [counts]
    rw [commits] at committed
    apply completions p ℓ
    exact chain.completed invocation ℓ heldBefore (committed.imp_right (coordinator _)) p member

theorem Chain.enqueue (chain : Chain T k) {scheduler : Scheduler} {ticket : Nat} {pc : CoordinatorPc}
    (enqueued : k.scheduler.enqueue invocation = some (scheduler, ticket)) (plain : pc.plain) :
    Chain T { k with scheduler := scheduler, coordinator := pc } := by
  obtain ⟨-, -, -, idle, -, entries⟩ := Scheduler.enqueue_eq_some enqueued
  -- the entry that is replaced holds no lane before or after
  have forth : ∀ {held ℓ}, k.scheduler.Holds held ℓ → scheduler.Holds held ℓ := by
    intro held ℓ holds
    apply holds.congr
    rw [entries, Function.update_of_ne]
    intro same
    rw [← same, holds.state] at idle
    cases idle
  have back : ∀ {held ℓ}, scheduler.Holds held ℓ → k.scheduler.Holds held ℓ := by
    intro held ℓ holds
    apply holds.congr
    rw [entries, Function.update_of_ne]
    intro same
    have state := holds.state
    rw [entries, same, Function.update_self] at state
    cases state
  refine ⟨chain.bounded, ?_, ?_⟩
  · intro ℓ L granted wasGranted
    rcases chain.settled ℓ L granted wasGranted with settled | ⟨last, holds⟩
    · exact .inl (settled.of_eq rfl rfl)
    · exact .inr ⟨last, forth holds⟩
  · intro held ℓ holds committed
    apply chain.completed held ℓ (back holds)
    rcases committed with committed | reads | writes
    · exact .inl committed
    · dsimp only at reads
      rw [reads] at plain
      cases plain
    · dsimp only at writes
      rw [writes] at plain
      cases plain

/-- Ready completions are those of the last lease. -/
theorem Leases.inspected (leases : Leases T k) (books : Books T k) (running : k.coordinator ≠ .aborted)
    (unleased : k.coordinator.leasing = none) (holds : k.scheduler.Holds invocation ℓ)
    (ready : T.inspectCompletions k invocation ℓ (k.leaseSequence T ℓ) = .ready) (member : p ∈ T.group invocation) :
    k.leaseCount ℓ ∈ k.completions p ℓ := by
  have granted := books.granted holds
  have book := leases.lane p ℓ (leases.isLane granted member)
  have lease := books.settled running ℓ
  simp only [unleased] at lease
  have reached : k.leaseSequence T ℓ ≤ (k.slots T.coordinatorPe (.ffnAgentCompletion p ℓ)).sequence := by
    simp only [Topology.inspectCompletions, inspectPublications] at ready
    split at ready
    · cases ready
    split at ready
    · cases ready
    next passed =>
    simp only [List.any_map, List.any_eq_true, Function.comp_apply, decide_eq_true_eq, not_exists, not_and, not_lt] at passed
    exact passed p member
  have bound := book.reports.sequence
  have positive := granted.le.1
  rcases book.last with zero | last
  · simp at lease
    omega
  · obtain ⟨-, other, assigned⟩ := book.completed _ last
    have := assigned.granted.le.2
    have exact : (k.lanes p ℓ).lastLeaseSequence = k.leaseCount ℓ := by
      simp at lease
      omega
    rwa [exact] at last

theorem Chain.release (leases : Leases T k) (books : Books T k)
    (ledgers : ∀ i r, T.isRank i r → RankLedger T k i r) {index : Nat} {decision : Decision} {scheduler : Scheduler}
    {pc : CoordinatorPc} (active : k.scheduler.activeDecision index = some decision)
    (committed : (k.slots T.coordinatorPe (.outputCommit index)).record.key = decision.invocation.key)
    (ready : T.inspectAcknowledgements k decision.invocation = .ready)
    (released : k.scheduler.release decision.invocation.key decision.executorLaneIndex = some scheduler)
    (plain : pc.plain) : Chain T { k with scheduler := scheduler, coordinator := pc } := by
  obtain ⟨state, same, lane⟩ := Scheduler.activeDecision_eq_some active
  obtain ⟨-, -, -, -, entries⟩ := Scheduler.release_eq_some released
  have holds := (books.entry index).holds state
  obtain ⟨key, -⟩ := (books.entry index).enqueued (by simp [state])
  rw [same, lane] at holds
  rw [same] at key
  have settled : Settled T k decision.executorLaneIndex (k.leaseCount decision.executorLaneIndex) decision.invocation := by
    constructor
    · intro p member
      apply leases.chain.completed _ _ holds _ p member
      left
      rw [key] at committed ⊢
      simp [Control.commitSequence, committed]
    · intro r rank
      have ledger := ledgers _ r rank
      rw [ledger.mem_acknowledgements]
      refine ⟨by simp [key], ?_⟩
      refine Nat.le_trans ?_ ledger.bounded.sequence
      simp only [Topology.inspectAcknowledgements, inspectPublications] at ready
      split at ready
      · cases ready
      split at ready
      · cases ready
      next passed =>
      simp only [List.any_map, List.any_eq_true, Function.comp_apply, decide_eq_true_eq, not_exists, not_and, not_lt] at passed
      exact passed _ (Topology.atnagentPe_mem rank)
  have back : ∀ {held ℓ}, scheduler.Holds held ℓ → k.scheduler.Holds held ℓ := by
    intro held ℓ holds
    apply holds.congr
    rw [entries, Function.update_of_ne]
    intro same
    have state := holds.state
    rw [entries, same, Function.update_self] at state
    cases state
  refine ⟨leases.chain.bounded, ?_, ?_⟩
  · intro ℓ L invocation granted
    rcases leases.chain.settled ℓ L invocation granted with before | ⟨last, held⟩
    · exact .inl (before.of_eq rfl rfl)
    · by_cases own : invocation.key.instanceIndex = decision.invocation.key.instanceIndex
      · left
        have sameInvocation : invocation = decision.invocation := by
          rw [← held.admitted, own, holds.admitted]
        have sameLane : ℓ = decision.executorLaneIndex := by
          rw [← held.lane, own, holds.lane]
        subst sameInvocation
        subst sameLane
        rw [last]
        exact settled.of_eq rfl rfl
      · right
        refine ⟨last, held.congr ?_⟩
        rw [entries, Function.update_of_ne own]
  · intro held ℓ holds committed
    apply leases.chain.completed held ℓ (back holds)
    rcases committed with committed | reads | writes
    · exact .inl committed
    · dsimp only at reads
      rw [reads] at plain
      cases plain
    · dsimp only at writes
      rw [writes] at plain
      cases plain

theorem Chain.schedule (chain : Chain T k) (books : Books T k) {decision : Decision} {scheduler : Scheduler}
    (scheduled : k.scheduler.trySchedule = some (scheduler, some decision)) :
    Chain T
      { k with
        scheduler := scheduler
        coordinator := .writeAdmission decision.invocation decision.executorLaneIndex
        leases :=
          Function.update k.leases decision.executorLaneIndex
            (k.leases decision.executorLaneIndex ++ [decision.invocation]) } := by
  obtain ⟨-, ⟨impossible, -⟩ | ⟨index, bound, lane, free, state, unoccupied, made, entries⟩⟩ :=
    Scheduler.trySchedule_eq_some scheduled
  · cases impossible
  obtain rfl := Option.some.inj made
  rw [books.instanceCount] at bound
  rw [books.executorLaneCount] at free
  rw [Scheduler.not_occupied_iff, books.instanceCount] at unoccupied
  obtain ⟨key, -⟩ := (books.entry index).enqueued (by simp [state])
  have own := congrFun entries index
  rw [Function.update_self] at own
  have vacant : ∀ held, ¬k.scheduler.Holds held lane := by
    intro held holds
    exact unoccupied _ ((books.entry _).bounded (by simp [holds.state])) holds.state holds.lane
  have forth : ∀ {held ℓ}, k.scheduler.Holds held ℓ → scheduler.Holds held ℓ := by
    intro held ℓ holds
    apply holds.congr
    rw [entries, Function.update_of_ne]
    intro same
    rw [← same, holds.state] at state
    cases state
  have elsewhere : ∀ {ℓ L invocation}, ℓ ≠ lane →
      Control.Granted { k with leases := Function.update k.leases lane (k.leases lane ++ [(k.scheduler.entries index).invocation]) }
        ℓ L invocation → k.Granted ℓ L invocation :=
    fun ne granted => granted.congr (Function.update_of_ne ne _ _)
  have here : ∀ {L invocation},
      Control.Granted { k with leases := Function.update k.leases lane (k.leases lane ++ [(k.scheduler.entries index).invocation]) }
        lane L invocation →
        k.Granted lane L invocation ∨ (L = k.leaseCount lane + 1 ∧ invocation = (k.scheduler.entries index).invocation) := by
    rintro L invocation ⟨nonzero, found⟩
    simp only [Function.update_self] at found
    rcases Nat.lt_or_ge (L - 1) (k.leases lane).length with old | new
    · rw [List.getElem?_append_left old] at found
      exact .inl ⟨nonzero, found⟩
    · rw [List.getElem?_append_right new, List.getElem?_singleton] at found
      split at found
      · right
        refine ⟨?_, (Option.some.inj found).symm⟩
        unfold Control.leaseCount
        omega
      · cases found
  refine ⟨?_, ?_, ?_⟩
  · intro ℓ L invocation granted
    by_cases same : ℓ = lane
    · subst same
      rcases here granted with old | ⟨-, rfl⟩
      · exact chain.bounded ℓ L invocation old
      · exact ⟨free, by rw [key]; exact bound⟩
    · exact chain.bounded ℓ L invocation (elsewhere same granted)
  · intro ℓ L invocation granted
    by_cases same : ℓ = lane
    · subst same
      rcases here granted with old | ⟨rfl, rfl⟩
      · -- nobody holds the lane, so every earlier lease is settled
        rcases chain.settled ℓ L invocation old with settled | ⟨-, holds⟩
        · exact .inl (settled.of_eq rfl rfl)
        · exact absurd holds (vacant invocation)
      · right
        refine ⟨by simp [Control.leaseCount], ?_, ?_, ?_⟩
        all_goals simp [key, own]
    · rcases chain.settled ℓ L invocation (elsewhere same granted) with settled | ⟨last, holds⟩
      · exact .inl (settled.of_eq rfl rfl)
      · right
        refine ⟨?_, forth holds⟩
        simpa [Control.leaseCount, Function.update_of_ne same] using last
  · intro held ℓ holds committed p member
    rcases committed with committed | reads | writes
    · by_cases same : held.key.instanceIndex = index
      · -- the scheduled invocation is not committed yet
        have admitted := holds.admitted
        rw [same] at admitted committed
        simp only [own] at admitted
        have uncommitted := (books.entry index).ready state
        rw [← admitted, key] at committed
        have : k.commitSequence T index = (k.scheduler.entries index).completedSequence + 1 := committed
        omega
      · have heldBefore : k.scheduler.Holds held ℓ := by
          apply holds.congr
          rw [entries, Function.update_of_ne same]
        have apart : ℓ ≠ lane := by
          rintro rfl
          exact vacant held heldBefore
        have done := chain.completed held ℓ heldBefore (.inl committed) p member
        simpa [Control.leaseCount, Function.update_of_ne apart] using done
    · cases reads
    · cases writes

theorem Chain.commit (chain : Chain T k) {index : Nat} (stands : k.coordinator = .writeCommit index) {pc : CoordinatorPc}
    (plain : ∀ i, pc ≠ .readCommitFailure i ∧ pc ≠ .writeCommit i) :
    Chain T
      { k.store T.coordinatorPe (.outputCommit index) ⟨(k.scheduler.entries index).invocation.key⟩ with
        coordinator := pc } := by
  refine ⟨chain.bounded, ?_, ?_⟩
  · intro ℓ L invocation granted
    rcases chain.settled ℓ L invocation granted with settled | held
    · exact .inl (settled.of_eq rfl rfl)
    · exact .inr held
  · intro invocation ℓ holds committed
    by_cases same : invocation.key.instanceIndex = index
    · subst same
      exact chain.completed invocation ℓ holds (.inr (.inr stands))
    · rcases committed with committed | reads | writes
      · apply chain.completed invocation ℓ holds
        left
        simp only [Control.commitSequence] at committed ⊢
        rwa [Control.store_record _ (by simpa using same)] at committed
      · exact absurd reads (plain _).1
      · exact absurd writes (plain _).2

theorem CoordinatorControl.chain (effect : CoordinatorControl T k k') (leases : Leases T k) (books : Books T k)
    (ledgers : ∀ i r, T.isRank i r → RankLedger T k i r) : Chain T k' := by
  have chain := leases.chain
  -- a step that neither schedules, releases nor commits
  have quiet : ∀ {k' : Control}, k'.scheduler.entries = k.scheduler.entries → k'.leases = k.leases →
      k'.completions = k.completions → k'.acknowledgements = k.acknowledgements →
      (∀ i, k'.commitSequence T i = k.commitSequence T i) →
      (∀ i, k'.coordinator ≠ .readCommitFailure i ∧ k'.coordinator ≠ .writeCommit i) → Chain T k' := by
    intro k' entries leases completions acknowledgements commits plain
    refine chain.frame entries leases (fun p ℓ => by rw [completions]; exact fun _ => id)
      (fun i r => by rw [acknowledgements]; exact fun _ => id) commits ?_
    rintro i (reads | writes)
    · exact absurd reads (plain i).1
    · exact absurd writes (plain i).2
  have stored : ∀ {slot : Slot} (record : slot.Record), (∀ i, Slot.outputCommit i ≠ slot) →
      ∀ i, (k.store T.coordinatorPe slot record).commitSequence T i = k.commitSequence T i := by
    intro slot record other i
    simp only [Control.commitSequence]
    rw [Control.store_record _ (other i)]
  have published : ∀ (slot : Slot) (destination i : Nat),
      (k.publish T.coordinatorPe destination slot).commitSequence T i = k.commitSequence T i := by
    intro slot destination i
    simp only [Control.commitSequence]
    rw [Control.publish_record]
  cases effect with
  | rest pc plain =>
    refine quiet rfl rfl rfl rfl (fun _ => rfl) fun i => ?_
    constructor
    · rintro rfl
      cases plain
    · rintro rfl
      cases plain
  | reschedule scheduler stands scheduled =>
    exact quiet (Scheduler.trySchedule_eq_none scheduled).2 rfl rfl rfl (fun _ => rfl) (by simp)
  | enqueue index invocation scheduler ticket stands bound idle ready enqueued => exact chain.enqueue enqueued rfl
  | completed index decision active uncommitted stands ready =>
    obtain ⟨state, same, lane⟩ := Scheduler.activeDecision_eq_some active
    have holds := (books.entry index).holds state
    rw [same, lane] at holds
    have done : ∀ p ∈ T.group decision.invocation,
        k.leaseCount decision.executorLaneIndex ∈ k.completions p decision.executorLaneIndex :=
      fun p member =>
        leases.inspected books (by simp [stands]) (by simp [stands, CoordinatorPc.leasing]) holds ready member
    refine ⟨chain.bounded, ?_, ?_⟩
    · intro ℓ L invocation granted
      rcases chain.settled ℓ L invocation granted with settled | held
      · exact .inl (settled.of_eq rfl rfl)
      · exact .inr held
    · intro invocation ℓ held committed p member
      rcases committed with committed | reads | writes
      · exact chain.completed invocation ℓ held (.inl committed) p member
      · obtain rfl : index = invocation.key.instanceIndex := by simpa using reads
        obtain rfl : decision.invocation = invocation := by rw [← same, held.admitted]
        obtain rfl : decision.executorLaneIndex = ℓ := by rw [← lane, held.lane]
        exact done p member
      · cases writes
  | proceed index stands =>
    refine chain.frame rfl rfl (fun _ _ _ => id) (fun _ _ _ => id) (fun _ => rfl) ?_
    rintro i (reads | writes)
    · cases reads
    · obtain rfl : index = i := by simpa using writes
      exact .inl stands
  | commit index stands => exact chain.commit stands (by simp)
  | publishCommit index destination rest stands => exact quiet rfl rfl rfl rfl (published _ _) (by simp)
  | release index decision scheduler active committed stands ready released =>
    exact Chain.release leases books ledgers active committed ready released rfl
  | schedule decision scheduler stands scheduled => exact chain.schedule books scheduled
  | writeAdmission => exact quiet rfl rfl rfl rfl (stored _ (by simp)) (by simp)
  | publishAdmission => exact quiet rfl rfl rfl rfl (published _ _) (by simp)
  | admitted => exact quiet rfl rfl rfl rfl (fun _ => rfl) (by simp)
  | writeLaneExecution => exact quiet rfl rfl rfl rfl (stored _ (by simp)) (by simp)
  | publishLaneExecution => exact quiet rfl rfl rfl rfl (published _ _) (by simp)

/-! ## The lanes -/

/-- A book depends on nothing but the lane, its publications and what is assigned
to it. -/
theorem LaneBook.frame (book : LaneBook T k p ℓ) (grows : Grows k k') (lane : k'.lanes p ℓ = k.lanes p ℓ)
    (completions : k'.completions p ℓ = k.completions p ℓ)
    (tracks :
      (k'.slots p (.laneExecution ℓ)).Tracks publicationSequence (Executable T k' p ℓ) (k.lanes p ℓ).consumed)
    (held :
      (k.lanes p ℓ).leased →
        (k'.slots p (.laneExecution ℓ)).flight = [] ∧ (k'.slots p (.laneExecution ℓ)).record = (k.lanes p ℓ).execution)
    (staged :
      (k'.slots p (.ffnAgentCompletion p ℓ)).record = (k.slots p (.ffnAgentCompletion p ℓ)).record)
    (reports :
      (k'.slots T.coordinatorPe (.ffnAgentCompletion p ℓ)).Bounded publicationSequence (k.lanes p ℓ).lastLeaseSequence) :
    LaneBook T k' p ℓ := by
  refine ⟨?_, ?_, ?_, ?_, ?_, ?_, ?_, ?_, ?_⟩
  all_goals simp only [lane]
  · exact tracks
  · exact held
  · exact fun leased => (book.executes leased).mono grows
  · exact book.engaged
  · exact book.waits
  · rw [completions]
    intro L member
    obtain ⟨le, invocation, assigned⟩ := book.completed L member
    exact ⟨le, invocation, assigned.mono grows⟩
  · rw [completions]
    exact book.last
  · rw [staged]
    exact book.staged
  · exact reports

/-- Nothing that the lane reads has changed. -/
theorem LaneBook.same (book : LaneBook T k p ℓ) (grows : Grows k k') (lane : k'.lanes p ℓ = k.lanes p ℓ)
    (completions : k'.completions p ℓ = k.completions p ℓ)
    (execution : k'.slots p (.laneExecution ℓ) = k.slots p (.laneExecution ℓ))
    (completion : ∀ pe, k'.slots pe (.ffnAgentCompletion p ℓ) = k.slots pe (.ffnAgentCompletion p ℓ)) :
    LaneBook T k' p ℓ := by
  refine book.frame grows lane completions ?_ ?_ ?_ ?_
  · rw [execution]
    exact book.tracks.mono fun record executable => executable.mono grows
  · rw [execution]
    exact book.held
  · rw [completion]
  · rw [completion]
    exact book.reports

theorem CoordinatorControl.laneBook (effect : CoordinatorControl T k k') (leases : Leases T k) (books : Books T k)
    (isLane : T.isLane p ℓ) : LaneBook T k' p ℓ := by
  have book := leases.lane p ℓ isLane
  have grows := effect.grows
  have frame := effect.frame
  have lane : k'.lanes p ℓ = k.lanes p ℓ := by rw [frame.lanes]
  have completions : k'.completions p ℓ = k.completions p ℓ := by rw [frame.completions]
  have completion : ∀ pe, k'.slots pe (.ffnAgentCompletion p ℓ) = k.slots pe (.ffnAgentCompletion p ℓ) :=
    fun pe => frame.slots pe _ rfl
  have untouched : k'.slots p (.laneExecution ℓ) = k.slots p (.laneExecution ℓ) → LaneBook T k' p ℓ :=
    fun execution => book.same grows lane completions execution completion
  have standing := books.standing
  cases effect with
  | rest => exact untouched rfl
  | reschedule => exact untouched rfl
  | enqueue => exact untouched rfl
  | completed => exact untouched rfl
  | proceed => exact untouched rfl
  | commit => exact untouched (Control.setSlot_of_slot_ne _ (by simp))
  | publishCommit => exact untouched (Control.setSlot_of_slot_ne _ (by simp))
  | release => exact untouched rfl
  | schedule => exact untouched rfl
  | writeAdmission => exact untouched (Control.setSlot_of_slot_ne _ (by simp))
  | publishAdmission => exact untouched (Control.setSlot_of_slot_ne _ (by simp))
  | admitted => exact untouched rfl
  | writeLaneExecution invocation lane' lease stands =>
    by_cases here : p = T.coordinatorPe ∧ ℓ = lane'
    · obtain ⟨rfl, rfl⟩ := here
      have withholds : k.coordinator.withholds T.coordinatorPe ℓ := by
        rw [stands]
        exact rfl
      obtain ⟨flight, stale, idle, -⟩ := leases.quiescent books isLane withholds
      refine book.frame grows lane completions ?_ (fun leased => absurd leased idle) ?_ ?_
      · dsimp only [Control.store]
        rw [Control.setSlot_same]
        exact Channel.Tracks.store flight stale _
      · rw [completion]
      · rw [completion]
        exact book.reports
    · apply untouched
      dsimp only [Control.store]
      by_cases same : ℓ = lane'
      · rw [Control.setSlot_of_pe_ne]
        exact fun eq => here ⟨eq, same⟩
      · exact Control.setSlot_of_slot_ne _ (by simpa using same)
  | publishLaneExecution invocation lane' destination rest stands =>
    rw [stands] at standing
    obtain ⟨holds, record, suffix⟩ := standing
    by_cases here : p = destination ∧ ℓ = lane'
    · obtain ⟨rfl, rfl⟩ := here
      have withholds : k.coordinator.withholds p ℓ := by
        rw [stands]
        exact ⟨rfl, List.mem_cons_self⟩
      obtain ⟨flight, stale, idle, before⟩ := leases.quiescent books isLane withholds
      have sequence : k.leaseSequence T ℓ = k.leaseCount ℓ := by
        rw [Control.leaseSequence, record]
        rfl
      refine book.frame grows lane completions ?_ (fun leased => absurd leased idle) ?_ ?_
      · dsimp only [Control.publish]
        rw [Control.setSlot_same, record]
        apply Channel.Tracks.send flight stale
        · refine ⟨invocation, ⟨books.granted holds, suffix.subset List.mem_cons_self, ?_, ?_⟩, rfl⟩
          · have := books.sequence ℓ
            show k.leaseCount ℓ ≤ maxSequence
            omega
          · right
            rintro ⟨-, again⟩
            have nodup : (p :: rest).Nodup := suffix.sublist.nodup Topology.ffnagentPes_nodup
            exact (List.nodup_cons.mp nodup).1 again
        · rw [Lane.consumed_of_not_leased idle]
          exact before
        · intro landed
          obtain rfl : T.coordinatorPe = p := by simpa using landed
          exact record
      · rw [completion]
      · rw [completion]
        exact book.reports
    · apply untouched
      dsimp only [Control.publish]
      by_cases same : ℓ = lane'
      · rw [Control.setSlot_of_pe_ne]
        exact fun eq => here ⟨eq, same⟩
      · exact Control.setSlot_of_slot_ne _ (by simpa using same)

/-- The word that a waiting lane takes is beyond its last lease. -/
theorem LaneBook.fresh (book : LaneBook T k p ℓ) (stands : (k.lanes p ℓ).pc = .awaitExecution)
    (unwrapped : ((k.lanes p ℓ).lastLeaseSequence + 1) % 2 ^ 64 ≠ 0)
    (reached : ((k.lanes p ℓ).lastLeaseSequence + 1) % 2 ^ 64 ≤ (k.slots p (.laneExecution ℓ)).sequence) :
    (k.lanes p ℓ).consumed < (k.slots p (.laneExecution ℓ)).sequence := by
  rw [Lane.consumed_of_not_leased (book.waits stands)]
  have small : (k.lanes p ℓ).lastLeaseSequence < 2 ^ 64 := by
    rcases book.last with zero | member
    · omega
    · obtain ⟨-, invocation, assigned⟩ := book.completed _ member
      have := assigned.bounded
      unfold maxSequence at this
      omega
  omega

theorem LaneControl.book (effect : LaneControl T k p ℓ k') (isLane : T.isLane p ℓ) (leases : Leases T k) :
    LaneBook T k' p ℓ := by
  have book := leases.lane p ℓ isLane
  have frame := effect.frame
  have grows : Grows k k' := by
    refine .of_eq frame.leases fun p ℓ => ?_
    rw [frame.coordinator]
    exact id
  have assigned : ∀ L ∈ k.completions p ℓ,
      L ≤ (k.lanes p ℓ).lastLeaseSequence ∧ ∃ invocation, Assigned T k' p ℓ L invocation := by
    intro L member
    obtain ⟨le, invocation, assigned⟩ := book.completed L member
    exact ⟨le, invocation, assigned.mono grows⟩
  have execution : k'.slots p (.laneExecution ℓ) = k.slots p (.laneExecution ℓ) := frame.slots _ _ (by simp)
  have tracks := book.tracks.mono fun record executable => executable.mono grows
  cases effect with
  | stay => exact book
  | move pc terminal sticky engaged leaves unstaged =>
    refine ⟨?_, ?_, ?_, ?_, ?_, ?_, ?_, ?_, ?_⟩
    all_goals simp only [Control.setLane, update₂_same]
    · exact tracks
    · exact book.held
    · exact fun leased => (book.executes leased).mono grows
    · exact fun still => book.engaged (engaged still)
    · exact fun waits => absurd waits leaves
    · exact assigned
    · exact book.last
    · exact fun staged => absurd staged unstaged
    · exact book.reports
  | observe l stands unwrapped reached taken last selected =>
    have fresh := book.fresh stands unwrapped reached
    obtain ⟨flight, executable, number⟩ := book.tracks.fresh fresh
    have lease : l.execution.executorLeaseSequence = (k.slots p (.laneExecution ℓ)).sequence := by
      rw [taken]
      exact number
    have before := fresh
    rw [Lane.consumed_of_not_leased (book.waits stands)] at before
    have leased : l.leased := by
      unfold Lane.leased
      omega
    refine ⟨?_, ?_, ?_, ?_, ?_, ?_, ?_, ?_, ?_⟩
    all_goals simp only [Control.setLane, update₂_same]
    · rw [Lane.consumed_of_leased leased, lease]
      exact tracks.consume fresh
    · exact fun _ => ⟨flight, taken.symm⟩
    · intro _
      rw [taken]
      exact executable.mono grows
    · exact fun _ => leased
    · intro waits
      rcases selected with ⟨pc, -⟩ | ⟨pc, -⟩ <;> simp [pc] at waits
    · rw [last]
      exact assigned
    · rw [last]
      exact book.last
    · intro staged
      rcases selected with ⟨pc, -⟩ | ⟨pc, -⟩ <;> simp [pc] at staged
    · rw [last]
      exact book.reports
  | stage stands live =>
    have leased := book.engaged (by simp [Lane.engaged, stands, live])
    refine ⟨?_, ?_, ?_, ?_, ?_, ?_, ?_, ?_, ?_⟩
    all_goals simp only [Control.setLane, update₂_same]
    · rw [show (k.store p _ _).slots p (.laneExecution ℓ) = k.slots p (.laneExecution ℓ) from execution]
      exact tracks
    · rw [show (k.store p _ _).slots p (.laneExecution ℓ) = k.slots p (.laneExecution ℓ) from execution]
      exact book.held
    · exact fun leased => (book.executes leased).mono grows
    · exact fun _ => leased
    · simp
    · exact assigned
    · exact book.last
    · intro _
      rw [Control.store, Control.setSlot_same]
      rfl
    · rw [Control.store]
      by_cases here : T.coordinatorPe = p
      · subst here
        rw [Control.setSlot_same]
        exact book.reports.store _
      · rw [Control.setSlot_of_pe_ne _ here]
        exact book.reports
  | complete stands =>
    have leased := book.engaged (by simp [Lane.engaged, stands])
    have staged := book.staged stands
    have consumed := Lane.consumed_of_leased leased
    obtain ⟨invocation, executes, -⟩ := book.executes leased
    refine ⟨?_, ?_, ?_, ?_, ?_, ?_, ?_, ?_, ?_⟩
    all_goals simp only [update₂_same]
    · rw [show (k.publish p _ _).slots p (.laneExecution ℓ) = k.slots p (.laneExecution ℓ) from execution]
      rw [consumed] at tracks
      simpa [Lane.consumed] using tracks
    · simp [Lane.leased]
    · simp [Lane.leased]
    · simp [Lane.engaged]
    · simp [Lane.leased]
    · intro L member
      rcases List.mem_append.mp member with old | new
      · obtain ⟨le, others⟩ := assigned L old
        unfold Lane.leased at leased
        exact ⟨by omega, others⟩
      · obtain rfl := List.mem_singleton.mp new
        exact ⟨Nat.le_refl _, invocation, executes.mono grows⟩
    · right
      simp
    · simp
    · rw [Control.publish, Control.setSlot_same, staged]
      unfold Lane.leased at leased
      apply (book.reports.mono (Nat.le_of_lt leased)).send
      exact Nat.le_refl _

/-! ## Every event -/

theorem ControlStep.leases (step : ControlStep T k k') (homes : Homes T k) (books : Books T k)
    (ledgers : ∀ i r, T.isRank i r → RankLedger T k i r) (leases : Leases T k) : Leases T k' := by
  cases step with
  | same => exact leases
  | deliver destination slot delivery channel written delivered =>
    constructor
    · intro p ℓ isLane
      have book := leases.lane p ℓ isLane
      have grows : Grows k (k.setSlot destination slot channel) := .of_eq rfl fun _ _ => id
      have tracks := book.tracks.mono fun record executable => executable.mono grows
      refine book.frame grows rfl rfl ?_ ?_ ?_ ?_
      · rcases Control.setSlot_delivered delivered p (.laneExecution ℓ) with same | ⟨delivery, written, delivered⟩
        · rw [same]
          exact tracks
        · exact tracks.deliver delivered
      · intro leased
        obtain ⟨flight, record⟩ := book.held leased
        rcases Control.setSlot_delivered delivered p (.laneExecution ℓ) with same | ⟨delivery, written, delivered⟩
        · rw [same]
          exact ⟨flight, record⟩
        · obtain ⟨put, q, found, -⟩ := Channel.deliver_cases delivered
          simp [flight] at found
      · exact homes.deliver_record delivered (.ffnAgentCompletion p ℓ)
      · rcases Control.setSlot_delivered delivered T.coordinatorPe (.ffnAgentCompletion p ℓ) with
          same | ⟨delivery, written, delivered⟩
        · rw [same]
          exact book.reports
        · exact book.reports.deliver delivered
    · refine leases.chain.frame rfl rfl (fun _ _ _ => id) (fun _ _ _ => id) (fun i => ?_) fun _ => id
      have same := homes.deliver_record delivered (.outputCommit i)
      simp only [Control.commitSequence]
      exact congrArg (fun record : InstanceSuccess => record.key.invocationSequence) same
  | coordinator _ effect =>
    exact ⟨fun p ℓ isLane => effect.laneBook leases books isLane, effect.chain leases books ledgers⟩
  | atnagent i r rank _ effect =>
    have frame := effect.frame
    have grows : Grows k k' := by
      refine .of_eq frame.leases fun p ℓ => ?_
      rw [frame.coordinator]
      exact id
    constructor
    · intro p ℓ isLane
      refine (leases.lane p ℓ isLane).same grows (by rw [frame.lanes]) (by rw [frame.completions])
        (frame.slots _ _ (by simp) (by simp)) fun pe => frame.slots _ _ (by simp) (by simp)
    · refine leases.chain.frame (by rw [frame.scheduler]) frame.leases (fun p ℓ => ?_) (fun i' r' => ?_) (fun i => ?_) fun i => ?_
      · rw [frame.completions]
        exact fun _ => id
      · by_cases own : i' = i ∧ r' = r
        · obtain ⟨rfl, rfl⟩ := own
          exact effect.acknowledgements_grow
        · rw [frame.acknowledgements i' r' own]
          exact fun _ => id
      · simp only [Control.commitSequence]
        rw [frame.slots _ _ (by simp) (by simp)]
      · rw [frame.coordinator]
        exact id
  | lane p ℓ isLane _ effect =>
    have frame := effect.frame
    have grows : Grows k k' := by
      refine .of_eq frame.leases fun p ℓ => ?_
      rw [frame.coordinator]
      exact id
    constructor
    · intro p' ℓ' isLane'
      by_cases own : p' = p ∧ ℓ' = ℓ
      · obtain ⟨rfl, rfl⟩ := own
        exact effect.book isLane leases
      · exact (leases.lane p' ℓ' isLane').same grows (frame.lanes p' ℓ' own) (frame.completions p' ℓ' own)
          (frame.slots _ _ (by simp)) fun pe => frame.slots _ _ (by simpa using own)
    · refine leases.chain.frame (by rw [frame.scheduler]) frame.leases (fun p' ℓ' => ?_) (fun i r => ?_) (fun i => ?_) fun i => ?_
      · by_cases own : p' = p ∧ ℓ' = ℓ
        · obtain ⟨rfl, rfl⟩ := own
          exact effect.completions_grow
        · rw [frame.completions p' ℓ' own]
          exact fun _ => id
      · rw [frame.acknowledgements]
        exact fun _ => id
      · simp only [Control.commitSequence]
        rw [frame.slots _ _ (by simp)]
      · rw [frame.coordinator]
        exact id

theorem reachable_leases {V : Type} {K : Kernels V} {policy : PolicyState} {s : State V}
    (reached : (T.fabric K policy).Reachable s) : Leases T s.control := by
  apply System.ReachableUnder.invariant ?_ ?_ reached
  · rintro s ⟨memory, rfl⟩
    refine ⟨fun p ℓ isLane => ?_, ?_, ?_, ?_⟩
    · refine ⟨.create _, ?_, ?_, ?_, ?_, ?_, .inl rfl, ?_, ⟨Nat.zero_le _, ?_⟩⟩
      all_goals simp [Topology.create, Lane.leased, Lane.engaged, Channel.create, default]
    · rintro ℓ L invocation ⟨-, found⟩
      simp [Topology.create] at found
    · rintro ℓ L invocation ⟨-, found⟩
      simp [Topology.create] at found
    · rintro invocation ℓ ⟨state, -, -⟩
      simp [Topology.create, Scheduler.create, default] at state
  · intro s event t reached leases _ taken
    exact (next_control taken).leases (reachable_homes reached) (reachable_books reached)
      (fun i r rank => reachable_ledger reached rank) leases

end Leases

end CrossPool.Fabric
