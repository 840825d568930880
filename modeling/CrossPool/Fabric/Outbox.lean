import CrossPool.Fabric.Post

/-!
# Outgoing and incoming publications

The invariant `Post` between the log of payload publications and the state. The
records are read from memory that others may write, so the log is tied to the
slots they travel through: what is in flight or beyond the last lease of a lane is
in the log, and a sender's record stays in its memory until it is sent.
-/

namespace CrossPool.Fabric

open CrossPool.Lib

/-! ## Plans of the senders -/

section Plans

variable {T : Topology} {execution : LaneExecution} {p q ℓ : Nat}

theorem executionPes_nodup (execution : LaneExecution) : (T.executionPes execution).Nodup :=
  Topology.ffnagentPes_nodup

/-- Only a member of the group is sent anything. -/
theorem sender_mem {slot : PayloadSlot} {sender : Sender} (owed : T.sender execution p slot = some sender) :
    p ∈ T.executionPes execution := by
  cases slot with
  | inputReady lane =>
    simp only [Topology.sender] at owed
    split at owed
    · assumption
    · cases owed
  | routingMetadataReady lane =>
    simp only [Topology.sender] at owed
    split at owed
    · next owner rest pes =>
      split at owed
      · next member =>
        rw [pes]
        exact List.mem_cons_of_mem _ member.2
      · cases owed
    · cases owed
  | partialReady source lane =>
    simp only [Topology.sender] at owed
    split at owed
    · next member => exact member.2.1
    · cases owed

/-- A lane that owes something is of the group. -/
theorem sender_source {slot : PayloadSlot} (owed : T.sender execution p slot = some (.lane q ℓ)) :
    q ∈ T.executionPes execution := by
  cases slot with
  | inputReady lane =>
    simp only [Topology.sender] at owed
    split at owed <;> cases owed
  | routingMetadataReady lane =>
    simp only [Topology.sender] at owed
    split at owed
    · next owner rest pes =>
      split at owed
      · obtain ⟨rfl, -⟩ := Sender.lane.inj (Option.some.inj owed)
        rw [pes]
        exact List.mem_cons_self
      · cases owed
    · cases owed
  | partialReady origin lane =>
    simp only [Topology.sender] at owed
    split at owed
    · next member =>
      obtain ⟨rfl, -⟩ := Sender.lane.inj (Option.some.inj owed)
      exact member.2.2.1
    · cases owed

/-- The group of ranks as wide as the product of its two sizes. -/
theorem atnagentPes_length (i : Nat) (bound : i < T.instanceCount) :
    (T.instanceEntry i).atnTpSize * (T.instanceEntry i).atnDpSize = (T.atnagentPes i).length := by
  have valid := T.valid
  simp only [ArenaProjection.validate, Bool.and_eq_true, List.all_eq_true] at valid
  have own := valid.2 _ (List.getElem_mem bound)
  simp only [Instance.validate, Bool.and_eq_true, decide_eq_true_eq] at own
  have entry : T.instanceEntry i = T.instances[i] := List.getD_eq_getElem _ _ bound
  rw [Topology.atnagentPes, entry]
  exact own.1.1.1.1.2

theorem pairedPes_nodup (i layer r : Nat) : (T.pairedPes i layer r).Nodup := by
  have distinct : (T.ffnagentPes i layer).Nodup := Topology.ffnagentPes_nodup
  simp only [Topology.pairedPes]
  refine List.Nodup.map_on ?_ (List.nodup_range.filter _)
  intro a first b second same
  have here := List.mem_range.mp (List.mem_filter.mp first).1
  have there := List.mem_range.mp (List.mem_filter.mp second).1
  rw [List.getD_eq_getElem _ _ here, List.getD_eq_getElem _ _ there] at same
  exact distinct.getElem_inj_iff.mp same

/-- The pairing is the modulo of the TP rank. -/
theorem mem_pairedPes {i layer r : Nat} :
    p ∈ T.pairedPes i layer r ↔
      p ∈ T.ffnagentPes i layer ∧
        (T.ffnagentPes i layer).idxOf p % ((T.instanceEntry i).atnTpSize * (T.instanceEntry i).atnDpSize) = r := by
  have distinct : (T.ffnagentPes i layer).Nodup := Topology.ffnagentPes_nodup
  simp only [Topology.pairedPes, List.mem_map, List.mem_filter, List.mem_range, decide_eq_true_eq]
  constructor
  · rintro ⟨rank, ⟨bound, paired⟩, rfl⟩
    rw [List.getD_eq_getElem _ _ bound, distinct.idxOf_getElem]
    exact ⟨List.getElem_mem bound, paired⟩
  · rintro ⟨member, paired⟩
    refine ⟨_, ⟨List.idxOf_lt_length_of_mem member, paired⟩, ?_⟩
    rw [List.getD_eq_getElem _ _ (List.idxOf_lt_length_of_mem member), List.getElem_idxOf]

theorem mem_routingPlan (owner : q ∈ T.executionPes execution) :
    p ∈ T.routingPlan execution q ↔ T.sender execution p (.routingMetadataReady ℓ) = some (.lane q ℓ) := by
  have distinct := executionPes_nodup (T := T) execution
  simp only [Topology.routingPlan, Topology.sender]
  cases pes : T.executionPes execution with
  | nil => simp [pes] at owner
  | cons first rest =>
    rw [pes] at distinct
    have fresh := (List.nodup_cons.mp distinct).1
    by_cases same : first = q
    · subst same
      simp
    · simp [same]

theorem routingPlan_nodup (execution : LaneExecution) (p : Nat) : (T.routingPlan execution p).Nodup := by
  simp only [Topology.routingPlan]
  split
  · exact (executionPes_nodup execution).tail
  · exact List.nodup_nil

theorem mem_partialPlan (source : q ∈ T.executionPes execution) :
    p ∈ T.partialPlan execution q ↔ T.sender execution p (.partialReady q ℓ) = some (.lane q ℓ) := by
  have distinct := executionPes_nodup (T := T) execution
  have active : T.activeReaderCount execution = min execution.payloadRows (T.executionPes execution).length := rfl
  simp only [Topology.partialPlan, Topology.sender]
  split
  · next complete =>
    simp only [List.mem_map, List.mem_filter, List.mem_range, decide_eq_true_eq, complete, true_and, source]
    constructor
    · rintro ⟨rank, ⟨bound, other⟩, rfl⟩
      have inside : rank < (T.executionPes execution).length := by omega
      rw [List.getD_eq_getElem _ _ inside, distinct.idxOf_getElem]
      rw [if_pos]
      refine ⟨List.getElem_mem inside, ?_, by omega⟩
      rintro rfl
      rw [distinct.idxOf_getElem] at other
      exact other rfl
    · intro owed
      split at owed
      · next reads =>
        obtain ⟨member, other, bound⟩ := reads
        have inside := List.idxOf_lt_length_of_mem member
        refine ⟨(T.executionPes execution).idxOf p, ⟨by omega, ?_⟩, ?_⟩
        · intro same
          exact other (List.idxOf_inj source |>.mp same.symm)
        · rw [List.getD_eq_getElem _ _ inside, List.getElem_idxOf]
      · cases owed
  · next partially => simp [partially]

theorem partialPlan_nodup (execution : LaneExecution) (p : Nat) : (T.partialPlan execution p).Nodup := by
  have distinct := executionPes_nodup (T := T) execution
  have active : T.activeReaderCount execution = min execution.payloadRows (T.executionPes execution).length := rfl
  simp only [Topology.partialPlan]
  split
  · refine List.Nodup.map_on ?_ (List.nodup_range.filter _)
    intro a first b second same
    have here := List.mem_range.mp (List.mem_filter.mp first).1
    have there := List.mem_range.mp (List.mem_filter.mp second).1
    rw [List.getD_eq_getElem _ _ (by omega), List.getD_eq_getElem _ _ (by omega)] at same
    exact distinct.getElem_inj_iff.mp same
  · exact List.nodup_nil

/-- What a lane owes is in its plan. -/
theorem sender_plan {slot : PayloadSlot} (owed : T.sender execution p slot = some (.lane q ℓ)) :
    (slot = .routingMetadataReady ℓ ∧ p ∈ T.routingPlan execution q) ∨
      (slot = .partialReady q ℓ ∧ p ∈ T.partialPlan execution q) := by
  have source := sender_source owed
  cases slot with
  | inputReady lane =>
    simp only [Topology.sender] at owed
    split at owed <;> cases owed
  | routingMetadataReady lane =>
    have named : lane = ℓ := by
      simp only [Topology.sender] at owed
      split at owed
      · split at owed
        · exact (Sender.lane.inj (Option.some.inj owed)).2
        · cases owed
      · cases owed
    subst named
    exact .inl ⟨rfl, (mem_routingPlan source).mpr owed⟩
  | partialReady origin lane =>
    have named : origin = q ∧ lane = ℓ := by
      simp only [Topology.sender] at owed
      split at owed
      · exact Sender.lane.inj (Option.some.inj owed)
      · cases owed
    obtain ⟨rfl, rfl⟩ := named
    exact .inr ⟨rfl, (mem_partialPlan source).mpr owed⟩

end Plans

/-! ## Invariants -/

/-- The message of a rank about its input. -/
def inputMessage (i r : Nat) (a : AtnAgent) (p : Nat) : Sending :=
  ⟨.atnagent i r, p, .inputReady a.admission.executorLaneIndex, ⟨a.key i, a.admission.executorLeaseSequence⟩⟩

/-- The message of a lane about its execution. -/
def laneMessage (p ℓ : Nat) (slot : PayloadSlot) (execution : LaneExecution) (q : Nat) : Sending :=
  ⟨.lane p ℓ, q, slot, ⟨execution.key, execution.executorLeaseSequence⟩⟩

/-- A message under a granted lease, from the party that owes it. -/
def Addressed (T : Topology) (k : Control) (m : Sending) : Prop :=
  ∃ invocation, k.Granted m.slot.lane m.record.executorLeaseSequence invocation ∧ m.record.key = invocation.key ∧
    T.sender (invocation.execution m.record.executorLeaseSequence) m.destination m.slot = some m.sender

/-- What a rank has sent of its input. -/
structure Outgoing (T : Topology) {V : Type} (s : State V) (log : List Sending) (i r : Nat) : Prop where
  past :
    ∀ m ∈ log, m.sender = .atnagent i r →
      m.record.key.invocationSequence ≤
        max (s.control.acknowledgements i r).length (s.control.atnagents i r).admission.key.invocationSequence
  input :
    (s.control.atnagents i r).pc.holding →
      Mailed (inputMessage i r (s.control.atnagents i r))
        (T.pairedPes i (s.control.atnagents i r).context.layerOrdinal r)
        ((s.control.atnagents i r).pc.inputLeft (T.pairedPes i (s.control.atnagents i r).context.layerOrdinal r)) log
  record :
    ∀ rest, (s.control.atnagents i r).pc = .publishInput rest →
      (s.payloads.slots (T.atnagentPe i r)
          (.inputReady (s.control.atnagents i r).admission.executorLaneIndex)).record =
        ⟨(s.control.atnagents i r).key i, (s.control.atnagents i r).admission.executorLeaseSequence⟩

/-- All that a lane owes others for an execution is sent. -/
structure SentAll (T : Topology) (log : List Sending) (p ℓ : Nat) (execution : LaneExecution) : Prop where
  routing :
    Mailed (laneMessage p ℓ (.routingMetadataReady ℓ) execution) (T.routingPlan execution p) [] log
  partials : Mailed (laneMessage p ℓ (.partialReady p ℓ) execution) (T.partialPlan execution p) [] log

/-- All that others owe a lane for an execution is sent. -/
def Served (T : Topology) (log : List Sending) (p ℓ : Nat) (execution : LaneExecution) : Prop :=
  ∀ slot sender, slot.lane = ℓ → T.sender execution p slot = some sender →
    ⟨sender, p, slot, ⟨execution.key, execution.executorLeaseSequence⟩⟩ ∈ log

/-- What a lane has sent of its metadata and its partial. -/
structure LaneOutgoing (T : Topology) {V : Type} (s : State V) (log : List Sending) (p ℓ : Nat) : Prop where
  sound : (s.control.lanes p ℓ).Sound T p
  behind : (s.control.lanes p ℓ).lastLeaseSequence ≤ (s.control.lanes p ℓ).execution.executorLeaseSequence
  idle :
    (s.control.lanes p ℓ).pc = .awaitExecution →
      (s.control.lanes p ℓ).execution.executorLeaseSequence = (s.control.lanes p ℓ).lastLeaseSequence
  past :
    ∀ m ∈ log, m.sender = .lane p ℓ →
      m.record.executorLeaseSequence ≤ (s.control.lanes p ℓ).execution.executorLeaseSequence
  routing :
    (s.control.lanes p ℓ).live →
      Mailed (laneMessage p ℓ (.routingMetadataReady ℓ) (s.control.lanes p ℓ).execution)
        (T.routingPlan (s.control.lanes p ℓ).execution p)
        ((s.control.lanes p ℓ).pc.routingLeft (T.routingPlan (s.control.lanes p ℓ).execution p)) log
  partials :
    (s.control.lanes p ℓ).live →
      Mailed (laneMessage p ℓ (.partialReady p ℓ) (s.control.lanes p ℓ).execution)
        (T.partialPlan (s.control.lanes p ℓ).execution p)
        ((s.control.lanes p ℓ).pc.partialLeft (T.partialPlan (s.control.lanes p ℓ).execution p)) log
  completed :
    (s.control.lanes p ℓ).lastLeaseSequence = (s.control.lanes p ℓ).execution.executorLeaseSequence →
      (s.control.lanes p ℓ).lastLeaseSequence ≠ 0 →
        (∃ invocation,
          s.control.Granted ℓ (s.control.lanes p ℓ).execution.executorLeaseSequence invocation ∧
            (s.control.lanes p ℓ).execution =
              invocation.execution (s.control.lanes p ℓ).execution.executorLeaseSequence) ∧
          SentAll T log p ℓ (s.control.lanes p ℓ).execution ∧ Served T log p ℓ (s.control.lanes p ℓ).execution
  routingRecord :
    ∀ rest, (s.control.lanes p ℓ).pc = .sendRouting rest →
      (T.executionPes (s.control.lanes p ℓ).execution).idxOf p = 0 ∧ (s.payloads.slots p (.routingMetadataReady ℓ)).record =
        ⟨(s.control.lanes p ℓ).execution.key, (s.control.lanes p ℓ).execution.executorLeaseSequence⟩
  partialRecord :
    ∀ rest, (s.control.lanes p ℓ).pc = .quietPartial rest ∨ (s.control.lanes p ℓ).pc = .publishPartial rest →
      (s.payloads.slots p (.partialReady p ℓ)).record =
        ⟨(s.control.lanes p ℓ).execution.key, (s.control.lanes p ℓ).execution.executorLeaseSequence⟩

/-- What a lane has been sent and has seen. -/
structure Incoming (T : Topology) {V : Type} (s : State V) (log : List Sending) (p ℓ : Nat) : Prop where
  tracks :
    ∀ slot : PayloadSlot, slot.lane = ℓ →
      (s.payloads.slots p slot).Tracks publicationSequence (fun record => ∃ sender, ⟨sender, p, slot, record⟩ ∈ log)
        (s.control.lanes p ℓ).lastLeaseSequence
  received :
    (s.control.lanes p ℓ).live → (s.control.lanes p ℓ).pc ≠ .awaitPayloads →
      (s.control.lanes p ℓ).execution.executorLeaseSequence ≤ (s.payloads.slots p (.inputReady ℓ)).sequence ∧
        ((s.control.lanes p ℓ).requiresRoutingMetadata →
          (s.control.lanes p ℓ).execution.executorLeaseSequence ≤
            (s.payloads.slots p (.routingMetadataReady ℓ)).sequence)
  reduced :
    (s.control.lanes p ℓ).live → (s.control.lanes p ℓ).pc.reduced → (s.control.lanes p ℓ).reads T →
      ∀ source ∈ T.executionPes (s.control.lanes p ℓ).execution, source ≠ p →
        (s.control.lanes p ℓ).execution.executorLeaseSequence ≤
          (s.payloads.slots p (.partialReady source ℓ)).sequence

/-- The log of payload publications agrees with the state. -/
structure Post (T : Topology) {V : Type} (s : State V) (log : List Sending) : Prop where
  nodup : log.Nodup
  addressed : ∀ m ∈ log, Addressed T s.control m
  flown :
    ∀ pe slot, ∀ put ∈ (s.payloads.slots pe slot).flight, ∃ sender, ⟨sender, pe, slot, put.record⟩ ∈ log
  carried : ∀ m ∈ log, (s.payloads.slots m.destination m.slot).Carries publicationSequence m.record
  rank : ∀ i r, T.isRank i r → Outgoing T s log i r
  lane : ∀ p ℓ, T.isLane p ℓ → LaneOutgoing T s log p ℓ
  inbox : ∀ p ℓ, T.isLane p ℓ → Incoming T s log p ℓ

/-- What holds of the control part of every reachable state. -/
structure Established (T : Topology) (k : Control) : Prop where
  homes : Homes T k
  books : Books T k
  leases : Leases T k
  admissions : Admissions T k
  ledger : ∀ i r, T.isRank i r → RankLedger T k i r

theorem reachable_established {T : Topology} {V : Type} {K : Kernels V} {policy : PolicyState} {s : State V}
    (reached : (T.fabric K policy).Reachable s) : Established T s.control :=
  ⟨reachable_homes reached, reachable_books reached, reachable_leases reached, reachable_admissions reached,
    fun _ _ rank => reachable_ledger reached rank⟩

/-! ## The last lease of a lane -/

section Current

variable {T : Topology} {V : Type} {k : Control} {s : State V} {log : List Sending} {i r p ℓ L : Nat}
  {invocation : Invocation}

theorem Lane.engaged_of_live {l : Lane} (live : l.live) : l.engaged := by
  obtain ⟨terminal, serves⟩ := Lane.live_iff.mp live
  cases pc : l.pc <;> simp_all [LanePc.serving, Lane.engaged]

/-- A live lane serves the last lease of its number. -/
theorem Established.serving (established : Established T k) (isLane : T.isLane p ℓ) (live : (k.lanes p ℓ).live) :
    ∃ invocation, k.Granted ℓ (k.leaseCount ℓ) invocation ∧ p ∈ T.group invocation ∧
      (k.lanes p ℓ).execution = invocation.execution (k.leaseCount ℓ) ∧ k.scheduler.Holds invocation ℓ ∧
      (k.slots p (.laneExecution ℓ)).record = (k.lanes p ℓ).execution ∧
      (k.lanes p ℓ).lastLeaseSequence < k.leaseCount ℓ := by
  have book := established.leases.lane p ℓ isLane
  have leased := book.engaged (Lane.engaged_of_live live)
  obtain ⟨invocation, assigned, execution, holds⟩ := established.leases.executing isLane leased
  refine ⟨invocation, assigned.granted, assigned.member, execution, holds, (book.held leased).2, ?_⟩
  have number : (k.lanes p ℓ).execution.executorLeaseSequence = k.leaseCount ℓ := by
    rw [execution]
    rfl
  unfold Lane.leased at leased
  omega

/-- A rank that holds an Admission holds the last lease of its lane. -/
theorem Established.holding (established : Established T k) (rank : T.isRank i r) (holding : (k.atnagents i r).pc.holding) :
    ∃ invocation, k.Granted (k.atnagents i r).admission.executorLaneIndex
        (k.leaseCount (k.atnagents i r).admission.executorLaneIndex) invocation ∧
      (k.atnagents i r).admission.executorLeaseSequence =
        k.leaseCount (k.atnagents i r).admission.executorLaneIndex ∧
      invocation.key = (k.atnagents i r).key i ∧
      invocation.layerOrdinal = (k.atnagents i r).context.layerOrdinal ∧
      k.scheduler.Holds invocation (k.atnagents i r).admission.executorLaneIndex := by
  have book := established.admissions.rank i r rank
  have ledger := established.ledger i r rank
  obtain ⟨count, number, last⟩ := ledger.waiting (AtnAgentPc.submitted_of_holding holding).1
  have admission := book.holding holding
  have ahead : (k.acknowledgements i r).length < (k.atnagents i r).admission.key.invocationSequence := by
    rw [admission]
    dsimp only
    omega
  obtain ⟨invocation, granted, key, index, -⟩ := book.admitted ahead
  subst index
  have named : invocation.key = (k.atnagents invocation.key.instanceIndex r).key invocation.key.instanceIndex := by
    rw [← key, admission]
    rfl
  have sequence : invocation.key.invocationSequence =
      (k.atnagents invocation.key.instanceIndex r).invocationSequence := by
    rw [named]
    rfl
  have unacknowledged : invocation.key.invocationSequence ∉ k.acknowledgements invocation.key.instanceIndex r := by
    rw [ledger.mem_acknowledgements, sequence]
    omega
  obtain ⟨lease, holds⟩ := established.leases.unacknowledged granted rank unacknowledged
  rw [lease] at granted
  refine ⟨invocation, granted, lease, named, ?_, holds⟩
  -- the rank's last submission is the one that was enqueued
  obtain ⟨record, member, keyed, layer, -⟩ := (established.admissions.granted _ _ _ granted).ranks r rank
  obtain ⟨-, -, -, found⟩ := ledger.of_mem member
  rw [List.getLast?_eq_getElem?] at last
  rw [keyed, sequence, number, last] at found
  obtain rfl := Option.some.inj found
  exact layer.symm

end Current

/-! ## What the log says about the last lease -/

section Log

variable {T : Topology} {V : Type} {s : State V} {log : List Sending} {p ℓ : Nat} {slot : PayloadSlot} {m : Sending}
  {invocation : Invocation}

/-- The invocation of a lease decides who its messages come from. -/
theorem Addressed.of_granted {k : Control} (addressed : Addressed T k m)
    (granted : k.Granted m.slot.lane m.record.executorLeaseSequence invocation) :
    m.record.key = invocation.key ∧
      T.sender (invocation.execution m.record.executorLeaseSequence) m.destination m.slot = some m.sender := by
  obtain ⟨other, granted', key, owed⟩ := addressed
  obtain rfl := granted.unique granted'
  exact ⟨key, owed⟩

theorem Addressed.mono {k k' : Control} (addressed : Addressed T k m) (grows : ∀ ℓ, k.leases ℓ <+: k'.leases ℓ) :
    Addressed T k' m := by
  obtain ⟨invocation, granted, key, owed⟩ := addressed
  exact ⟨invocation, granted.mono (grows _), key, owed⟩

/-- Two messages to one slot of a PE under one lease are the same message. -/
theorem Addressed.unique {k : Control} {m' : Sending} (addressed : Addressed T k m) (addressed' : Addressed T k m')
    (destination : m.destination = m'.destination) (slot : m.slot = m'.slot)
    (lease : m.record.executorLeaseSequence = m'.record.executorLeaseSequence) : m = m' := by
  obtain ⟨invocation, granted, key, owed⟩ := addressed'
  rw [← slot, ← lease] at granted
  obtain ⟨key', owed'⟩ := addressed.of_granted granted
  rw [← slot, ← lease, ← destination, owed'] at owed
  obtain ⟨sender, destination₁, slot₁, key₁, lease₁⟩ := m
  obtain ⟨sender', destination₂, slot₂, key₂, lease₂⟩ := m'
  simp_all

/-- A message under a lease that is not the last of its lane is consumed. -/
theorem Post.bygone (post : Post T s log) (established : Established T s.control) (member : m ∈ log)
    (other : m.record.executorLeaseSequence ≠ s.control.leaseCount m.slot.lane) :
    m.record.executorLeaseSequence ≤ (s.control.lanes m.destination m.slot.lane).lastLeaseSequence := by
  obtain ⟨invocation, granted, -, owed⟩ := post.addressed m member
  rcases established.leases.chain.settled _ _ _ granted with settled | ⟨last, -⟩
  · exact established.leases.behind granted settled (sender_mem owed)
  · exact absurd last other

theorem Established.last_le (established : Established T s.control) (isLane : T.isLane p ℓ) :
    (s.control.lanes p ℓ).lastLeaseSequence ≤ s.control.leaseCount ℓ ∧
      ((s.control.lanes p ℓ).leased →
        (s.control.lanes p ℓ).execution.executorLeaseSequence ≤ s.control.leaseCount ℓ) := by
  have book := established.leases.lane p ℓ isLane
  refine ⟨?_, ?_⟩
  · rcases book.last with zero | last
    · omega
    · obtain ⟨-, invocation, assigned⟩ := book.completed _ last
      exact assigned.granted.le.2
  · intro leased
    obtain ⟨invocation, assigned, -⟩ := book.executes leased
    exact assigned.granted.le.2

/-- Where nothing of the last lease was sent, nothing is on its way. -/
theorem Post.quiescent (post : Post T s log) (established : Established T s.control) (isLane : T.isLane p ℓ)
    (lane : slot.lane = ℓ)
    (none : ∀ m ∈ log, m.destination = p → m.slot = slot → m.record.executorLeaseSequence ≠ s.control.leaseCount ℓ) :
    (s.payloads.slots p slot).flight = [] ∧
      (s.payloads.slots p slot).sequence ≤ (s.control.lanes p ℓ).lastLeaseSequence := by
  apply ((post.inbox p ℓ isLane).tracks slot lane).quiescent
  rintro record ⟨sender, member⟩
  subst lane
  exact post.bygone established member (none _ member rfl rfl)

/-- Nobody owes the PE anything. -/
theorem Post.unaddressed (post : Post T s log) (established : Established T s.control) (isLane : T.isLane p ℓ)
    (lane : slot.lane = ℓ) (granted : s.control.Granted ℓ (s.control.leaseCount ℓ) invocation)
    (nobody : T.sender (invocation.execution (s.control.leaseCount ℓ)) p slot = none) :
    (s.payloads.slots p slot).flight = [] ∧
      (s.payloads.slots p slot).sequence ≤ (s.control.lanes p ℓ).lastLeaseSequence := by
  apply post.quiescent established isLane lane
  rintro m member rfl rfl last
  subst lane
  obtain ⟨-, owed⟩ := (post.addressed m member).of_granted (last ▸ granted)
  rw [last, nobody] at owed
  cases owed

/-- Where a message of the last lease is yet to be sent, its destination is ready
for it. -/
theorem Post.undelivered (post : Post T s log) (established : Established T s.control)
    (granted : s.control.Granted ℓ (s.control.leaseCount ℓ) invocation) (lane : slot.lane = ℓ) {sender : Sender}
    (owed : T.sender (invocation.execution (s.control.leaseCount ℓ)) p slot = some sender)
    (unsent : ⟨sender, p, slot, ⟨invocation.key, s.control.leaseCount ℓ⟩⟩ ∉ log) :
    T.isLane p ℓ ∧ (s.payloads.slots p slot).flight = [] ∧
      (s.payloads.slots p slot).sequence ≤ (s.control.lanes p ℓ).lastLeaseSequence ∧
      (s.control.lanes p ℓ).lastLeaseSequence < s.control.leaseCount ℓ := by
  have isLane := established.leases.isLane granted (sender_mem owed)
  have fresh : ∀ m ∈ log, m.destination = p → m.slot = slot →
      m.record.executorLeaseSequence ≠ s.control.leaseCount ℓ := by
    rintro m member rfl rfl last
    subst lane
    obtain ⟨key, owed'⟩ := (post.addressed m member).of_granted (last ▸ granted)
    rw [last, owed] at owed'
    apply unsent
    convert member
    · exact Option.some.inj owed'
    · exact key.symm
    · exact last.symm
  obtain ⟨flight, sequence⟩ := post.quiescent established isLane lane fresh
  refine ⟨isLane, flight, sequence, ?_⟩
  -- a lane that had completed the lease would have been served
  have outgoing := post.lane p ℓ isLane
  obtain ⟨le, bounded⟩ := established.last_le isLane
  by_contra beyond
  have positive := granted.le.1
  have behind := outgoing.behind
  have caught : (s.control.lanes p ℓ).lastLeaseSequence = (s.control.lanes p ℓ).execution.executorLeaseSequence := by
    by_contra ahead
    have leased : (s.control.lanes p ℓ).leased := by
      unfold Lane.leased
      omega
    have := bounded leased
    omega
  obtain ⟨⟨other, granted', execution⟩, -, served⟩ := outgoing.completed caught (by omega)
  have number : (s.control.lanes p ℓ).execution.executorLeaseSequence = s.control.leaseCount ℓ := by omega
  rw [number] at granted' execution
  obtain rfl := granted.unique granted'
  apply unsent
  have message := served slot sender lane (by rw [execution]; exact owed)
  rw [execution] at message
  exact message

end Log

/-! ## Bystanders -/

section Bystanders

variable {T : Topology} {V : Type} {s t : State V} {log : List Sending} {i r p ℓ : Nat} {extra : Option Sending}

theorem mem_extend {m : Sending} : m ∈ log ++ extra.toList ↔ m ∈ log ∨ m ∈ extra := by
  simp [Option.mem_toList]

/-- A rank is not concerned by what others send. -/
theorem Outgoing.frame (outgoing : Outgoing T s log i r) (atnagents : t.control.atnagents i r = s.control.atnagents i r)
    (acknowledgements : t.control.acknowledgements i r = s.control.acknowledgements i r)
    (record :
      ∀ rest, (s.control.atnagents i r).pc = .publishInput rest →
        (t.payloads.slots (T.atnagentPe i r)
            (.inputReady (s.control.atnagents i r).admission.executorLaneIndex)).record =
          (s.payloads.slots (T.atnagentPe i r)
              (.inputReady (s.control.atnagents i r).admission.executorLaneIndex)).record)
    (foreign : ∀ m ∈ extra, m.sender ≠ .atnagent i r) : Outgoing T t (log ++ extra.toList) i r := by
  obtain ⟨past, input, own⟩ := outgoing
  refine ⟨?_, ?_, ?_⟩
  all_goals rw [atnagents]
  · intro m member sender
    rw [acknowledgements]
    rcases mem_extend.mp member with old | new
    · exact past m old sender
    · exact absurd sender (foreign m new)
  · intro holding
    apply (input holding).extend
    rintro m new d rfl
    exact foreign _ new rfl
  · intro rest stands
    rw [record rest stands]
    exact own rest stands

theorem SentAll.extend {execution : LaneExecution} (sent : SentAll T log p ℓ execution)
    (foreign : ∀ m ∈ extra, m.sender ≠ .lane p ℓ) : SentAll T (log ++ extra.toList) p ℓ execution := by
  refine ⟨sent.routing.extend ?_, sent.partials.extend ?_⟩
  all_goals
    rintro m new d rfl
    exact foreign _ new rfl

theorem Served.extend {execution : LaneExecution} (served : Served T log p ℓ execution) :
    Served T (log ++ extra.toList) p ℓ execution :=
  fun slot sender lane owed => List.mem_append_left _ (served slot sender lane owed)

/-- A lane is not concerned by what others send. -/
theorem LaneOutgoing.frame (outgoing : LaneOutgoing T s log p ℓ) (lanes : t.control.lanes p ℓ = s.control.lanes p ℓ)
    (leases : ∀ ℓ, s.control.leases ℓ <+: t.control.leases ℓ)
    (routingRecord :
      ∀ rest, (s.control.lanes p ℓ).pc = .sendRouting rest →
        (t.payloads.slots p (.routingMetadataReady ℓ)).record = (s.payloads.slots p (.routingMetadataReady ℓ)).record)
    (partialRecord :
      ∀ rest, (s.control.lanes p ℓ).pc = .quietPartial rest ∨ (s.control.lanes p ℓ).pc = .publishPartial rest →
        (t.payloads.slots p (.partialReady p ℓ)).record = (s.payloads.slots p (.partialReady p ℓ)).record)
    (foreign : ∀ m ∈ extra, m.sender ≠ .lane p ℓ) : LaneOutgoing T t (log ++ extra.toList) p ℓ := by
  have others {slot : PayloadSlot} {execution : LaneExecution} :
      ∀ m ∈ extra, ∀ d, m ≠ laneMessage p ℓ slot execution d := by
    rintro m new d rfl
    exact foreign _ new rfl
  refine ⟨?_, ?_, ?_, ?_, ?_, ?_, ?_, ?_, ?_⟩
  all_goals rw [lanes]
  · exact outgoing.sound
  · exact outgoing.behind
  · exact outgoing.idle
  · intro m member sender
    rcases mem_extend.mp member with old | new
    · exact outgoing.past m old sender
    · exact absurd sender (foreign m new)
  · exact fun live => (outgoing.routing live).extend others
  · exact fun live => (outgoing.partials live).extend others
  · intro caught nonzero
    obtain ⟨⟨invocation, granted, execution⟩, sent, served⟩ := outgoing.completed caught nonzero
    exact ⟨⟨invocation, granted.mono (leases _), execution⟩, sent.extend foreign, served.extend⟩
  · intro rest stands
    rw [routingRecord rest stands]
    exact outgoing.routingRecord rest stands
  · intro rest stands
    rw [partialRecord rest stands]
    exact outgoing.partialRecord rest stands

/-- What a lane has received stays received as long as its words do. -/
theorem Incoming.frame (incoming : Incoming T s log p ℓ) (lanes : t.control.lanes p ℓ = s.control.lanes p ℓ)
    (tracks :
      ∀ slot : PayloadSlot, slot.lane = ℓ →
        (t.payloads.slots p slot).Tracks publicationSequence
          (fun record => ∃ sender, ⟨sender, p, slot, record⟩ ∈ log ++ extra.toList)
          (s.control.lanes p ℓ).lastLeaseSequence)
    (sequences :
      (s.control.lanes p ℓ).live → ∀ slot : PayloadSlot, slot.lane = ℓ →
        (s.control.lanes p ℓ).execution.executorLeaseSequence ≤ (s.payloads.slots p slot).sequence →
        (s.control.lanes p ℓ).execution.executorLeaseSequence ≤ (t.payloads.slots p slot).sequence) :
    Incoming T t (log ++ extra.toList) p ℓ := by
  refine ⟨?_, ?_, ?_⟩
  all_goals rw [lanes]
  · exact tracks
  · intro live busy
    obtain ⟨input, routing⟩ := incoming.received live busy
    exact ⟨sequences live _ rfl input, fun requires => sequences live _ rfl (routing requires)⟩
  · intro live reduced reads source member other
    exact sequences live _ rfl (incoming.reduced live reduced reads source member other)

/-- The inbox of a lane whose slots are left alone. -/
theorem Incoming.same (incoming : Incoming T s log p ℓ) (lanes : t.control.lanes p ℓ = s.control.lanes p ℓ)
    (slots : ∀ slot : PayloadSlot, slot.lane = ℓ → t.payloads.slots p slot = s.payloads.slots p slot) :
    Incoming T t (log ++ extra.toList) p ℓ := by
  apply incoming.frame lanes
  · intro slot lane
    rw [slots slot lane]
    apply (incoming.tracks slot lane).mono
    rintro record ⟨sender, member⟩
    exact ⟨sender, List.mem_append_left _ member⟩
  · intro _ slot lane reached
    rw [slots slot lane]
    exact reached

/-- Nobody sends and no party of the payload moves. -/
theorem Post.frame (post : Post T s log) (atnagents : t.control.atnagents = s.control.atnagents)
    (acknowledgements : t.control.acknowledgements = s.control.acknowledgements)
    (lanes : t.control.lanes = s.control.lanes) (leases : ∀ ℓ, s.control.leases ℓ <+: t.control.leases ℓ)
    (slots : t.payloads.slots = s.payloads.slots) : Post T t log := by
  have silent : log = log ++ (none : Option Sending).toList := by simp
  refine ⟨post.nodup, fun m member => (post.addressed m member).mono leases, ?_, ?_, ?_, ?_, ?_⟩
  · rw [slots]
    exact post.flown
  · rw [slots]
    exact post.carried
  · intro i r rank
    rw [silent]
    exact (post.rank i r rank).frame (by rw [atnagents]) (by rw [acknowledgements]) (by simp [slots]) (by simp)
  · intro p ℓ isLane
    rw [silent]
    exact (post.lane p ℓ isLane).frame (by rw [lanes]) leases (by simp [slots]) (by simp [slots]) (by simp)
  · intro p ℓ isLane
    rw [silent]
    exact (post.inbox p ℓ isLane).same (by rw [lanes]) (by simp [slots])

end Bystanders

/-! ## Deliveries -/

section Deliveries

variable {T : Topology} {V : Type} {s t : State V} {log : List Sending} {i r p ℓ : Nat} {slot : PayloadSlot}
  {invocation : Invocation}

theorem Payloads.setSlot_slots (d : Payloads V) (pe : Nat) (slot : PayloadSlot) (channel : Channel LaneSuccess (Nat × V))
    (pe' : Nat) (slot' : PayloadSlot) :
    (d.setSlot pe slot channel).slots pe' slot' = if pe' = pe ∧ slot' = slot then channel else d.slots pe' slot' := by
  by_cases here : pe' = pe
  · subst here
    by_cases same : slot' = slot <;> simp [Payloads.setSlot, same]
  · simp [Payloads.setSlot, here]

/-- What is in flight to a PE goes to a lane. -/
theorem Post.flight_isLane (post : Post T s log) (established : Established T s.control) {pe : Nat}
    (flight : (s.payloads.slots pe slot).flight ≠ []) : T.isLane pe slot.lane := by
  obtain ⟨put, member⟩ := List.exists_mem_of_ne_nil _ flight
  obtain ⟨sender, sent⟩ := post.flown pe slot put member
  obtain ⟨invocation, granted, -, owed⟩ := post.addressed _ sent
  exact established.leases.isLane granted (sender_mem owed)

/-- A word that a live lane sees at or beyond its lease is that of its lease. -/
theorem Post.arrived (post : Post T s log) (established : Established T s.control) (isLane : T.isLane p ℓ)
    (lane : slot.lane = ℓ) (granted : s.control.Granted ℓ (s.control.leaseCount ℓ) invocation)
    (behind : (s.control.lanes p ℓ).lastLeaseSequence < s.control.leaseCount ℓ)
    (reached : s.control.leaseCount ℓ ≤ (s.payloads.slots p slot).sequence) :
    (s.payloads.slots p slot).flight = [] ∧ (s.payloads.slots p slot).sequence = s.control.leaseCount ℓ ∧
      (s.payloads.slots p slot).record = ⟨invocation.key, s.control.leaseCount ℓ⟩ ∧
      ∃ sender, T.sender (invocation.execution (s.control.leaseCount ℓ)) p slot = some sender ∧
        ⟨sender, p, slot, ⟨invocation.key, s.control.leaseCount ℓ⟩⟩ ∈ log := by
  obtain ⟨flight, ⟨sender, member⟩, number⟩ := ((post.inbox p ℓ isLane).tracks slot lane).fresh (by omega)
  subst lane
  have number : (s.payloads.slots p slot).record.executorLeaseSequence = (s.payloads.slots p slot).sequence := number
  have last : (s.payloads.slots p slot).record.executorLeaseSequence = s.control.leaseCount slot.lane := by
    by_contra other
    have := post.bygone established member other
    dsimp only at this
    omega
  have granted' := granted
  rw [← last] at granted'
  obtain ⟨key, owed⟩ := (post.addressed _ member).of_granted granted'
  have record : (s.payloads.slots p slot).record = ⟨invocation.key, s.control.leaseCount slot.lane⟩ := by
    rw [← last, ← key]
  refine ⟨flight, by omega, record, sender, ?_, ?_⟩
  · rw [← last]
    exact owed
  · rwa [record] at member

/-- The network delivers a payload publication. -/
theorem Post.deliver (post : Post T s log) (established : Established T s.control) {destination : Nat}
    {delivery : Delivery LaneSuccess} {channel : Channel LaneSuccess (Nat × V)} {written : Option (Nat × V)}
    (delivered : (s.payloads.slots destination slot).deliver publicationSequence delivery = some (channel, written))
    (control : t.control = s.control) (slots : t.payloads.slots = (s.payloads.setSlot destination slot channel).slots) :
    Post T t log := by
  have silent : log = log ++ (none : Option Sending).toList := by simp
  obtain ⟨flight, flown⟩ := Channel.deliver_flight delivered
  have here := post.flight_isLane established flight
  have elsewhere {pe : Nat} {slot' : PayloadSlot} (other : ¬(pe = destination ∧ slot' = slot)) :
      t.payloads.slots pe slot' = s.payloads.slots pe slot' := by
    rw [slots, Payloads.setSlot_slots, if_neg other]
  refine ⟨post.nodup, by rw [control]; exact post.addressed, ?_, ?_, ?_, ?_, ?_⟩
  · intro pe slot' put member
    rw [slots, Payloads.setSlot_slots] at member
    split at member
    · next same =>
      obtain ⟨rfl, rfl⟩ := same
      obtain ⟨before, inFlight, record⟩ := flown put member
      rw [record]
      exact post.flown _ _ before inFlight
    · exact post.flown _ _ put member
  · intro m member
    have carries := post.carried m member
    by_cases same : m.destination = destination ∧ m.slot = slot
    · obtain ⟨rfl, rfl⟩ := same
      rw [slots, Payloads.setSlot_slots, if_pos ⟨rfl, rfl⟩]
      exact ((post.inbox _ _ here).tracks _ rfl).carries carries delivered
    · rwa [elsewhere same]
  · intro i r rank
    rw [silent]
    refine (post.rank i r rank).frame (by rw [control]) (by rw [control]) (fun rest _ => ?_) (by simp)
    -- a rank is not on the PE of a lane
    rw [elsewhere]
    rintro ⟨pe, -⟩
    have low := Topology.atnagentPes_lt (Topology.atnagentPe_mem rank)
    have high := (Topology.isLane_iff.mp here).1
    omega
  · intro p ℓ isLane
    rw [silent]
    have outgoing := post.lane p ℓ isLane
    have undisturbed {own : PayloadSlot} (lane : own.lane = ℓ) (live : (s.control.lanes p ℓ).live)
        (nobody : T.sender (s.control.lanes p ℓ).execution p own = none) :
        t.payloads.slots p own = s.payloads.slots p own := by
      apply elsewhere
      rintro ⟨rfl, rfl⟩
      obtain ⟨invocation, granted, -, execution, -⟩ := established.serving isLane live
      rw [execution] at nobody
      exact flight (post.unaddressed established isLane lane granted nobody).1
    refine outgoing.frame (by rw [control]) (fun _ => by rw [control]) (fun rest stands => ?_) (fun rest stands => ?_) (by simp)
    · have live : (s.control.lanes p ℓ).live :=
        Lane.live_iff.mpr ⟨outgoing.sound.staged (by rw [stands]; rfl), by rw [stands]; rfl⟩
      obtain ⟨first, -⟩ := outgoing.routingRecord rest stands
      rw [undisturbed rfl live]
      simp only [Topology.sender]
      split
      · next owner tail pes =>
        rw [if_neg]
        rintro ⟨-, member⟩
        have distinct := executionPes_nodup (T := T) (s.control.lanes p ℓ).execution
        rw [pes] at distinct first
        have ne : owner ≠ p := by
          rintro rfl
          exact (List.nodup_cons.mp distinct).1 member
        rw [List.idxOf_cons_ne tail ne] at first
        omega
      · rfl
    · have live : (s.control.lanes p ℓ).live := by
        refine Lane.live_iff.mpr ⟨outgoing.sound.staged ?_, ?_⟩
        all_goals rcases stands with stands | stands <;> rw [stands] <;> rfl
      rw [undisturbed rfl live]
      simp [Topology.sender]
  · intro p ℓ isLane
    rw [silent]
    have incoming := post.inbox p ℓ isLane
    refine incoming.frame (by rw [control]) ?_ ?_
    · intro slot' lane
      by_cases same : p = destination ∧ slot' = slot
      · obtain ⟨rfl, rfl⟩ := same
        rw [slots, Payloads.setSlot_slots, if_pos ⟨rfl, rfl⟩]
        simpa using (incoming.tracks slot' lane).deliver delivered
      · rw [elsewhere same]
        simpa using incoming.tracks slot' lane
    · intro live slot' lane reached
      by_cases same : p = destination ∧ slot' = slot
      · obtain ⟨rfl, rfl⟩ := same
        obtain ⟨invocation, granted, -, execution, -, -, behind⟩ := established.serving isLane live
        have number : (s.control.lanes p ℓ).execution.executorLeaseSequence = s.control.leaseCount ℓ := by
          rw [execution]
          rfl
        rw [number] at reached
        exact absurd (post.arrived established isLane lane granted behind reached).1 flight
      · rw [elsewhere same]
        exact reached

end Deliveries

/-! ## Sending -/

section Sending

variable {T : Topology} {V : Type} {s t : State V} {log : List Sending} {i r p ℓ : Nat} {slot : PayloadSlot}
  {invocation : Invocation}

/-- The next message of the last lease of a lane, from memory that holds its
record. -/
structure Due (T : Topology) (s : State V) (log : List Sending) (source : Nat) (m : Sending) (invocation : Invocation) :
    Prop where
  granted : s.control.Granted m.slot.lane (s.control.leaseCount m.slot.lane) invocation
  record : m.record = ⟨invocation.key, s.control.leaseCount m.slot.lane⟩
  owed : T.sender (invocation.execution (s.control.leaseCount m.slot.lane)) m.destination m.slot = some m.sender
  unsent : m ∉ log
  stored : (s.payloads.slots source m.slot).record = m.record
  remote : source ≠ m.destination

theorem publish_slots (d : Payloads V) (source destination : Nat) (slot : PayloadSlot) (values : List V) (pe : Nat)
    (slot' : PayloadSlot) :
    ((d.publish source destination slot values).slots pe slot').record = (d.slots pe slot').record ∧
      ((d.publish source destination slot values).slots pe slot').sequence = (d.slots pe slot').sequence := by
  simp only [Payloads.publish, Payloads.setSlot_slots]
  split
  · next same =>
    obtain ⟨rfl, rfl⟩ := same
    exact ⟨rfl, rfl⟩
  · exact ⟨rfl, rfl⟩

variable {source : Nat} {m : Sending} {values : List V}

theorem Due.addressed (due : Due T s log source m invocation) : Addressed T s.control m := by
  refine ⟨invocation, ?_, ?_, ?_⟩
  all_goals rw [due.record]
  · exact due.granted
  · exact due.owed

/-- The log after a send. -/
theorem Due.logged (due : Due T s log source m invocation) (post : Post T s log) :
    (log ++ [m]).Nodup ∧ ∀ m' ∈ log ++ [m], Addressed T s.control m' := by
  refine ⟨List.nodup_append.mpr ⟨post.nodup, List.nodup_singleton m, ?_⟩, ?_⟩
  · rintro a member b single rfl
    obtain rfl := List.mem_singleton.mp single
    exact due.unsent member
  · intro m' member
    rcases List.mem_append.mp member with old | new
    · exact post.addressed m' old
    · obtain rfl := List.mem_singleton.mp new
      exact due.addressed

theorem Due.flown (due : Due T s log source m invocation) (post : Post T s log)
    (slots : t.payloads.slots = (s.payloads.publish source m.destination m.slot values).slots) :
    ∀ pe slot, ∀ put ∈ (t.payloads.slots pe slot).flight, ∃ sender, ⟨sender, pe, slot, put.record⟩ ∈ log ++ [m] := by
  intro pe slot put member
  rw [slots, Payloads.publish, Payloads.setSlot_slots] at member
  split at member
  · next same =>
    obtain ⟨rfl, rfl⟩ := same
    rcases List.mem_append.mp member with old | new
    · obtain ⟨sender, sent⟩ := post.flown _ _ put old
      exact ⟨sender, List.mem_append_left _ sent⟩
    · obtain rfl := List.mem_singleton.mp new
      refine ⟨m.sender, List.mem_append_right _ ?_⟩
      dsimp only
      rw [due.stored]
      simp
  · obtain ⟨sender, sent⟩ := post.flown _ _ put member
    exact ⟨sender, List.mem_append_left _ sent⟩

theorem Due.carried (due : Due T s log source m invocation) (post : Post T s log)
    (slots : t.payloads.slots = (s.payloads.publish source m.destination m.slot values).slots) :
    ∀ m' ∈ log ++ [m], (t.payloads.slots m'.destination m'.slot).Carries publicationSequence m'.record := by
  intro m' member
  rw [slots, Payloads.publish, Payloads.setSlot_slots]
  rcases List.mem_append.mp member with old | new
  · have carries := post.carried m' old
    split
    · next same =>
      rw [same.1, same.2] at carries
      exact carries.mono (List.subset_append_left _ _) rfl
    · exact carries
  · obtain rfl := List.mem_singleton.mp new
    rw [if_pos ⟨rfl, rfl⟩, ← due.stored]
    exact .sent _ _

/-- Every inbox stays in order when a message is sent. -/
theorem Due.tracks (due : Due T s log source m invocation) (post : Post T s log) (established : Established T s.control)
    (slots : t.payloads.slots = (s.payloads.publish source m.destination m.slot values).slots) (isLane : T.isLane p ℓ)
    (lane : slot.lane = ℓ) :
    (t.payloads.slots p slot).Tracks publicationSequence (fun record => ∃ sender, ⟨sender, p, slot, record⟩ ∈ log ++ [m])
      (s.control.lanes p ℓ).lastLeaseSequence := by
  rw [slots, Payloads.publish, Payloads.setSlot_slots]
  split
  · next same =>
    obtain ⟨rfl, rfl⟩ := same
    subst lane
    obtain ⟨sender, destination, slot, record⟩ := m
    obtain ⟨granted, named, owed, unsent, stored, remote⟩ := due
    dsimp only at granted named owed unsent stored remote
    subst named
    obtain ⟨-, flight, sequence, before⟩ := post.undelivered established granted rfl owed unsent
    refine .send flight sequence ⟨sender, ?_⟩ ?_ ?_
    · rw [stored]
      simp
    · rw [stored]
      exact before
    · intro landed
      exact absurd (by simpa using landed) remote
  · apply ((post.inbox p ℓ isLane).tracks slot lane).mono
    rintro record ⟨sender, member⟩
    exact ⟨sender, List.mem_append_left _ member⟩

/-- The parties that neither send the message nor move. -/
theorem Due.bystander (due : Due T s log source m invocation) (post : Post T s log) (established : Established T s.control)
    (slots : t.payloads.slots = (s.payloads.publish source m.destination m.slot values).slots) (isLane : T.isLane p ℓ)
    (lanes : t.control.lanes p ℓ = s.control.lanes p ℓ) : Incoming T t (log ++ [m]) p ℓ := by
  show Incoming T t (log ++ (some m).toList) p ℓ
  refine (post.inbox p ℓ isLane).frame lanes (fun slot lane => due.tracks post established slots isLane lane) ?_
  intro _ slot _ reached
  rw [slots, (publish_slots _ _ _ _ _ _ _).2]
  exact reached

/-- The lanes other than the sender have sent what they had. -/
theorem Post.lane_sent (post : Post T s log)
    (slots : t.payloads.slots = (s.payloads.publish source m.destination m.slot values).slots) (isLane : T.isLane p ℓ)
    (lanes : t.control.lanes p ℓ = s.control.lanes p ℓ) (leases : t.control.leases = s.control.leases)
    (foreign : m.sender ≠ .lane p ℓ) : LaneOutgoing T t (log ++ [m]) p ℓ := by
  show LaneOutgoing T t (log ++ (some m).toList) p ℓ
  refine (post.lane p ℓ isLane).frame lanes (fun ℓ => by rw [leases]) (fun _ _ => ?_) (fun _ _ => ?_) ?_
  · rw [slots, (publish_slots _ _ _ _ _ _ _).1]
  · rw [slots, (publish_slots _ _ _ _ _ _ _).1]
  · rintro m' ⟨⟩
    exact foreign

/-- The ranks other than the sender have sent what they had. -/
theorem Post.rank_sent (post : Post T s log)
    (slots : t.payloads.slots = (s.payloads.publish source m.destination m.slot values).slots) (rank : T.isRank i r)
    (atnagents : t.control.atnagents i r = s.control.atnagents i r)
    (acknowledgements : t.control.acknowledgements i r = s.control.acknowledgements i r)
    (foreign : m.sender ≠ .atnagent i r) : Outgoing T t (log ++ [m]) i r := by
  show Outgoing T t (log ++ (some m).toList) i r
  refine (post.rank i r rank).frame atnagents acknowledgements (fun _ _ => ?_) ?_
  · rw [slots, (publish_slots _ _ _ _ _ _ _).1]
  · rintro m' ⟨⟩
    exact foreign

end Sending

end CrossPool.Fabric
