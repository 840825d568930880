import CrossPool.Fabric.Dispatch
import CrossPool.Fabric.Outbox

/-!
# One sender for each publication

Over every run, a payload publication has the sender that `Topology.sender` names,
nobody publishes twice to one slot of a PE under one lease, and whoever waits for a
publication waits for one that is sent or that its sender still has before it,
unless the sender has failed.
-/

namespace CrossPool.Fabric

open CrossPool.Lib

/-! ## Steps of a rank -/

section RankSteps

variable {T : Topology} {V : Type} {s t : State V} {log : List Sending} {i r p ℓ : Nat} {extra : Option Sending}

theorem AtnAgentControl.past_le {k k' : Control} (effect : AtnAgentControl T k i r k') (book : RankBook T k i r) :
    max (k.acknowledgements i r).length (k.atnagents i r).admission.key.invocationSequence ≤
        max (k'.acknowledgements i r).length (k'.atnagents i r).admission.key.invocationSequence ∧
      (k.acknowledgements i r).length ≤ (k'.acknowledgements i r).length := by
  cases effect with
  | stay => exact ⟨Nat.le_refl _, Nat.le_refl _⟩
  | move => simp [Control.setAtnAgent]
  | refuse => simp [Control.setAtnAgent]
  | request => simp [Control.setAtnAgent]
  | submit =>
    simp only [update₂_same]
    exact ⟨Nat.le_refl _, Nat.le_refl _⟩
  | admitted pc stands =>
    have free := book.free (.inr (.inr stands))
    simp only [Control.setAtnAgent, update₂_same]
    refine ⟨?_, Nat.le_refl _⟩
    omega
  | acknowledge =>
    simp only [update₂_same, List.length_append, List.length_singleton]
    omega

/-- Two ranks that hold one lane are one rank. -/
theorem Established.holder_unique {k : Control} (established : Established T k) {i' r' : Nat} (rank : T.isRank i r)
    (rank' : T.isRank i' r') (holding : (k.atnagents i r).pc.holding) (holding' : (k.atnagents i' r').pc.holding)
    (lane :
      (k.atnagents i r).admission.executorLaneIndex = (k.atnagents i' r').admission.executorLaneIndex)
    (pe : T.atnagentPe i r = T.atnagentPe i' r') : i = i' ∧ r = r' := by
  obtain ⟨invocation, -, -, key, -, holds⟩ := established.holding rank holding
  obtain ⟨invocation', -, -, key', -, holds'⟩ := established.holding rank' holding'
  rw [← lane] at holds'
  obtain rfl := established.books.active_unique holds holds'
  have index : i = i' := by
    rw [key] at key'
    exact congrArg InvocationKey.instanceIndex key'
  subst index
  exact ⟨rfl, Topology.atnagentPe_inj rank rank' pe⟩

/-- The message that a rank has before it. -/
theorem Post.rank_due (post : Post T s log) (established : Established T s.control) (rank : T.isRank i r)
    {destination : Nat} {rest : List Nat}
    (stands : (s.control.atnagents i r).pc = .publishInput (destination :: rest)) :
    ∃ invocation, Due T s log (T.atnagentPe i r) (inputMessage i r (s.control.atnagents i r) destination) invocation := by
  have outgoing := post.rank i r rank
  have holding : (s.control.atnagents i r).pc.holding := by
    rw [stands]
    rfl
  have mailed := outgoing.input holding
  simp only [stands, AtnAgentPc.inputLeft] at mailed
  obtain ⟨invocation, granted, lease, key, layer, -⟩ := established.holding rank holding
  have index : invocation.key.instanceIndex = i := by
    rw [key]
    rfl
  obtain ⟨member, paired⟩ := mem_pairedPes.mp mailed.mem
  refine ⟨invocation, granted, ?_, ?_, ?_, outgoing.record _ stands, ?_⟩
  · simp only [inputMessage, PayloadSlot.lane, key, lease]
  · have pes : T.executionPes (invocation.execution
        (s.control.leaseCount (s.control.atnagents i r).admission.executorLaneIndex)) =
        T.ffnagentPes i (s.control.atnagents i r).context.layerOrdinal := by
      simp only [Topology.executionPes, Invocation.execution, index, layer]
    simp only [inputMessage, PayloadSlot.lane, Topology.sender, pes, if_pos member]
    simp only [Invocation.execution, index, paired]
  · exact mailed.unsent destination List.mem_cons_self
  · have low := Topology.atnagentPes_lt (Topology.atnagentPe_mem rank)
    have high := (Topology.ffnagentPes_range member).1
    intro same
    dsimp only [inputMessage] at same
    omega

/-- What the acting rank has sent after its step. -/
theorem RankPosts.outgoing (posts : RankPosts T s t i r extra) (post : Post T s log) (established : Established T s.control)
    (established' : Established T t.control) (effect : AtnAgentControl T s.control i r t.control) (rank : T.isRank i r) :
    Outgoing T t (log ++ extra.toList) i r := by
  have outgoing := post.rank i r rank
  have book := established.admissions.rank i r rank
  obtain ⟨past, counted⟩ := effect.past_le book
  have bounded : ∀ m ∈ log, m.sender = .atnagent i r →
      m.record.key.invocationSequence ≤
        max (t.control.acknowledgements i r).length (t.control.atnagents i r).admission.key.invocationSequence :=
    fun m member sender => Nat.le_trans (outgoing.past m member sender) past
  cases posts with
  | outside slots idle =>
    rw [Option.toList_none, List.append_nil]
    refine ⟨bounded, ?_, ?_⟩
    · intro holding
      rw [idle] at holding
      cases holding
    · intro rest stands
      rw [stands] at idle
      cases idle
  | keep slots same =>
    rw [Option.toList_none, List.append_nil]
    refine ⟨bounded, ?_, ?_⟩
    · rw [same]
      exact outgoing.input
    · rw [same, slots]
      exact outgoing.record
  | admitted slots stands pc =>
    rw [Option.toList_none, List.append_nil]
    have holding : (t.control.atnagents i r).pc.holding := by
      rw [pc]
      split <;> rfl
    refine ⟨bounded, ?_, ?_⟩
    · intro _
      rw [pc]
      split
      · -- nothing of this invocation has been sent yet
        apply Mailed.start
        intro d _ sent
        have before := outgoing.past _ sent rfl
        have free := book.free (.inr (.inr stands))
        obtain ⟨count, number, -⟩ := (established'.ledger i r rank).waiting (AtnAgentPc.submitted_of_holding holding).1
        dsimp only [inputMessage, AtnAgent.key] at before
        omega
      · next narrow =>
        have nobody : T.pairedPes i (t.control.atnagents i r).context.layerOrdinal r = [] := by
          apply List.eq_nil_iff_forall_not_mem.mpr
          intro d member
          obtain ⟨inside, paired⟩ := mem_pairedPes.mp member
          have bound := List.idxOf_lt_length_of_mem inside
          have := Nat.mod_le
            ((T.ffnagentPes i (t.control.atnagents i r).context.layerOrdinal).idxOf d)
            ((T.instanceEntry i).atnTpSize * (T.instanceEntry i).atnDpSize)
          omega
        rw [nobody]
        exact .nothing
    · intro rest publishing
      rw [pc] at publishing
      split at publishing <;> cases publishing
  | advance slots pc holding after left sent =>
    rw [Option.toList_none, List.append_nil]
    refine ⟨bounded, ?_, ?_⟩
    · intro _
      have mailed := outgoing.input holding
      rw [(left _).1] at mailed
      rw [after]
      dsimp only
      rw [(left _).2]
      exact mailed
    · intro rest publishing
      rw [after] at publishing
      exact absurd publishing (sent rest)
  | stage stands after slots =>
    rw [Option.toList_none, List.append_nil]
    have holding : (s.control.atnagents i r).pc.holding := by
      rw [stands]
      rfl
    refine ⟨bounded, ?_, ?_⟩
    · intro _
      have mailed := outgoing.input holding
      rw [stands] at mailed
      rw [after]
      exact mailed
    · intro rest _
      rw [slots, after]
      simp only [Payloads.store, Payloads.setSlot_slots]
      rfl
  | send destination rest values stands after slots =>
    have holding : (s.control.atnagents i r).pc.holding := by
      rw [stands]
      rfl
    have mailed := outgoing.input holding
    simp only [stands, AtnAgentPc.inputLeft] at mailed
    have record := outgoing.record _ stands
    rw [record]
    refine ⟨?_, ?_, ?_⟩
    · intro m member sender
      rcases mem_extend.mp member with old | new
      · exact bounded m old sender
      · obtain rfl := Option.some.inj new
        have named := book.holding holding
        rw [after]
        dsimp only
        rw [named]
        simp [AtnAgent.key]
    · intro _
      rw [after]
      apply mailed.send (pairedPes_nodup _ _ _)
      intro a b same
      exact congrArg Sending.destination same
    · intro rest' _
      rw [slots, after, (publish_slots _ _ _ _ _ _ _).1]
      exact record

/-- A step of a rank that sends nothing. -/
theorem Post.rank_silent (post : Post T s log) (frame : AtnAgentsFrame T s.control i r t.control)
    (own : Outgoing T t log i r)
    (flights :
      ∀ pe slot, (t.payloads.slots pe slot).flight = (s.payloads.slots pe slot).flight ∧
        (t.payloads.slots pe slot).sequence = (s.payloads.slots pe slot).sequence)
    (records :
      ∀ i' r', T.isRank i' r' → ¬(i' = i ∧ r' = r) → ∀ rest, (s.control.atnagents i' r').pc = .publishInput rest →
        (t.payloads.slots (T.atnagentPe i' r')
            (.inputReady (s.control.atnagents i' r').admission.executorLaneIndex)).record =
          (s.payloads.slots (T.atnagentPe i' r')
              (.inputReady (s.control.atnagents i' r').admission.executorLaneIndex)).record)
    (lanes : ∀ p ℓ, T.isLane p ℓ → ∀ slot, t.payloads.slots p slot = s.payloads.slots p slot) : Post T t log := by
  have silent : log = log ++ (none : Option Sending).toList := by simp
  have leases : ∀ ℓ, s.control.leases ℓ <+: t.control.leases ℓ := by
    intro ℓ
    rw [frame.leases]
  refine ⟨post.nodup, fun m member => (post.addressed m member).mono leases, ?_, ?_, ?_, ?_, ?_⟩
  · intro pe slot put member
    rw [(flights _ _).1] at member
    exact post.flown pe slot put member
  · intro m member
    exact (post.carried m member).mono (by rw [(flights _ _).1]; exact fun _ => id) (flights _ _).2
  · intro i' r' rank'
    by_cases same : i' = i ∧ r' = r
    · obtain ⟨rfl, rfl⟩ := same
      exact own
    · rw [silent]
      exact (post.rank i' r' rank').frame (frame.atnagents _ _ same) (frame.acknowledgements _ _ same)
        (records i' r' rank' same) (by simp)
  · intro p ℓ isLane
    rw [silent]
    refine (post.lane p ℓ isLane).frame (by rw [frame.lanes]) leases (fun _ _ => ?_) (fun _ _ => ?_) (by simp)
    · rw [lanes p ℓ isLane]
    · rw [lanes p ℓ isLane]
  · intro p ℓ isLane
    rw [silent]
    exact (post.inbox p ℓ isLane).same (by rw [frame.lanes]) fun slot _ => lanes p ℓ isLane slot

/-- A step of a rank. -/
theorem RankPosts.post (posts : RankPosts T s t i r extra) (post : Post T s log) (established : Established T s.control)
    (established' : Established T t.control) (effect : AtnAgentControl T s.control i r t.control) (rank : T.isRank i r) :
    Post T t (log ++ extra.toList) := by
  have own := posts.outgoing post established established' effect rank
  have frame := effect.frame
  have low := Topology.atnagentPes_lt (Topology.atnagentPe_mem rank)
  cases posts with
  | outside slots =>
    rw [Option.toList_none, List.append_nil] at own ⊢
    exact post.rank_silent frame own (by simp [slots]) (by simp [slots]) (by simp [slots])
  | keep slots =>
    rw [Option.toList_none, List.append_nil] at own ⊢
    exact post.rank_silent frame own (by simp [slots]) (by simp [slots]) (by simp [slots])
  | admitted slots =>
    rw [Option.toList_none, List.append_nil] at own ⊢
    exact post.rank_silent frame own (by simp [slots]) (by simp [slots]) (by simp [slots])
  | advance slots =>
    rw [Option.toList_none, List.append_nil] at own ⊢
    exact post.rank_silent frame own (by simp [slots]) (by simp [slots]) (by simp [slots])
  | stage stands after slots =>
    rw [Option.toList_none, List.append_nil] at own ⊢
    have holding : (s.control.atnagents i r).pc.holding := by
      rw [stands]
      rfl
    apply post.rank_silent frame own
    · intro pe slot
      rw [slots, Payloads.store, Payloads.setSlot_slots]
      split
      · next same =>
        obtain ⟨rfl, rfl⟩ := same
        exact ⟨rfl, rfl⟩
      · exact ⟨rfl, rfl⟩
    · -- no other rank has its record in the word that this one writes
      intro i' r' rank' other rest publishing
      rw [slots, Payloads.store, Payloads.setSlot_slots, if_neg]
      rintro ⟨pe, lane⟩
      have holding' : (s.control.atnagents i' r').pc.holding := by
        rw [publishing]
        rfl
      exact other (established.holder_unique rank' rank holding' holding (PayloadSlot.inputReady.inj lane) pe)
    · intro p ℓ isLane slot
      have high := (Topology.isLane_iff.mp isLane).1
      rw [slots, Payloads.store, Payloads.setSlot_slots, if_neg]
      omega
  | send destination rest values stands after slots =>
    obtain ⟨invocation, due⟩ := post.rank_due established rank stands
    have record := (post.rank i r rank).record _ stands
    rw [record] at own ⊢
    obtain ⟨nodup, addressed⟩ := due.logged post
    refine ⟨nodup, ?_, due.flown post slots, due.carried post slots, ?_, ?_, ?_⟩
    · intro m member
      exact (addressed m member).mono fun ℓ => by rw [frame.leases]
    · intro i' r' rank'
      by_cases same : i' = i ∧ r' = r
      · obtain ⟨rfl, rfl⟩ := same
        exact own
      · refine post.rank_sent (m := inputMessage i r (s.control.atnagents i r) destination) slots rank'
          (frame.atnagents _ _ same) (frame.acknowledgements _ _ same) ?_
        rintro ⟨⟩
        exact same ⟨rfl, rfl⟩
    · intro p ℓ isLane
      exact post.lane_sent (m := inputMessage i r (s.control.atnagents i r) destination) slots isLane
        (by rw [frame.lanes]) frame.leases nofun
    · intro p ℓ isLane
      exact due.bystander post established slots isLane (by rw [frame.lanes])

end RankSteps

/-! ## Steps of a lane -/

section LaneSteps

variable {T : Topology} {V : Type} {s t : State V} {log : List Sending} {p ℓ : Nat} {extra : Option Sending}
  {slot : PayloadSlot}

theorem inspectPublications_ready {R E : Type} [PublicationRecord R] {sources : List (Channel R E)} {sequence : Nat}
    {key : InvocationKey} (ready : inspectPublications sources sequence key = .ready) :
    ∀ source ∈ sources, sequence ≤ source.sequence := by
  intro source member
  unfold inspectPublications at ready
  split at ready
  · cases ready
  split at ready
  · cases ready
  · next none =>
    simp only [List.any_eq_true, decide_eq_true_eq, not_exists, not_and] at none
    have := none source member
    omega

/-- What a lane has seen once its poll is ready. -/
theorem pollPayloads_ready (ready : Topology.pollPayloads s p ℓ = .ready) :
    (s.control.lanes p ℓ).execution.executorLeaseSequence ≤ (s.payloads.slots p (.inputReady ℓ)).sequence ∧
      ((s.control.lanes p ℓ).requiresRoutingMetadata →
        (s.control.lanes p ℓ).execution.executorLeaseSequence ≤
          (s.payloads.slots p (.routingMetadataReady ℓ)).sequence) := by
  have reached := inspectPublications_ready ready
  constructor
  · apply reached
    split <;> simp
  · intro requires
    apply reached
    simp [requires]

theorem probePeers_ready (ready : T.probePeers s p ℓ = .ready)
    (rank :
      (s.control.lanes p ℓ).localTpRank = (T.executionPes (s.control.lanes p ℓ).execution).idxOf p)
    {source : Nat} (member : source ∈ T.executionPes (s.control.lanes p ℓ).execution) (other : source ≠ p) :
    (s.control.lanes p ℓ).execution.executorLeaseSequence ≤ (s.payloads.slots p (.partialReady source ℓ)).sequence := by
  apply inspectPublications_ready ready
  refine List.mem_map.mpr ⟨source, ?_, rfl⟩
  rw [rank, ← List.erase_eq_eraseIdx_of_idxOf rfl]
  exact (List.mem_erase_of_ne other).mpr member

/-- Nobody sends to itself. -/
theorem sender_remote {execution : LaneExecution} {destination lane : Nat}
    (owed : T.sender execution destination slot = some (.lane p lane)) : p ≠ destination := by
  cases slot with
  | inputReady lane =>
    simp only [Topology.sender] at owed
    split at owed <;> cases owed
  | routingMetadataReady lane =>
    simp only [Topology.sender] at owed
    split at owed
    · next owner rest pes =>
      split at owed
      · next member =>
        obtain ⟨rfl, -⟩ := Sender.lane.inj (Option.some.inj owed)
        have distinct := executionPes_nodup (T := T) execution
        rw [pes] at distinct
        rintro rfl
        exact (List.nodup_cons.mp distinct).1 member.2
      · cases owed
    · cases owed
  | partialReady source lane =>
    simp only [Topology.sender] at owed
    split at owed
    · next member =>
      obtain ⟨rfl, -⟩ := Sender.lane.inj (Option.some.inj owed)
      exact member.2.2.2.1
    · cases owed

/-- The owner of the router is not owed its metadata. -/
theorem routing_unowed {execution : LaneExecution} (first : (T.executionPes execution).idxOf p = 0) :
    T.sender execution p (.routingMetadataReady ℓ) = none := by
  have distinct := executionPes_nodup (T := T) execution
  simp only [Topology.sender]
  split
  · next owner tail pes =>
    rw [if_neg]
    rintro ⟨-, member⟩
    rw [pes] at distinct first
    have ne : owner ≠ p := by
      rintro rfl
      exact (List.nodup_cons.mp distinct).1 member
    rw [List.idxOf_cons_ne tail ne] at first
    omega
  · rfl

/-- Whoever is owed metadata requires it. -/
theorem routing_required {execution : LaneExecution} {sender : Sender}
    (owed : T.sender execution p (.routingMetadataReady ℓ) = some sender) :
    (T.executionLayer execution).kind = .moe ∧ (T.executionPes execution).idxOf p ≠ 0 := by
  refine ⟨?_, ?_⟩
  · simp only [Topology.sender] at owed
    split at owed
    · split at owed
      · next member => exact member.1
      · cases owed
    · cases owed
  · intro first
    rw [routing_unowed first] at owed
    cases owed

/-- The message that a lane has before it. -/
theorem Established.lane_due (established : Established T s.control) (isLane : T.isLane p ℓ)
    (live : (s.control.lanes p ℓ).live) {destination : Nat} (slot : PayloadSlot) (lane : slot.lane = ℓ)
    (owed : T.sender (s.control.lanes p ℓ).execution destination slot = some (.lane p ℓ))
    (unsent : laneMessage p ℓ slot (s.control.lanes p ℓ).execution destination ∉ log)
    (stored :
      (s.payloads.slots p slot).record =
        ⟨(s.control.lanes p ℓ).execution.key, (s.control.lanes p ℓ).execution.executorLeaseSequence⟩) :
    ∃ invocation, Due T s log p (laneMessage p ℓ slot (s.control.lanes p ℓ).execution destination) invocation := by
  obtain ⟨invocation, granted, -, execution, -⟩ := established.serving isLane live
  subst lane
  refine ⟨invocation, granted, ?_, ?_, unsent, stored, sender_remote owed⟩
  · rw [laneMessage, execution]
    rfl
  · rw [execution] at owed
    exact owed

/-- All that is owed to a lane has reached it by the time it completes. -/
theorem Incoming.reached (incoming : Incoming T s log p ℓ) (sound : (s.control.lanes p ℓ).Sound T p)
    (live : (s.control.lanes p ℓ).live) (stands : (s.control.lanes p ℓ).pc = .quietCompletion) (lane : slot.lane = ℓ)
    {sender : Sender} (owed : T.sender (s.control.lanes p ℓ).execution p slot = some sender) :
    (s.control.lanes p ℓ).execution.executorLeaseSequence ≤ (s.payloads.slots p slot).sequence := by
  obtain ⟨-, rank, requires⟩ := selectExecution_some (sound.selected live)
  obtain ⟨input, routing⟩ := incoming.received live (by simp [stands])
  subst lane
  cases slot with
  | inputReady lane => exact input
  | routingMetadataReady lane =>
    apply routing
    rw [requires]
    exact decide_eq_true (routing_required owed)
  | partialReady source lane =>
    simp only [Topology.sender] at owed
    split at owed
    · next reads =>
      obtain ⟨complete, member, sourced, other, bound⟩ := reads
      refine incoming.reduced live (by rw [stands]; rfl) ⟨complete, ?_⟩ source sourced other
      have inside := List.idxOf_lt_length_of_mem member
      have active : T.activeReaderCount (s.control.lanes p (PayloadSlot.partialReady source lane).lane).execution =
        min (s.control.lanes p (PayloadSlot.partialReady source lane).lane).execution.payloadRows
          (T.executionPes (s.control.lanes p (PayloadSlot.partialReady source lane).lane).execution).length := rfl
      omega
    · cases owed

/-- A lane about to complete has consumed its inbox. -/
theorem Post.consumed (post : Post T s log) (established : Established T s.control) (isLane : T.isLane p ℓ)
    (live : (s.control.lanes p ℓ).live) (stands : (s.control.lanes p ℓ).pc = .quietCompletion) (lane : slot.lane = ℓ) :
    ((s.payloads.slots p slot).flight = [] ∧
        (s.payloads.slots p slot).sequence ≤ (s.control.lanes p ℓ).execution.executorLeaseSequence) ∧
      ∀ sender, T.sender (s.control.lanes p ℓ).execution p slot = some sender →
        ⟨sender, p, slot,
          ⟨(s.control.lanes p ℓ).execution.key, (s.control.lanes p ℓ).execution.executorLeaseSequence⟩⟩ ∈ log := by
  obtain ⟨invocation, granted, -, execution, -, -, behind⟩ := established.serving isLane live
  have reached (sender : Sender) (owed : T.sender (s.control.lanes p ℓ).execution p slot = some sender) :=
    (post.inbox p ℓ isLane).reached (post.lane p ℓ isLane).sound live stands lane owed
  rw [execution] at reached ⊢
  cases owed : T.sender (invocation.execution (s.control.leaseCount ℓ)) p slot with
  | none =>
    obtain ⟨flight, sequence⟩ := post.unaddressed established isLane lane granted owed
    exact ⟨⟨flight, Nat.le_trans sequence (Nat.le_of_lt behind)⟩, nofun⟩
  | some sender =>
    obtain ⟨flight, sequence, -, sender', owed', sent⟩ :=
      post.arrived established isLane lane granted behind (reached sender owed)
    refine ⟨⟨flight, Nat.le_of_eq sequence⟩, ?_⟩
    rintro _ ⟨⟩
    rw [owed] at owed'
    obtain rfl := Option.some.inj owed'
    exact sent

end LaneSteps

/-! ## The acting lane -/

section Acting

variable {T : Topology} {V : Type} {s t : State V} {log log' : List Sending} {p ℓ : Nat} {extra : Option Sending}
  {slot : PayloadSlot} {pc : LanePc}

/-- A live lane goes on to another node of its lease. -/
theorem LaneOutgoing.moved (outgoing : LaneOutgoing T s log p ℓ) (established : Established T s.control)
    (isLane : T.isLane p ℓ) (live : (s.control.lanes p ℓ).live)
    (after : t.control.lanes p ℓ = { s.control.lanes p ℓ with pc := pc }) (alive : (t.control.lanes p ℓ).live)
    (past :
      ∀ m ∈ log', m ∈ log ∨ m.record.executorLeaseSequence = (s.control.lanes p ℓ).execution.executorLeaseSequence)
    (routing :
      Mailed (laneMessage p ℓ (.routingMetadataReady ℓ) (s.control.lanes p ℓ).execution)
        (T.routingPlan (s.control.lanes p ℓ).execution p)
        (pc.routingLeft (T.routingPlan (s.control.lanes p ℓ).execution p)) log')
    (partials :
      Mailed (laneMessage p ℓ (.partialReady p ℓ) (s.control.lanes p ℓ).execution)
        (T.partialPlan (s.control.lanes p ℓ).execution p)
        (pc.partialLeft (T.partialPlan (s.control.lanes p ℓ).execution p)) log')
    (routingRecord :
      ∀ rest, pc = .sendRouting rest →
        (T.executionPes (s.control.lanes p ℓ).execution).idxOf p = 0 ∧
          (t.payloads.slots p (.routingMetadataReady ℓ)).record =
            ⟨(s.control.lanes p ℓ).execution.key, (s.control.lanes p ℓ).execution.executorLeaseSequence⟩)
    (partialRecord :
      ∀ rest, pc = .quietPartial rest ∨ pc = .publishPartial rest →
        (t.payloads.slots p (.partialReady p ℓ)).record =
          ⟨(s.control.lanes p ℓ).execution.key, (s.control.lanes p ℓ).execution.executorLeaseSequence⟩)
    (completes :
      pc.exchanges →
        T.complete (s.control.lanes p ℓ).execution.key.instanceIndex (s.control.lanes p ℓ).execution.outputRequirement)
    (probes :
      pc = .probePeerPartials →
        (s.control.lanes p ℓ).localTpRank < T.activeReaderCount (s.control.lanes p ℓ).execution) :
    LaneOutgoing T t log' p ℓ := by
  obtain ⟨terminal, serves⟩ := Lane.live_iff.mp alive
  obtain ⟨invocation, -, -, execution, -, -, behind⟩ := established.serving isLane live
  have number : (s.control.lanes p ℓ).execution.executorLeaseSequence = s.control.leaseCount ℓ := by
    rw [execution]
    rfl
  refine ⟨⟨?_, fun _ => terminal, ?_, ?_, ?_⟩, ?_, ?_, ?_, ?_, ?_, ?_, ?_, ?_⟩
  · intro site result doomed
    rw [doomed] at serves
    cases serves
  all_goals rw [after]
  · exact fun _ => outgoing.sound.selected live
  · exact fun _ => completes
  · exact fun _ => probes
  · exact outgoing.behind
  · intro waits
    rw [after, show pc = .awaitExecution from waits] at serves
    cases serves
  · intro m member sender
    rcases past m member with old | new
    · exact outgoing.past m old sender
    · exact Nat.le_of_eq new
  · exact fun _ => routing
  · exact fun _ => partials
  · intro caught
    dsimp only at caught
    omega
  · exact routingRecord
  · exact partialRecord

/-- The lane has lost its lease; what it did before stays done. -/
theorem LaneOutgoing.died (outgoing : LaneOutgoing T s log p ℓ)
    (leases : ∀ ℓ, s.control.leases ℓ <+: t.control.leases ℓ)
    (execution : (t.control.lanes p ℓ).execution = (s.control.lanes p ℓ).execution)
    (last : (t.control.lanes p ℓ).lastLeaseSequence = (s.control.lanes p ℓ).lastLeaseSequence)
    (dead : (t.control.lanes p ℓ).live = false) (busy : (t.control.lanes p ℓ).pc ≠ .awaitExecution)
    (doomed : ∀ site result, (t.control.lanes p ℓ).pc = .terminate site result → (t.control.lanes p ℓ).terminal)
    (unstaged : (t.control.lanes p ℓ).pc.sending = false) : LaneOutgoing T t log p ℓ := by
  have staged {Q : Prop} (sending : (t.control.lanes p ℓ).pc.sending) : Q := by
    rw [unstaged] at sending
    cases sending
  refine ⟨⟨doomed, staged, by simp [dead], by simp [dead], by simp [dead]⟩, ?_, fun waits => absurd waits busy, ?_, by simp [dead], by simp [dead], ?_, ?_, ?_⟩
  · rw [execution, last]
    exact outgoing.behind
  · rw [execution]
    exact outgoing.past
  · rw [execution, last]
    intro caught nonzero
    obtain ⟨⟨invocation, granted, eq⟩, served⟩ := outgoing.completed caught nonzero
    exact ⟨⟨invocation, granted.mono (leases _), eq⟩, served⟩
  · intro rest stands
    exact staged (by rw [stands]; rfl)
  · rintro rest (stands | stands)
    all_goals exact staged (by rw [stands]; rfl)

/-- A live lane goes on, with the words of its inbox as they were. -/
theorem Incoming.moved (incoming : Incoming T s log p ℓ) (sound : (s.control.lanes p ℓ).Sound T p)
    (live : (s.control.lanes p ℓ).live) (after : t.control.lanes p ℓ = { s.control.lanes p ℓ with pc := pc })
    (tracks :
      ∀ slot : PayloadSlot, slot.lane = ℓ →
        (t.payloads.slots p slot).Tracks publicationSequence (fun record => ∃ sender, ⟨sender, p, slot, record⟩ ∈ log')
          (s.control.lanes p ℓ).lastLeaseSequence)
    (sequences : ∀ slot, (t.payloads.slots p slot).sequence = (s.payloads.slots p slot).sequence)
    (received : (s.control.lanes p ℓ).pc = .awaitPayloads → Topology.pollPayloads s p ℓ = .ready)
    (reduced :
      pc.reduced → (s.control.lanes p ℓ).pc.reduced ∨ ((s.control.lanes p ℓ).reads T → T.probePeers s p ℓ = .ready)) :
    Incoming T t log' p ℓ := by
  obtain ⟨-, rank, -⟩ := selectExecution_some (sound.selected live)
  refine ⟨?_, ?_, ?_⟩
  all_goals
    rw [after]
    dsimp only
  · exact tracks
  · intro _ _
    rw [sequences, sequences]
    by_cases waits : (s.control.lanes p ℓ).pc = .awaitPayloads
    · exact pollPayloads_ready (received waits)
    · exact incoming.received live waits
  · intro _ reduces reads source member other
    rw [sequences]
    rcases reduced reduces with before | ready
    · exact incoming.reduced live before reads source member other
    · exact probePeers_ready (ready reads) rank member other

/-- The record that a lane stages for others is not one that others send it. -/
theorem Post.staged (post : Post T s log) (established : Established T s.control) (isLane : T.isLane p ℓ)
    (live : (s.control.lanes p ℓ).live) {own : PayloadSlot} (lane : own.lane = ℓ)
    (nobody : T.sender (s.control.lanes p ℓ).execution p own = none) {record : LaneSuccess}
    (slots : t.payloads.slots = (s.payloads.store p own record).slots) :
    (∀ slot : PayloadSlot, slot.lane = ℓ →
        (t.payloads.slots p slot).Tracks publicationSequence (fun record => ∃ sender, ⟨sender, p, slot, record⟩ ∈ log)
          (s.control.lanes p ℓ).lastLeaseSequence) ∧
      ∀ slot, (t.payloads.slots p slot).sequence = (s.payloads.slots p slot).sequence := by
  obtain ⟨invocation, granted, -, execution, -⟩ := established.serving isLane live
  rw [execution] at nobody
  obtain ⟨flight, sequence⟩ := post.unaddressed established isLane lane granted nobody
  constructor
  · intro slot named
    rw [slots, Payloads.store, Payloads.setSlot_slots]
    split
    · exact .store flight sequence _
    · exact (post.inbox p ℓ isLane).tracks slot named
  · intro slot
    rw [slots, Payloads.store, Payloads.setSlot_slots]
    split
    · next same =>
      rw [same.2]
      rfl
    · rfl

/-- A lane observes an execution beyond all that it has sent. -/
theorem LaneOutgoing.observed (outgoing : LaneOutgoing T s log p ℓ) (established : Established T s.control)
    (isLane : T.isLane p ℓ) (stands : (s.control.lanes p ℓ).pc = .awaitExecution)
    (fresh :
      ((s.control.lanes p ℓ).lastLeaseSequence + 1) % 2 ^ 64 ≠ 0 ∧
        ((s.control.lanes p ℓ).lastLeaseSequence + 1) % 2 ^ 64 ≤ (s.control.slots p (.laneExecution ℓ)).sequence)
    (execution : (t.control.lanes p ℓ).execution = (s.control.slots p (.laneExecution ℓ)).record)
    (last : (t.control.lanes p ℓ).lastLeaseSequence = (s.control.lanes p ℓ).lastLeaseSequence)
    (selected :
      ((t.control.lanes p ℓ).pc = .terminate .lane .protocolMismatch ∧ (t.control.lanes p ℓ).terminal) ∨
        ((t.control.lanes p ℓ).pc = .awaitPayloads ∧ (t.control.lanes p ℓ).terminal = false ∧
          T.selectExecution p (t.control.lanes p ℓ).execution =
            some ((t.control.lanes p ℓ).localTpRank, (t.control.lanes p ℓ).payloadRowCapacity,
              (t.control.lanes p ℓ).requiresRoutingMetadata))) : LaneOutgoing T t log p ℓ := by
  have book := established.leases.lane p ℓ isLane
  have beyond := book.fresh stands fresh.1 fresh.2
  obtain ⟨-, -, number⟩ := book.tracks.fresh beyond
  rw [Lane.consumed_of_not_leased (book.waits stands), ← number, ← execution] at beyond
  have later : (s.control.lanes p ℓ).lastLeaseSequence < (t.control.lanes p ℓ).execution.executorLeaseSequence := beyond
  have resting := outgoing.idle stands
  have unsent {plan : List Nat} {slot : PayloadSlot} :
      ∀ d ∈ plan, laneMessage p ℓ slot (t.control.lanes p ℓ).execution d ∉ log := by
    intro d _ sent
    have := outgoing.past _ sent rfl
    dsimp only [laneMessage] at this
    omega
  refine ⟨⟨?_, ?_, ?_, ?_, ?_⟩, ?_, ?_, ?_, ?_, ?_, ?_, ?_, ?_⟩
  · rcases selected with ⟨-, terminal⟩ | ⟨pc, -⟩
    · exact fun _ _ _ => terminal
    · simp [pc]
  · rcases selected with ⟨pc, -⟩ | ⟨pc, -⟩ <;> simp [pc, LanePc.sending]
  · rcases selected with ⟨pc, -⟩ | ⟨-, -, chosen⟩
    · simp [pc, Lane.live, LanePc.serving]
    · exact fun _ => chosen
  · rcases selected with ⟨pc, -⟩ | ⟨pc, -⟩ <;> simp [pc, LanePc.exchanges]
  · rcases selected with ⟨pc, -⟩ | ⟨pc, -⟩ <;> simp [pc]
  · omega
  · rcases selected with ⟨pc, -⟩ | ⟨pc, -⟩ <;> simp [pc]
  · intro m member sender
    have := outgoing.past m member sender
    omega
  · intro live
    rcases selected with ⟨pc, -⟩ | ⟨pc, -⟩
    · simp [pc, Lane.live, LanePc.serving] at live
    · rw [pc]
      exact .start unsent
  · intro live
    rcases selected with ⟨pc, -⟩ | ⟨pc, -⟩
    · simp [pc, Lane.live, LanePc.serving] at live
    · rw [pc]
      exact .start unsent
  · intro caught
    omega
  · rcases selected with ⟨pc, -⟩ | ⟨pc, -⟩ <;> simp [pc]
  · rcases selected with ⟨pc, -⟩ | ⟨pc, -⟩ <;> simp [pc]

/-- A lane completes its lease, with all sent and all received. -/
theorem Post.completes (post : Post T s log) (established : Established T s.control) (isLane : T.isLane p ℓ)
    (leases : t.control.leases = s.control.leases) (slots : t.payloads.slots = s.payloads.slots)
    (live : (s.control.lanes p ℓ).live) (stands : (s.control.lanes p ℓ).pc = .quietCompletion)
    (after :
      t.control.lanes p ℓ =
        { s.control.lanes p ℓ with
          pc := .awaitExecution
          lastLeaseSequence := (s.control.lanes p ℓ).execution.executorLeaseSequence }) :
    LaneOutgoing T t log p ℓ ∧ Incoming T t log p ℓ := by
  have outgoing := post.lane p ℓ isLane
  obtain ⟨invocation, granted, -, execution, -⟩ := established.serving isLane live
  have consumed {slot : PayloadSlot} (lane : slot.lane = ℓ) := post.consumed established isLane live stands lane
  have routing := outgoing.routing live
  have partials := outgoing.partials live
  rw [stands] at routing partials
  constructor
  · refine ⟨⟨?_, ?_, ?_, ?_, ?_⟩, ?_, ?_, ?_, ?_, ?_, ?_, ?_, ?_⟩
    all_goals rw [after]
    · simp
    · simp [LanePc.sending]
    · simp [Lane.live, LanePc.serving]
    · simp [Lane.live, LanePc.serving]
    · simp
    · simp
    · exact outgoing.past
    · simp [Lane.live, LanePc.serving]
    · simp [Lane.live, LanePc.serving]
    · intro _ _
      refine ⟨⟨invocation, ?_, ?_⟩, ⟨routing, partials⟩, fun slot sender lane owed => (consumed lane).2 sender owed⟩
      · dsimp only
        rw [execution]
        exact granted.mono (by rw [leases])
      · dsimp only
        rw [execution]
        rfl
    · simp
    · simp
  · refine ⟨?_, ?_, ?_⟩
    all_goals rw [after]
    · intro slot lane
      rw [slots]
      obtain ⟨⟨flight, sequence⟩, -⟩ := consumed lane
      exact .idle flight sequence
    · simp [Lane.live, LanePc.serving]
    · simp [Lane.live, LanePc.serving]

end Acting

/-! ## Every step of a lane -/

section LaneRuns

variable {T : Topology} {V : Type} {s t : State V} {log : List Sending} {p ℓ : Nat} {extra : Option Sending}
  {slot : PayloadSlot}

/-- A live lane goes on without a word to anybody. -/
theorem LaneOutgoing.proceeds (outgoing : LaneOutgoing T s log p ℓ) (established : Established T s.control)
    (isLane : T.isLane p ℓ) {pc : LanePc} (slots : t.payloads.slots = s.payloads.slots)
    (live : (s.control.lanes p ℓ).live) (after : t.control.lanes p ℓ = { s.control.lanes p ℓ with pc := pc })
    (alive : (t.control.lanes p ℓ).live)
    (routing :
      pc.routingLeft (T.routingPlan (s.control.lanes p ℓ).execution p) =
        (s.control.lanes p ℓ).pc.routingLeft (T.routingPlan (s.control.lanes p ℓ).execution p))
    (partials :
      pc.partialLeft (T.partialPlan (s.control.lanes p ℓ).execution p) =
        (s.control.lanes p ℓ).pc.partialLeft (T.partialPlan (s.control.lanes p ℓ).execution p))
    (routes : ∀ rest, pc ≠ .sendRouting rest)
    (publishes : ∀ rest, pc = .publishPartial rest → (s.control.lanes p ℓ).pc = .quietPartial rest)
    (stages : ∀ rest, pc ≠ .quietPartial rest)
    (probes :
      pc = .probePeerPartials →
        (∃ rest, (s.control.lanes p ℓ).pc = .publishPartial rest) ∧
          (s.control.lanes p ℓ).localTpRank < T.activeReaderCount (s.control.lanes p ℓ).execution) :
    LaneOutgoing T t log p ℓ := by
  apply outgoing.moved established isLane live after alive (fun _ member => .inl member)
  · rw [routing]
    exact outgoing.routing live
  · rw [partials]
    exact outgoing.partials live
  · exact fun rest stands => absurd stands (routes rest)
  · rintro rest (staged | publishing)
    · exact absurd staged (stages rest)
    · rw [slots]
      exact outgoing.partialRecord rest (.inl (publishes rest publishing))
  · intro exchanges
    apply outgoing.sound.completes live
    cases pc with
    | quietPartial rest => exact absurd rfl (stages rest)
    | publishPartial rest =>
      rw [publishes rest rfl]
      rfl
    | probePeerPartials =>
      obtain ⟨⟨rest, stands⟩, -⟩ := probes rfl
      rw [stands]
      rfl
    | _ => cases exchanges
  · exact fun eq => (probes eq).2

/-- The messages of a lane about one publication differ by their destination. -/
theorem laneMessage_injective {execution : LaneExecution} : Function.Injective (laneMessage p ℓ slot execution) := by
  intro a b same
  exact congrArg Sending.destination same

/-- Two publications of a lane have no message in common. -/
theorem laneMessage_ne {slot' : PayloadSlot} {execution : LaneExecution} {a b : Nat} (ne : slot ≠ slot') :
    laneMessage p ℓ slot execution a ≠ laneMessage p ℓ slot' execution b := by
  intro same
  exact ne (congrArg Sending.slot same)

/-- A message of a lane is sent, and the other parties see nothing of it but their
inboxes. -/
theorem Due.post {m : Sending} {invocation : Invocation} {values : List V} (due : Due T s log p m invocation)
    (post : Post T s log) (established : Established T s.control) (frame : LanesFrame s.control p ℓ t.control)
    (sender : m.sender = .lane p ℓ) (slots : t.payloads.slots = (s.payloads.publish p m.destination m.slot values).slots)
    (outgoing : LaneOutgoing T t (log ++ [m]) p ℓ) (incoming : Incoming T t (log ++ [m]) p ℓ) :
    Post T t (log ++ [m]) := by
  obtain ⟨nodup, addressed⟩ := due.logged post
  refine ⟨nodup, ?_, due.flown post slots, due.carried post slots, ?_, ?_, ?_⟩
  · intro m' member
    exact (addressed m' member).mono fun ℓ => by rw [frame.leases]
  · intro i r rank
    refine post.rank_sent slots rank (by rw [frame.atnagents]) (by rw [frame.acknowledgements]) ?_
    simp [sender]
  · intro p' ℓ' isLane'
    by_cases same : p' = p ∧ ℓ' = ℓ
    · obtain ⟨rfl, rfl⟩ := same
      exact outgoing
    · refine post.lane_sent slots isLane' (frame.lanes _ _ same) frame.leases ?_
      rw [sender]
      rintro ⟨⟩
      exact same ⟨rfl, rfl⟩
  · intro p' ℓ' isLane'
    by_cases same : p' = p ∧ ℓ' = ℓ
    · obtain ⟨rfl, rfl⟩ := same
      exact incoming
    · exact due.bystander post established slots isLane' (frame.lanes _ _ same)

/-- A step of a lane that sends nothing and stores at most a record of its own. -/
theorem Post.lane_silent (post : Post T s log) (frame : LanesFrame s.control p ℓ t.control) (isLane : T.isLane p ℓ)
    (flights :
      ∀ pe slot, (t.payloads.slots pe slot).flight = (s.payloads.slots pe slot).flight ∧
        (t.payloads.slots pe slot).sequence = (s.payloads.slots pe slot).sequence)
    (elsewhere : ∀ pe slot, ¬(pe = p ∧ slot.lane = ℓ) → t.payloads.slots pe slot = s.payloads.slots pe slot)
    (own : LaneOutgoing T t log p ℓ ∧ Incoming T t log p ℓ) : Post T t log := by
  have silent : log = log ++ (none : Option Sending).toList := by simp
  have leases : ∀ ℓ, s.control.leases ℓ <+: t.control.leases ℓ := by
    intro ℓ
    rw [frame.leases]
  refine ⟨post.nodup, fun m member => (post.addressed m member).mono leases, ?_, ?_, ?_, ?_, ?_⟩
  · intro pe slot put member
    rw [(flights _ _).1] at member
    exact post.flown pe slot put member
  · intro m member
    exact (post.carried m member).mono (by rw [(flights _ _).1]; exact fun _ => id) (flights _ _).2
  · intro i r rank
    have low := Topology.atnagentPes_lt (Topology.atnagentPe_mem rank)
    have high := (Topology.isLane_iff.mp isLane).1
    rw [silent]
    refine (post.rank i r rank).frame (by rw [frame.atnagents]) (by rw [frame.acknowledgements]) (fun _ _ => ?_) (by simp)
    rw [elsewhere _ _ (by omega)]
  · intro p' ℓ' isLane'
    by_cases same : p' = p ∧ ℓ' = ℓ
    · obtain ⟨rfl, rfl⟩ := same
      exact own.1
    · rw [silent]
      refine (post.lane p' ℓ' isLane').frame (frame.lanes _ _ same) leases (fun _ _ => ?_) (fun _ _ => ?_) (by simp)
      all_goals rw [elsewhere _ _ same]
  · intro p' ℓ' isLane'
    by_cases same : p' = p ∧ ℓ' = ℓ
    · obtain ⟨rfl, rfl⟩ := same
      exact own.2
    · rw [silent]
      refine (post.inbox p' ℓ' isLane').same (frame.lanes _ _ same) ?_
      rintro slot rfl
      exact elsewhere _ _ same

/-- Where a lane stores the record that it is about to publish. -/
theorem store_elsewhere {own : PayloadSlot} {record : LaneSuccess} (lane : own.lane = ℓ)
    (slots : t.payloads.slots = (s.payloads.store p own record).slots) :
    (∀ pe slot, (t.payloads.slots pe slot).flight = (s.payloads.slots pe slot).flight ∧
        (t.payloads.slots pe slot).sequence = (s.payloads.slots pe slot).sequence) ∧
      (∀ pe slot, ¬(pe = p ∧ slot.lane = ℓ) → t.payloads.slots pe slot = s.payloads.slots pe slot) ∧
      (t.payloads.slots p own).record = record := by
  refine ⟨?_, ?_, ?_⟩
  · intro pe slot
    rw [slots, Payloads.store, Payloads.setSlot_slots]
    split
    · next same =>
      obtain ⟨rfl, rfl⟩ := same
      exact ⟨rfl, rfl⟩
    · exact ⟨rfl, rfl⟩
  · intro pe slot other
    rw [slots, Payloads.store, Payloads.setSlot_slots, if_neg]
    rintro ⟨rfl, rfl⟩
    exact other ⟨rfl, lane⟩
  · rw [slots, Payloads.store, Payloads.setSlot_slots, if_pos ⟨rfl, rfl⟩]
    rfl

/-- A step of a lane. -/
theorem LanePosts.post (posts : LanePosts T s t p ℓ extra) (post : Post T s log) (established : Established T s.control)
    (effect : LaneControl T s.control p ℓ t.control) (isLane : T.isLane p ℓ) : Post T t (log ++ extra.toList) := by
  have frame := effect.frame
  have outgoing := post.lane p ℓ isLane
  have incoming := post.inbox p ℓ isLane
  have leases : ∀ ℓ, s.control.leases ℓ <+: t.control.leases ℓ := by
    intro ℓ
    rw [frame.leases]
  have quietly (slots : t.payloads.slots = s.payloads.slots) (own : LaneOutgoing T t log p ℓ ∧ Incoming T t log p ℓ) :
      Post T t log :=
    post.lane_silent frame isLane (by simp [slots]) (by simp [slots]) own
  cases posts with
  | dead slots execution last dead busy doomed unstaged =>
    rw [Option.toList_none, List.append_nil]
    refine quietly slots ⟨outgoing.died leases execution last dead busy doomed unstaged, ?_, by simp [dead], by simp [dead]⟩
    rw [last, slots]
    exact incoming.tracks
  | keep slots same =>
    rw [Option.toList_none, List.append_nil]
    have silent : log = log ++ (none : Option Sending).toList := by simp
    refine quietly slots ⟨?_, ?_⟩
    · rw [silent]
      exact outgoing.frame same leases (by simp [slots]) (by simp [slots]) (by simp)
    · rw [silent]
      exact incoming.same same (by simp [slots])
  | observe slots stands fresh execution last selected =>
    rw [Option.toList_none, List.append_nil]
    refine quietly slots ⟨outgoing.observed established isLane stands fresh execution last selected, ?_, ?_, ?_⟩
    · rw [last, slots]
      exact incoming.tracks
    · rcases selected with ⟨pc, -⟩ | ⟨pc, -⟩ <;> simp [pc, Lane.live, LanePc.serving]
    · rcases selected with ⟨pc, -⟩ | ⟨pc, -⟩ <;> simp [pc, LanePc.reduced]
  | move pc slots live after alive busy routing partials received reduced routes publishes stages probes =>
    rw [Option.toList_none, List.append_nil]
    refine quietly slots ⟨?_, ?_⟩
    · exact outgoing.proceeds established isLane slots live after alive routing partials routes publishes stages
        probes
    · exact incoming.moved outgoing.sound live after (by rw [slots]; exact incoming.tracks) (by simp [slots]) received reduced
  | stageRouting live stands first plan after slots =>
    rw [Option.toList_none, List.append_nil]
    obtain ⟨flights, elsewhere, record⟩ := store_elsewhere rfl slots
    obtain ⟨tracks, sequences⟩ := post.staged established isLane live rfl (routing_unowed first) slots
    have routing := outgoing.routing live
    have partials := outgoing.partials live
    rw [stands] at routing partials
    refine post.lane_silent frame isLane flights elsewhere ⟨?_, ?_⟩
    · apply outgoing.moved established isLane live after
      · rw [after]
        exact Lane.live_iff.mpr ⟨(Lane.live_iff.mp live).1, rfl⟩
      · exact fun _ member => .inl member
      · rw [← plan]
        exact routing
      · exact partials
      · exact fun _ _ => ⟨first, record⟩
      · simp
      · simp [LanePc.exchanges]
      · simp
    · exact incoming.moved outgoing.sound live after tracks sequences (by simp [stands]) (by intros; contradiction)
  | sendRouting destination rest values live stands after slots =>
    obtain ⟨member, -, -⟩ := selectExecution_some (outgoing.sound.selected live)
    obtain ⟨first, record⟩ := outgoing.routingRecord _ stands
    have routing := outgoing.routing live
    have partials := outgoing.partials live
    rw [stands] at routing partials
    obtain ⟨invocation, due⟩ := established.lane_due isLane live (.routingMetadataReady ℓ) rfl
      ((mem_routingPlan member).mp routing.mem) (routing.unsent destination List.mem_cons_self) record
    rw [record]
    refine due.post post established frame rfl slots ?_ ?_
    · apply outgoing.moved established isLane live after
      · rw [after]
        exact Lane.live_iff.mpr ⟨(Lane.live_iff.mp live).1, rfl⟩
      · intro m sent
        refine (List.mem_append.mp sent).imp id ?_
        intro new
        rw [List.mem_singleton.mp new]
        rfl
      · exact routing.send (routingPlan_nodup _ _) laneMessage_injective
      · apply partials.extend_one
        exact fun d => laneMessage_ne (by simp)
      · intro _ _
        rw [slots, (publish_slots _ _ _ _ _ _ _).1]
        exact ⟨first, record⟩
      · simp
      · simp [LanePc.exchanges]
      · simp
    · refine incoming.moved outgoing.sound live after
        (fun slot lane => due.tracks post established slots isLane lane) ?_ (by simp [stands]) (by intros; contradiction)
      intro slot
      rw [slots]
      exact (publish_slots _ _ _ _ _ _ _).2
  | stagePartial pc live stands after alive busy routed unsent reduced routes complete probes slots =>
    rw [Option.toList_none, List.append_nil]
    obtain ⟨flights, elsewhere, record⟩ := store_elsewhere rfl slots
    have nobody : T.sender (s.control.lanes p ℓ).execution p (.partialReady p ℓ) = none := by
      simp [Topology.sender]
    obtain ⟨tracks, sequences⟩ := post.staged established isLane live rfl nobody slots
    have routing := outgoing.routing live
    have partials := outgoing.partials live
    rw [stands] at routing partials
    refine post.lane_silent frame isLane flights elsewhere ⟨?_, ?_⟩
    · apply outgoing.moved established isLane live after alive
      · exact fun _ member => .inl member
      · rw [routed]
        exact routing
      · rw [unsent]
        exact partials
      · exact fun rest eq => absurd eq (routes rest)
      · exact fun _ _ => record
      · exact fun _ => complete
      · exact probes
    · exact incoming.moved outgoing.sound live after tracks sequences (by simp [stands]) fun reduces => .inr (reduced reduces)
  | sendPartial destination rest live stands after slots =>
    obtain ⟨member, -, -⟩ := selectExecution_some (outgoing.sound.selected live)
    have record := outgoing.partialRecord _ (.inr stands)
    have routing := outgoing.routing live
    have partials := outgoing.partials live
    rw [stands] at routing partials
    obtain ⟨invocation, due⟩ := established.lane_due isLane live (.partialReady p ℓ) rfl
      ((mem_partialPlan member).mp partials.mem) (partials.unsent destination List.mem_cons_self) record
    rw [record]
    refine due.post post established frame rfl slots ?_ ?_
    · apply outgoing.moved established isLane live after
      · rw [after]
        exact Lane.live_iff.mpr ⟨(Lane.live_iff.mp live).1, rfl⟩
      · intro m sent
        refine (List.mem_append.mp sent).imp id ?_
        intro new
        rw [List.mem_singleton.mp new]
        rfl
      · apply routing.extend_one
        exact fun d => laneMessage_ne (by simp)
      · exact partials.send (partialPlan_nodup _ _) laneMessage_injective
      · simp
      · intro _ _
        rw [slots, (publish_slots _ _ _ _ _ _ _).1]
        exact record
      · exact fun _ => outgoing.sound.completes live (by rw [stands]; rfl)
      · simp
    · refine incoming.moved outgoing.sound live after
        (fun slot lane => due.tracks post established slots isLane lane) ?_ (by simp [stands]) (by intros; contradiction)
      intro slot
      rw [slots]
      exact (publish_slots _ _ _ _ _ _ _).2
  | complete slots live stands after =>
    rw [Option.toList_none, List.append_nil]
    exact quietly slots (post.completes established isLane frame.leases slots live stands after)

end LaneRuns

/-! ## Every run -/

section Runs

variable {T : Topology} {V : Type} {K : Kernels V} {policy : PolicyState} {s t : State V} {log : List Sending}
  {i r p q ℓ L : Nat} {slot : PayloadSlot} {invocation : Invocation}

/-- A run with a log is a run. -/
theorem posted_reachable (reached : (T.posted K policy).Reachable (s, log)) : (T.fabric K policy).Reachable s := by
  have first : ∀ state : State V × List Sending, (T.posted K policy).Reachable state →
      (T.fabric K policy).Reachable state.1 := by
    intro state reached
    induction reached with
    | start init => exact .start init.1
    | next _ _ taken ih => exact ih.step taken.1
  exact first _ reached

/-- A run has a log. -/
theorem exists_log (reached : (T.fabric K policy).Reachable s) : ∃ log, (T.posted K policy).Reachable (s, log) := by
  induction reached with
  | start init => exact ⟨[], .start ⟨init, rfl⟩⟩
  | next _ _ taken ih =>
    obtain ⟨log, posted⟩ := ih
    exact ⟨_, posted.step ⟨taken, rfl⟩⟩

/-- Every event keeps the log in agreement with the state. -/
theorem Post.next {event : Event V} (post : Post T s log) (established : Established T s.control)
    (established' : Established T t.control) (taken : T.next K s event = some t) :
    Post T t (log ++ (T.sends s event).toList) := by
  have silent : log ++ (none : Option Sending).toList = log := by simp
  cases event with
  | coordinator =>
    have effect := coordinatorStep_control taken
    have frame := effect.frame
    rw [show T.sends s (.coordinator : Event V) = none from rfl, silent]
    exact post.frame frame.atnagents frame.acknowledgements frame.lanes effect.grows.leases
      (by rw [coordinatorStep_payloads taken])
  | atnagent i r move =>
    simp only [Topology.next] at taken
    split at taken
    · next rank =>
      have step := atnAgentMove_taken taken
      exact step.posts.post post established established' step.control rank
    · cases taken
  | lane p ℓ move =>
    simp only [Topology.next] at taken
    split at taken
    · next isLane =>
      have step := laneMove_taken taken
      have sound := (post.lane p ℓ isLane).sound
      refine (step.posts sound ?_).post post established step.control isLane
      intro live
      obtain ⟨-, -, -, -, -, held, -⟩ := established.serving isLane live
      exact held
    · cases taken
  | publication destination slot delivery =>
    obtain ⟨⟨channel, written⟩, -, rfl⟩ := Option.map_eq_some_iff.mp taken
    rw [show T.sends s (.publication destination slot delivery : Event V) = none from rfl, silent]
    exact post.frame rfl rfl rfl (fun _ => List.prefix_refl _) rfl
  | payload destination slot delivery =>
    obtain ⟨⟨channel, written⟩, delivered, rfl⟩ := Option.map_eq_some_iff.mp taken
    rw [show T.sends s (.payload destination slot delivery : Event V) = none from rfl, silent]
    apply post.deliver established delivered
    · cases written <;> rfl
    · cases written <;> rfl
  | failure destination delivery =>
    obtain ⟨⟨channel, written⟩, -, rfl⟩ := Option.map_eq_some_iff.mp taken
    rw [show T.sends s (.failure destination delivery : Event V) = none from rfl, silent]
    exact post.frame rfl rfl rfl (fun _ => List.prefix_refl _) rfl
  | put pe lane index move =>
    rw [show T.sends s (.put pe lane index move : Event V) = none from rfl, silent]
    simp only [Topology.next, Topology.putStep] at taken
    split at taken
    · split at taken
      · obtain rfl := Option.some.inj taken
        exact post.frame rfl rfl rfl (fun _ => List.prefix_refl _) rfl
      · cases taken
    · obtain ⟨value, -, rfl⟩ := Option.map_eq_some_iff.mp taken
      exact post.frame rfl rfl rfl (fun _ => List.prefix_refl _) rfl
    · cases taken
  | shutdown pe =>
    obtain rfl := Option.some.inj taken
    rw [show T.sends s (.shutdown pe : Event V) = none from rfl, silent]
    exact post.frame rfl rfl rfl (fun _ => List.prefix_refl _) rfl

theorem create_post (memory : Nat → Buffer → Nat → Nat → V) : Post T (T.create K policy memory) [] := by
  refine ⟨List.nodup_nil, (by simp), ?_, (by simp), ?_, ?_, ?_⟩
  · intro pe slot put member
    simp [Topology.create, Channel.create] at member
  · intro i r _
    refine ⟨(by simp), ?_, ?_⟩
    all_goals simp [Topology.create, AtnAgentPc.holding]
  · intro p ℓ _
    refine ⟨⟨?_, ?_, ?_, ?_, ?_⟩, Nat.zero_le _, fun _ => rfl, (by simp), ?_, ?_, ?_, ?_, ?_⟩
    all_goals simp [Topology.create, Lane.live, LanePc.serving, LanePc.sending]
  · intro p ℓ _
    refine ⟨fun slot _ => .create default, ?_, ?_⟩
    all_goals simp [Topology.create, Lane.live, LanePc.serving]

/-- What a lane has completed, it was served for. -/
def ServedAll (T : Topology) (s : State V) (log : List Sending) : Prop :=
  ∀ p ℓ, T.isLane p ℓ → ∀ L ∈ s.control.completions p ℓ, ∀ invocation, s.control.Granted ℓ L invocation →
    Served T log p ℓ (invocation.execution L)

/-- Completions are added by the steps of their lane. -/
theorem ControlStep.completions {k k' : Control} (step : ControlStep T k k') (member : L ∈ k'.completions p ℓ) :
    L ∈ k.completions p ℓ ∨ (T.isLane p ℓ ∧ (k'.lanes p ℓ).lastLeaseSequence = L ∧
      (k'.lanes p ℓ).execution.executorLeaseSequence = L) := by
  cases step with
  | same => exact .inl member
  | deliver => exact .inl member
  | coordinator _ effect =>
    rw [effect.frame.completions] at member
    exact .inl member
  | atnagent i r _ _ effect =>
    rw [effect.frame.completions] at member
    exact .inl member
  | lane p' ℓ' isLane _ effect =>
    by_cases same : p = p' ∧ ℓ = ℓ'
    · obtain ⟨rfl, rfl⟩ := same
      cases effect with
      | complete stands =>
        simp only [update₂_same, List.mem_append, List.mem_singleton] at member ⊢
        rcases member with old | rfl
        · exact .inl old
        · exact .inr ⟨isLane, rfl, rfl⟩
      | _ => exact .inl member
    · rw [effect.frame.completions _ _ same] at member
      exact .inl member

theorem ControlStep.leases_grow {k k' : Control} (step : ControlStep T k k') (ℓ : Nat) : k.leases ℓ <+: k'.leases ℓ := by
  cases step with
  | same => exact List.prefix_refl _
  | deliver => exact List.prefix_refl _
  | coordinator _ effect => exact effect.grows.leases ℓ
  | atnagent _ _ _ _ effect => rw [effect.frame.leases]
  | lane _ _ _ _ effect => rw [effect.frame.leases]

theorem ServedAll.next {event : Event V} (served : ServedAll T s log) (established : Established T s.control)
    (post' : Post T t (log ++ (T.sends s event).toList)) (taken : T.next K s event = some t) :
    ServedAll T t (log ++ (T.sends s event).toList) := by
  intro p ℓ isLane L member invocation granted
  have step := next_control taken
  have positive := granted.le.1
  rcases step.completions member with old | ⟨-, last, execution⟩
  · obtain ⟨-, invocation', assigned⟩ := (established.leases.lane p ℓ isLane).completed L old
    obtain rfl := (assigned.granted.mono (step.leases_grow ℓ)).unique granted
    exact (served p ℓ isLane L old _ assigned.granted).extend
  · obtain ⟨⟨invocation', granted', eq⟩, -, served'⟩ := (post'.lane p ℓ isLane).completed (by omega) (by omega)
    rw [execution] at granted' eq
    obtain rfl := granted.unique granted'
    rwa [eq] at served'

theorem posted_post (reached : (T.posted K policy).Reachable (s, log)) : Post T s log ∧ ServedAll T s log := by
  have every : ∀ state : State V × List Sending, (T.posted K policy).Reachable state →
      Post T state.1 state.2 ∧ ServedAll T state.1 state.2 := by
    intro state reached
    apply System.ReachableUnder.invariant ?_ ?_ reached
    · rintro ⟨s, log⟩ ⟨⟨memory, rfl⟩, rfl⟩
      exact ⟨create_post memory, fun p ℓ _ L member => by simp [Topology.create] at member⟩
    · rintro ⟨s, log⟩ event ⟨t, log'⟩ reached ⟨post, served⟩ _ ⟨taken, recorded⟩
      dsimp only at recorded taken post served ⊢
      have run := posted_reachable reached
      have established := reachable_established run
      have established' := reachable_established (System.Reachable.step run taken)
      rw [recorded]
      have post' := post.next established established' taken
      exact ⟨post', served.next established post' taken⟩
  exact every _ reached

end Runs

/-! ## Waits -/

/-- The publications that a lane waits for. -/
def Lane.awaited (T : Topology) (ℓ : Nat) (l : Lane) : List PayloadSlot :=
  match l.pc with
  | .awaitPayloads => .inputReady ℓ :: if l.requiresRoutingMetadata then [.routingMetadataReady ℓ] else []
  | .probePeerPartials => ((T.executionPes l.execution).eraseIdx l.localTpRank).map (.partialReady · ℓ)
  | _ => []

/-- The party has left its invocation with a failure. -/
def Sender.failed {V : Type} (s : State V) : Sender → Prop
  | .atnagent i r => (s.control.atnagents i r).pc.failing
  | .lane p ℓ => (s.control.lanes p ℓ).live = false ∧ (s.control.lanes p ℓ).pc ≠ .awaitExecution

/-- Where the sender of a message stands that has yet to send it: it waits for the
Coordinator, who has its publication underway, or the destination is among those
that it has yet to send to. -/
inductive Owes (T : Topology) {V : Type} (s : State V) (m : Sending) : Prop where
  | admission (i r : Nat) (sender : m.sender = .atnagent i r) (waits : (s.control.atnagents i r).pc = .awaitAdmission)
      (key : (s.control.atnagents i r).key i = m.record.key)
      (underway :
        s.control.coordinator.withholdsAdmission (T.atnagentPe i r) i ∨
          (s.control.slots (T.atnagentPe i r) (.admission i)).Underway m.record.key.invocationSequence)
  | input (i r : Nat) (sender : m.sender = .atnagent i r)
      (left :
        m.destination ∈
          (s.control.atnagents i r).pc.inputLeft
            (T.pairedPes i (s.control.atnagents i r).context.layerOrdinal r))
      (message : m = inputMessage i r (s.control.atnagents i r) m.destination)
  | execution (p ℓ : Nat) (sender : m.sender = .lane p ℓ) (waits : (s.control.lanes p ℓ).pc = .awaitExecution)
      (behind : (s.control.lanes p ℓ).lastLeaseSequence < m.record.executorLeaseSequence)
      (underway :
        s.control.coordinator.withholds p ℓ ∨
          (s.control.slots p (.laneExecution ℓ)).Underway m.record.executorLeaseSequence)
  | routing (p ℓ : Nat) (sender : m.sender = .lane p ℓ) (live : (s.control.lanes p ℓ).live)
      (left :
        m.destination ∈
          (s.control.lanes p ℓ).pc.routingLeft (T.routingPlan (s.control.lanes p ℓ).execution p))
      (message : m = laneMessage p ℓ (.routingMetadataReady ℓ) (s.control.lanes p ℓ).execution m.destination)
  | partials (p ℓ : Nat) (sender : m.sender = .lane p ℓ) (live : (s.control.lanes p ℓ).live)
      (left :
        m.destination ∈
          (s.control.lanes p ℓ).pc.partialLeft (T.partialPlan (s.control.lanes p ℓ).execution p))
      (message : m = laneMessage p ℓ (.partialReady p ℓ) (s.control.lanes p ℓ).execution m.destination)

section Waits

variable {T : Topology} {V : Type} {s : State V} {log : List Sending} {i r p q ℓ L : Nat} {slot : PayloadSlot}
  {invocation : Invocation}

/-- The modulo of the TP rank is a rank of the Instance. -/
theorem input_sender (bound : invocation.key.instanceIndex < T.instanceCount) (member : p ∈ T.group invocation) :
    ∃ r, T.isRank invocation.key.instanceIndex r ∧
      r = (T.group invocation).idxOf p % (T.atnagentPes invocation.key.instanceIndex).length ∧
      T.sender (invocation.execution L) p (.inputReady ℓ) = some (.atnagent invocation.key.instanceIndex r) := by
  have width := atnagentPes_length (T := T) _ bound
  have positive : 0 < (T.atnagentPes invocation.key.instanceIndex).length :=
    List.length_pos_of_ne_nil (Topology.atnagentPes_ne_nil bound)
  refine ⟨_, Topology.isRank_iff.mpr ⟨bound, Nat.mod_lt _ positive⟩, rfl, ?_⟩
  have member : p ∈ T.executionPes (invocation.execution L) := member
  simp only [Topology.sender, if_pos member]
  simp only [Invocation.execution, width]
  rfl

/-- Whatever a lane waits for is owed to it. -/
theorem awaited_owed (sound : (s.control.lanes p ℓ).Sound T p) (live : (s.control.lanes p ℓ).live)
    (awaited : slot ∈ (s.control.lanes p ℓ).awaited T ℓ) :
    slot.lane = ℓ ∧ ∃ sender, T.sender (s.control.lanes p ℓ).execution p slot = some sender := by
  obtain ⟨member, rank, requires⟩ := selectExecution_some (sound.selected live)
  unfold Lane.awaited at awaited
  split at awaited
  · rcases List.mem_cons.mp awaited with rfl | routing
    · exact ⟨rfl, _, by simp only [Topology.sender, if_pos member]; rfl⟩
    · split at routing
      · next required =>
        obtain rfl := List.mem_singleton.mp routing
        rw [requires, decide_eq_true_eq] at required
        refine ⟨rfl, ?_⟩
        simp only [Topology.sender]
        cases pes : T.executionPes (s.control.lanes p ℓ).execution with
        | nil => simp [pes] at member
        | cons owner rest =>
          rw [pes] at member required
          have other : p ≠ owner := by
            rintro rfl
            exact required.2 List.idxOf_cons_self
          have later := (List.mem_cons.mp member).resolve_left other
          exact ⟨_, if_pos ⟨required.1, later⟩⟩
      · cases routing
  · next probing =>
    have complete := sound.completes live (by rw [probing]; rfl)
    have active := sound.probes live probing
    have count : T.activeReaderCount (s.control.lanes p ℓ).execution =
      min (s.control.lanes p ℓ).execution.payloadRows (T.executionPes (s.control.lanes p ℓ).execution).length := rfl
    obtain ⟨source, listed, rfl⟩ := List.mem_map.mp awaited
    rw [rank, ← List.erase_eq_eraseIdx_of_idxOf rfl] at listed
    have distinct := executionPes_nodup (T := T) (s.control.lanes p ℓ).execution
    obtain ⟨other, sourced⟩ := (distinct.mem_erase_iff).mp listed
    refine ⟨rfl, .lane source ℓ, ?_⟩
    simp only [Topology.sender]
    rw [if_pos]
    exact ⟨complete, member, sourced, other, by omega⟩
  · cases awaited

/-- Where a rank stands. -/
theorem AtnAgentPc.stands (pc : AtnAgentPc) : (pc = .resting ∨ pc = .submit) ∨ pc.submitted ∨ pc.failing := by
  cases pc <;> simp [submitted, holding, failing]

theorem AtnAgentPc.waits_or_holds {pc : AtnAgentPc} (engaged : pc.submitted) : pc = .awaitAdmission ∨ pc.holding := by
  cases pc <;> simp_all [submitted, holding]

/-- A rank whose input is awaited is on its way to send it. -/
theorem Post.rank_owes (post : Post T s log) (established : Established T s.control) (dispatched : Dispatched T s.control)
    (running : s.control.coordinator ≠ .aborted) (granted : s.control.Granted ℓ (s.control.leaseCount ℓ) invocation)
    (holds : s.control.scheduler.Holds invocation ℓ) (member : p ∈ T.group invocation)
    (behind : (s.control.lanes p ℓ).lastLeaseSequence < s.control.leaseCount ℓ)
    (rank : T.isRank invocation.key.instanceIndex r)
    (paired : r = (T.group invocation).idxOf p % (T.atnagentPes invocation.key.instanceIndex).length)
    (unfailed : ¬(Sender.atnagent invocation.key.instanceIndex r).failed s) :
    let m : Sending := ⟨.atnagent invocation.key.instanceIndex r, p, .inputReady ℓ, ⟨invocation.key, s.control.leaseCount ℓ⟩⟩
    m ∈ log ∨ Owes T s m := by
  intro m
  have ledger := established.ledger _ r rank
  have book := established.admissions.rank _ r rank
  have isLane := established.leases.isLane granted member
  have bound := (Topology.isRank_iff.mp rank).1
  -- the rank has submitted the invocation and not acknowledged it
  obtain ⟨record, submitted, keyed, layer, -⟩ := (established.admissions.granted _ _ _ granted).ranks r rank
  obtain ⟨-, -, place, -⟩ := ledger.of_mem submitted
  have uncommitted : s.control.commitSequence T invocation.key.instanceIndex ≠ invocation.key.invocationSequence := by
    intro committed
    have done := established.leases.chain.completed invocation ℓ holds (.inl committed) p member
    have := ((established.leases.lane p ℓ isLane).completed _ done).1
    omega
  have entry := established.books.entry invocation.key.instanceIndex
  have commits := (entry.active holds.state).1
  have key := (entry.enqueued (by simp [holds.state])).1
  rw [holds.admitted] at key
  have sequence := congrArg InvocationKey.invocationSequence key
  dsimp only at sequence
  have acknowledged := book.acknowledged
  have within := ledger.behind
  rw [keyed] at place
  have count : (s.control.submissions invocation.key.instanceIndex r).length = invocation.key.invocationSequence := by
    omega
  have engaged : (s.control.atnagents invocation.key.instanceIndex r).pc.submitted := by
    have failing : (s.control.atnagents invocation.key.instanceIndex r).pc.failing = false := by
      simpa [Sender.failed] using unfailed
    rcases AtnAgentPc.stands (s.control.atnagents invocation.key.instanceIndex r).pc with free | engaged | failed
    · have := ledger.free free
      omega
    · exact engaged
    · rw [failing] at failed
      cases failed
  obtain ⟨-, number, -⟩ := ledger.waiting engaged
  have named : (s.control.atnagents invocation.key.instanceIndex r).key invocation.key.instanceIndex = invocation.key := by
    rw [AtnAgent.key, number, count]
  rcases AtnAgentPc.waits_or_holds engaged with waits | holding
  · right
    exact .admission _ r rfl waits named (dispatched.ranks running invocation ℓ holds _ (Topology.atnagentPe_mem rank))
  · obtain ⟨held, -, lease, key', layer', holds'⟩ := established.holding rank holding
    obtain rfl : held = invocation := by
      rw [named] at key'
      rw [← holds.admitted, ← holds'.admitted, key']
    have lane : (s.control.atnagents held.key.instanceIndex r).admission.executorLaneIndex = ℓ := by
      rw [← holds.lane, ← holds'.lane]
    have message : inputMessage held.key.instanceIndex r (s.control.atnagents held.key.instanceIndex r) p = m := by
      simp only [inputMessage, lane, named, lease, m]
    have mailed := (post.rank _ r rank).input holding
    have plan : p ∈ T.pairedPes held.key.instanceIndex
        (s.control.atnagents held.key.instanceIndex r).context.layerOrdinal r := by
      rw [mem_pairedPes, ← layer', atnagentPes_length _ bound]
      exact ⟨member, paired.symm⟩
    rcases mailed.sent p plan with left | sent
    · right
      exact .input _ r rfl left message.symm
    · left
      rwa [message] at sent

/-- A lane whose publication is awaited is on its way to send it. -/
theorem Post.lane_owes (post : Post T s log) (established : Established T s.control) (dispatched : Dispatched T s.control)
    (running : s.control.coordinator ≠ .aborted) (granted : s.control.Granted ℓ (s.control.leaseCount ℓ) invocation)
    (holds : s.control.scheduler.Holds invocation ℓ) (lane : slot.lane = ℓ)
    (owed : T.sender (invocation.execution (s.control.leaseCount ℓ)) p slot = some (.lane q ℓ))
    (unfailed : ¬(Sender.lane q ℓ).failed s) :
    let m : Sending := ⟨.lane q ℓ, p, slot, ⟨invocation.key, s.control.leaseCount ℓ⟩⟩
    m ∈ log ∨ Owes T s m := by
  intro m
  have member : q ∈ T.group invocation := sender_source owed
  have isLane := established.leases.isLane granted member
  have outgoing := post.lane q ℓ isLane
  by_cases live : (s.control.lanes q ℓ).live
  · obtain ⟨held, granted', -, execution, -⟩ := established.serving isLane live
    obtain rfl := granted.unique granted'
    have message : laneMessage q ℓ slot (s.control.lanes q ℓ).execution p = m := by
      rw [laneMessage, execution]
      rfl
    rcases sender_plan owed with ⟨rfl, planned⟩ | ⟨rfl, planned⟩
    · rw [← execution] at planned
      rcases (outgoing.routing live).sent p planned with left | sent
      · exact .inr (.routing q ℓ rfl live left message.symm)
      · exact .inl (message ▸ sent)
    · rw [← execution] at planned
      rcases (outgoing.partials live).sent p planned with left | sent
      · exact .inr (.partials q ℓ rfl live left message.symm)
      · exact .inl (message ▸ sent)
  · have waits : (s.control.lanes q ℓ).pc = .awaitExecution := by
      by_contra busy
      exact unfailed ⟨by simpa using live, busy⟩
    obtain ⟨last, -⟩ := established.last_le isLane
    rcases Nat.lt_or_eq_of_le last with behind | caught
    · right
      exact .execution q ℓ rfl waits behind (dispatched.lanes running invocation ℓ holds q member)
    · -- the lane has completed the lease, and sent all that it owed
      left
      have resting := outgoing.idle waits
      have positive := granted.le.1
      obtain ⟨⟨held, granted', execution⟩, sentAll, -⟩ := outgoing.completed resting.symm (by omega)
      rw [resting, caught] at granted' execution
      obtain rfl := granted.unique granted'
      have message : laneMessage q ℓ slot (s.control.lanes q ℓ).execution p = m := by
        rw [laneMessage, execution]
        rfl
      rw [execution] at sentAll message
      rcases sender_plan owed with ⟨rfl, planned⟩ | ⟨rfl, planned⟩
      · exact message ▸ (sentAll.routing.sent p planned).resolve_left (by simp)
      · exact message ▸ (sentAll.partials.sent p planned).resolve_left (by simp)

end Waits

/-! ## Receipt -/

section Receipt

variable {T : Topology} {V : Type} {s : State V} {log : List Sending} {p ℓ L : Nat} {slot : PayloadSlot}
  {invocation : Invocation}

/-- The slot of a lane holds what its sender owes it for its lease, and nothing is on its
way there. -/
structure Received (T : Topology) (s : State V) (log : List Sending) (p ℓ : Nat) (slot : PayloadSlot) (sender : Sender) :
    Prop where
  owed : T.sender (s.control.lanes p ℓ).execution p slot = some sender
  sent :
    ⟨sender, p, slot,
        ⟨(s.control.lanes p ℓ).execution.key, (s.control.lanes p ℓ).execution.executorLeaseSequence⟩⟩ ∈ log
  record :
    (s.payloads.slots p slot).record =
      ⟨(s.control.lanes p ℓ).execution.key, (s.control.lanes p ℓ).execution.executorLeaseSequence⟩
  sequence : (s.payloads.slots p slot).sequence = (s.control.lanes p ℓ).execution.executorLeaseSequence
  flight : (s.payloads.slots p slot).flight = []

/-- What a live lane sees at its lease is what it was owed. -/
theorem Post.received (post : Post T s log) (established : Established T s.control) (isLane : T.isLane p ℓ)
    (live : (s.control.lanes p ℓ).live) (lane : slot.lane = ℓ)
    (reached :
      (s.control.lanes p ℓ).execution.executorLeaseSequence ≤ (s.payloads.slots p slot).sequence) :
    ∃ sender, Received T s log p ℓ slot sender := by
  obtain ⟨invocation, granted, -, execution, -, -, behind⟩ := established.serving isLane live
  rw [execution] at reached
  obtain ⟨flight, sequence, record, sender, owed, sent⟩ := post.arrived established isLane lane granted behind reached
  refine ⟨sender, ?_, ?_, ?_, ?_, flight⟩
  all_goals rw [execution]
  · exact owed
  · exact sent
  · exact record
  · exact sequence

/-- The publications of a lane's lease that it has seen: its input and its routing
metadata past the first wait, the partials of its peers past the second. -/
def Lane.seen (T : Topology) (p ℓ : Nat) (l : Lane) : PayloadSlot → Prop
  | .inputReady lane => lane = ℓ ∧ l.pc ≠ .awaitPayloads
  | .routingMetadataReady lane => lane = ℓ ∧ l.pc ≠ .awaitPayloads ∧ l.requiresRoutingMetadata
  | .partialReady source lane =>
    lane = ℓ ∧ l.pc.reduced ∧ l.reads T ∧ source ∈ T.executionPes l.execution ∧ source ≠ p

/-- Whatever a live lane has seen it has received. -/
theorem Post.seen (post : Post T s log) (established : Established T s.control) (isLane : T.isLane p ℓ)
    (live : (s.control.lanes p ℓ).live) (seen : (s.control.lanes p ℓ).seen T p ℓ slot) :
    ∃ sender, Received T s log p ℓ slot sender := by
  have incoming := post.inbox p ℓ isLane
  cases slot with
  | inputReady lane =>
    obtain ⟨rfl, past⟩ := seen
    exact post.received established isLane live rfl (incoming.received live past).1
  | routingMetadataReady lane =>
    obtain ⟨rfl, past, required⟩ := seen
    exact post.received established isLane live rfl ((incoming.received live past).2 required)
  | partialReady source lane =>
    obtain ⟨rfl, reduced, reads, member, other⟩ := seen
    exact post.received established isLane live rfl (incoming.reduced live reduced reads source member other)

/-- What a lane was owed for a lease that it has completed has come to it. -/
theorem Post.came (post : Post T s log) (established : Established T s.control) (isLane : T.isLane p ℓ)
    (completed : L ∈ s.control.completions p ℓ) (lane : slot.lane = ℓ) {sender : Sender}
    (sent : ⟨sender, p, slot, ⟨invocation.key, L⟩⟩ ∈ log) : L ≤ (s.payloads.slots p slot).sequence := by
  obtain ⟨past, -⟩ := (established.leases.lane p ℓ isLane).completed L completed
  exact ((post.inbox p ℓ isLane).tracks slot lane).arrived (post.carried _ sent) past

end Receipt

/-! ## One sender -/

/-- Who sends the payload publications of a generation, and who waits for them. -/
structure OneSender (T : Topology) {V : Type} (s : State V) (log : List Sending) : Prop where
  /-- Every publication comes from the party that owes it under its lease. -/
  addressed : ∀ m ∈ log, Addressed T s.control m
  /-- Every put on its way to a slot is a publication sent to it. -/
  flown :
    ∀ pe slot, ∀ put ∈ (s.payloads.slots pe slot).flight, ∃ sender, ⟨sender, pe, slot, put.record⟩ ∈ log
  /-- Every publication is on its way to its slot, or has reached it. -/
  carried : ∀ m ∈ log, (s.payloads.slots m.destination m.slot).Carries publicationSequence m.record
  /-- What a lane finds in its slots beyond its last lease was sent to it. -/
  tracked :
    ∀ p ℓ, T.isLane p ℓ → ∀ slot : PayloadSlot, slot.lane = ℓ →
      (s.payloads.slots p slot).Tracks publicationSequence (fun record => ∃ sender, ⟨sender, p, slot, record⟩ ∈ log)
        (s.control.lanes p ℓ).lastLeaseSequence
  /-- No two go to one slot of a PE under one lease. -/
  once :
    log.Pairwise fun m m' =>
      ¬(m.destination = m'.destination ∧ m.slot = m'.slot ∧
        m.record.executorLeaseSequence = m'.record.executorLeaseSequence)
  /-- The input of a lane is owed by the rank that the modulo maps it to. -/
  input :
    ∀ ℓ L invocation, s.control.Granted ℓ L invocation → ∀ p ∈ T.group invocation,
      ∃ r, T.isRank invocation.key.instanceIndex r ∧
        r = (T.group invocation).idxOf p % (T.atnagentPes invocation.key.instanceIndex).length ∧
        T.sender (invocation.execution L) p (.inputReady ℓ) = some (.atnagent invocation.key.instanceIndex r)
  /-- A lane past a wait has received what it waited for, from the party that owes it. -/
  received :
    ∀ p ℓ, T.isLane p ℓ → (s.control.lanes p ℓ).live → ∀ slot, (s.control.lanes p ℓ).seen T p ℓ slot →
      ∃ sender, Received T s log p ℓ slot sender
  /-- A lane that has completed a lease was sent all that it was owed, and it has come. -/
  served :
    ∀ p ℓ, T.isLane p ℓ → ∀ L ∈ s.control.completions p ℓ, ∀ invocation, s.control.Granted ℓ L invocation →
      ∀ slot sender, slot.lane = ℓ → T.sender (invocation.execution L) p slot = some sender →
        ⟨sender, p, slot, ⟨invocation.key, L⟩⟩ ∈ log ∧ L ≤ (s.payloads.slots p slot).sequence
  /-- TP rank zero does not wait for routing metadata. -/
  rankZero :
    ∀ p ℓ, T.isLane p ℓ → (s.control.lanes p ℓ).live → (s.control.lanes p ℓ).localTpRank = 0 →
      .routingMetadataReady ℓ ∉ (s.control.lanes p ℓ).awaited T ℓ
  /-- Whatever a lane waits for is owed to it by one party, which has sent it or is
  on its way to, unless it or the Coordinator has failed. -/
  awaited :
    ∀ p ℓ, T.isLane p ℓ → (s.control.lanes p ℓ).live → ∀ slot ∈ (s.control.lanes p ℓ).awaited T ℓ,
      ∃ sender, T.sender (s.control.lanes p ℓ).execution p slot = some sender ∧
        let m : Sending :=
          ⟨sender, p, slot,
            ⟨(s.control.lanes p ℓ).execution.key, (s.control.lanes p ℓ).execution.executorLeaseSequence⟩⟩
        (m ∈ log ∨ Owes T s m) ∨ sender.failed s ∨ s.control.coordinator = .aborted

section OneSender

variable {T : Topology} {V : Type} {K : Kernels V} {policy : PolicyState} {s : State V} {log : List Sending}
  {p ℓ : Nat} {slot : PayloadSlot}

/-- No wait depends on a message that nobody sends. -/
theorem Post.awaited (post : Post T s log) (established : Established T s.control) (dispatched : Dispatched T s.control)
    (isLane : T.isLane p ℓ) (live : (s.control.lanes p ℓ).live) (awaited : slot ∈ (s.control.lanes p ℓ).awaited T ℓ) :
    ∃ sender, T.sender (s.control.lanes p ℓ).execution p slot = some sender ∧
      let m : Sending :=
        ⟨sender, p, slot,
          ⟨(s.control.lanes p ℓ).execution.key, (s.control.lanes p ℓ).execution.executorLeaseSequence⟩⟩
      (m ∈ log ∨ Owes T s m) ∨ sender.failed s ∨ s.control.coordinator = .aborted := by
  obtain ⟨lane, sender, owed⟩ := awaited_owed (post.lane p ℓ isLane).sound live awaited
  refine ⟨sender, owed, ?_⟩
  intro m
  by_cases aborted : s.control.coordinator = .aborted
  · exact .inr (.inr aborted)
  by_cases failed : sender.failed s
  · exact .inr (.inl failed)
  left
  obtain ⟨invocation, granted, member, execution, holds, -, behind⟩ := established.serving isLane live
  have message : m = ⟨sender, p, slot, ⟨invocation.key, s.control.leaseCount ℓ⟩⟩ := by
    simp only [m, execution]
    rfl
  rw [message]
  rw [execution] at owed
  cases sender with
  | atnagent i r =>
    have bound := (established.leases.chain.bounded _ _ _ granted).2
    cases slot with
    | inputReady lane' =>
      obtain rfl : lane' = ℓ := lane
      obtain ⟨r', rank, paired, owed'⟩ := input_sender (L := s.control.leaseCount lane') (ℓ := lane') bound member
      rw [owed] at owed'
      obtain ⟨rfl, rfl⟩ := Sender.atnagent.inj (Option.some.inj owed')
      exact post.rank_owes established dispatched aborted granted holds member behind rank paired failed
    | routingMetadataReady lane' =>
      simp only [Topology.sender] at owed
      split at owed
      · split at owed <;> cases owed
      · cases owed
    | partialReady source lane' =>
      simp only [Topology.sender] at owed
      split at owed <;> cases owed
  | lane q ℓ' =>
    have same : ℓ' = ℓ := by
      rcases sender_plan owed with ⟨rfl, -⟩ | ⟨rfl, -⟩ <;> exact lane
    subst same
    exact post.lane_owes established dispatched aborted granted holds lane owed failed

/-- Every awaited publication has one sender, in every run. -/
theorem one_sender (reached : (T.posted K policy).Reachable (s, log)) : OneSender T s log := by
  have run := posted_reachable reached
  have established := reachable_established run
  have dispatched := reachable_dispatched run
  obtain ⟨post, served⟩ := posted_post reached
  refine ⟨post.addressed, post.flown, post.carried, fun p ℓ isLane => (post.inbox p ℓ isLane).tracks, ?_, ?_, ?_, ?_, ?_, ?_⟩
  · apply post.nodup.pairwise_of_forall_ne
    rintro m member m' member' distinct ⟨destination, slot, lease⟩
    exact distinct ((post.addressed m member).unique (post.addressed m' member') destination slot lease)
  · intro ℓ L invocation granted p member
    exact input_sender (established.leases.chain.bounded _ _ _ granted).2 member
  · intro p ℓ isLane live slot seen
    exact post.seen established isLane live seen
  · intro p ℓ isLane L completed invocation granted slot sender lane owed
    have sent := served p ℓ isLane L completed invocation granted slot sender lane owed
    exact ⟨sent, post.came established isLane completed lane sent⟩
  · intro p ℓ isLane live zero awaited
    obtain ⟨-, rank, -⟩ := selectExecution_some ((post.lane p ℓ isLane).sound.selected live)
    obtain ⟨-, sender, owed⟩ := awaited_owed (post.lane p ℓ isLane).sound live awaited
    exact (routing_required owed).2 (by omega)
  · intro p ℓ isLane live slot awaited
    exact post.awaited established dispatched isLane live awaited

end OneSender

/-- A lane has completed its lease, and was sent one message for it. -/
theorem one_sender_completed :
    ∃ (s : State Nat) (log : List Sending),
      (solo.posted soloKernels (.fifo 0)).Reachable (s, log) ∧ log.length = 1 ∧ s.control.completions 1 0 = [1] ∧
        OneSender solo s log := by
  let start : State Nat × List Sending := (solo.create soloKernels (.fifo 0) fun _ _ _ _ => 0, [])
  let next (s : State Nat × List Sending) (event : Event Nat) : Option (State Nat × List Sending) :=
    (solo.next soloKernels s.1 event).map fun t => (t, s.2 ++ (solo.sends s.1 event).toList)
  have agrees : ∀ s event t, next s event = some t → True ∧ (solo.posted soloKernels (.fifo 0)).step s event t := by
    intro s event t taken
    obtain ⟨after, stepped, rfl⟩ := Option.map_eq_some_iff.mp taken
    exact ⟨trivial, stepped, rfl⟩
  have starts : (solo.posted soloKernels (.fifo 0)).Reachable start := .start ⟨⟨_, rfl⟩, rfl⟩
  obtain ⟨⟨s, log⟩, reached, ends⟩ :=
    System.ReachableUnder.run next agrees starts (soloSubmits ++ soloCompletes)
      (fun s => s.2.length = 1 ∧ s.1.control.completions 1 0 = [1]) (by decide +kernel)
  obtain ⟨sent, completed⟩ : log.length = 1 ∧ s.control.completions 1 0 = [1] := by simpa using ends
  exact ⟨s, log, reached, sent, completed, one_sender reached⟩

end CrossPool.Fabric
