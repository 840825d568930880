import CrossPool.Fabric.Rendezvous

/-!
# Payload publications

Who publishes InputReady, RoutingMetadataReady and PartialReady to whom. The
parties compute this independently: a rank from its number and the widths of the
two groups, an FfnAgent from its TP rank, the layer kind and the row count.
`Topology.sender` states the one party that owes a publication; `RankPosts` and
`LanePosts` say once what a step of a party sends.
-/

namespace CrossPool.Fabric

open CrossPool.Control (ResultCode)
open CrossPool.Transport (OutputRequirement)
open CrossPool.Lib

/-! ## Messages -/

inductive Sender where
  | atnagent (instanceIndex rank : Nat)
  | lane (pe lane : Nat)
deriving DecidableEq, Repr

/-- One payload publication on its way to one PE. -/
structure Sending where
  sender : Sender
  destination : Nat
  slot : PayloadSlot
  record : LaneSuccess
deriving DecidableEq, Repr

def PayloadSlot.lane : PayloadSlot → Nat
  | inputReady lane => lane
  | routingMetadataReady lane => lane
  | partialReady _ lane => lane

namespace Topology

variable (T : Topology) {V : Type}

/-- What a rank's next step publishes. -/
def rankSends (s : State V) (instanceIndex rank : Nat) : Option Sending :=
  let pe := T.atnagentPe instanceIndex rank
  let a := s.control.atnagents instanceIndex rank
  let registers := s.payloads.atnagents instanceIndex rank
  let slot : PayloadSlot := .inputReady a.admission.executorLaneIndex
  match a.pc with
  | .publishInput (destination :: _) =>
    if registers.fetched.length < T.payloadElements instanceIndex a.context.payloadRows then none
    else if s.payloads.publishable pe slot then
      some ⟨.atnagent instanceIndex rank, destination, slot, (s.payloads.slots pe slot).record⟩
    else none
  | _ => none

/-- What a lane's next step publishes. -/
def laneSends (s : State V) (pe lane : Nat) : Option Sending :=
  let l := s.control.lanes pe lane
  let registers := s.payloads.lanes pe lane
  let message (destination : Nat) (slot : PayloadSlot) : Option Sending :=
    if s.payloads.publishable pe slot then
      some ⟨.lane pe lane, destination, slot, (s.payloads.slots pe slot).record⟩
    else none
  match l.pc with
  | .sendRouting (destination :: _) =>
    if registers.fetched.length < T.routingElements l.execution l.payloadRowCapacity then none
    else message destination (.routingMetadataReady lane)
  | .publishPartial (destination :: _) => message destination (.partialReady pe lane)
  | _ => none

/-- What an event publishes. -/
def sends (s : State V) : Event V → Option Sending
  | .atnagent instanceIndex rank _ => T.rankSends s instanceIndex rank
  | .lane pe lane _ => T.laneSends s pe lane
  | _ => none

/-- A generation with the log of its payload publications. -/
def posted (K : Kernels V) (policy : PolicyState) : System (State V × List Sending) (Event V) where
  init s := (T.fabric K policy).init s.1 ∧ s.2 = []
  step s event t := (T.fabric K policy).step s.1 event t.1 ∧ t.2 = s.2 ++ (T.sends s.1 event).toList

/-! ## Who owes what -/

/-- The delivery reduces the partials before it puts them. -/
def complete (instanceIndex : Nat) (requirement : OutputRequirement) : Bool :=
  match deliveryVariant (T.instanceEntry instanceIndex) requirement with
  | some .replicatedComplete => true
  | some .singleComplete => true
  | _ => false

/-- The party that publishes to a slot of `pe` under a lease of the execution. -/
def sender (execution : LaneExecution) (pe : Nat) : PayloadSlot → Option Sender
  | .inputReady _ =>
    let i := T.instanceEntry execution.key.instanceIndex
    let pes := T.executionPes execution
    if pe ∈ pes then
      some (.atnagent execution.key.instanceIndex (pes.idxOf pe % (i.atnTpSize * i.atnDpSize)))
    else none
  | .routingMetadataReady lane =>
    match T.executionPes execution with
    | owner :: rest =>
      if (T.executionLayer execution).kind = .moe ∧ pe ∈ rest then some (.lane owner lane) else none
    | [] => none
  | .partialReady source lane =>
    let pes := T.executionPes execution
    if T.complete execution.key.instanceIndex execution.outputRequirement ∧ pe ∈ pes ∧ source ∈ pes ∧
        source ≠ pe ∧ pes.idxOf pe < execution.payloadRows then
      some (.lane source lane)
    else none

/-- The FfnAgents that a rank places its input at, that the owner of the router
sends its metadata to, and that read a lane's partial. -/
def routingPlan (execution : LaneExecution) (pe : Nat) : List Nat :=
  let pes := T.executionPes execution
  if (T.executionLayer execution).kind = .moe ∧ pes.idxOf pe = 0 then pes.tail else []

def partialPlan (execution : LaneExecution) (pe : Nat) : List Nat :=
  let pes := T.executionPes execution
  if T.complete execution.key.instanceIndex execution.outputRequirement then
    ((List.range (T.activeReaderCount execution)).filter (· ≠ pes.idxOf pe)).map fun rank => pes.getD rank 0
  else []

end Topology

/-! ## Progress of a sender -/

/-- The graph nodes on the way of a lease from its observation to its completion. -/
def LanePc.serving : LanePc → Bool
  | awaitExecution => false
  | quietTerminal => false
  | cancelled _ => false
  | terminate _ _ => false
  | exited => false
  | aborted => false
  | _ => true

/-- The lane serves its lease and has met no failure. -/
def Lane.live (l : Lane) : Bool :=
  !l.terminal && l.pc.serving

/-- The lane is between staging a record and having published it. -/
def LanePc.sending : LanePc → Bool
  | sendRouting _ => true
  | quietPartial _ => true
  | publishPartial _ => true
  | quietCompletion => true
  | _ => false

/-- Who has yet to be sent the input. -/
def AtnAgentPc.inputLeft (plan : List Nat) : AtnAgentPc → List Nat
  | copyInput => plan
  | publishInput rest => rest
  | _ => []

/-- Who has yet to be sent the routing metadata. -/
def LanePc.routingLeft (plan : List Nat) : LanePc → List Nat
  | awaitPayloads => plan
  | bindCompute => plan
  | routerRead => plan
  | routerWrite => plan
  | publishRouting => plan
  | sendRouting rest => rest
  | _ => []

/-- Who has yet to be sent the partial. -/
def LanePc.partialLeft (plan : List Nat) : LanePc → List Nat
  | awaitPayloads => plan
  | bindCompute => plan
  | routerRead => plan
  | routerWrite => plan
  | publishRouting => plan
  | sendRouting _ => plan
  | expertRead => plan
  | expertReadRouting => plan
  | expertWrite => plan
  | prepareDelivery => plan
  | quietPartial readers => readers
  | publishPartial rest => rest
  | _ => []

/-- The lane publishes its partial or waits for those of its peers. -/
def LanePc.exchanges : LanePc → Bool
  | quietPartial _ => true
  | publishPartial _ => true
  | probePeerPartials => true
  | _ => false

/-- The lane is past its wait for peer partials. -/
def LanePc.reduced : LanePc → Bool
  | deliver _ => true
  | completeExecution => true
  | quietCompletion => true
  | _ => false

/-! ## What a step of a rank sends -/

section Ranks

variable {T : Topology} {V : Type} {K : Kernels V} {s t : State V} {i r : Nat}

/-- The steps of one rank, by what they mean for its input. -/
inductive RankPosts (T : Topology) (s t : State V) (i r : Nat) : Option Sending → Prop where
  | outside (slots : t.payloads.slots = s.payloads.slots) (idle : (t.control.atnagents i r).pc.holding = false) :
      RankPosts T s t i r none
  | keep (slots : t.payloads.slots = s.payloads.slots)
      (same : t.control.atnagents i r = s.control.atnagents i r) : RankPosts T s t i r none
  | admitted (slots : t.payloads.slots = s.payloads.slots) (stands : (s.control.atnagents i r).pc = .awaitAdmission)
      (pc :
        (t.control.atnagents i r).pc =
          if r < (T.ffnagentPes i (t.control.atnagents i r).context.layerOrdinal).length then .copyInput
          else .awaitCommit) : RankPosts T s t i r none
  | advance (slots : t.payloads.slots = s.payloads.slots) (pc : AtnAgentPc)
      (holding : (s.control.atnagents i r).pc.holding)
      (after : t.control.atnagents i r = { s.control.atnagents i r with pc := pc })
      (left : ∀ plan, (s.control.atnagents i r).pc.inputLeft plan = [] ∧ pc.inputLeft plan = [])
      (sent : ∀ rest, pc ≠ .publishInput rest) : RankPosts T s t i r none
  | stage (stands : (s.control.atnagents i r).pc = .copyInput)
      (after :
        t.control.atnagents i r =
          { s.control.atnagents i r with
            pc := .publishInput (T.pairedPes i (s.control.atnagents i r).context.layerOrdinal r) })
      (slots :
        t.payloads.slots =
          (s.payloads.store (T.atnagentPe i r) (.inputReady (s.control.atnagents i r).admission.executorLaneIndex)
              ⟨(s.control.atnagents i r).key i, (s.control.atnagents i r).admission.executorLeaseSequence⟩).slots) :
      RankPosts T s t i r none
  | send (destination : Nat) (rest : List Nat) (values : List V)
      (stands : (s.control.atnagents i r).pc = .publishInput (destination :: rest))
      (after : t.control.atnagents i r = { s.control.atnagents i r with pc := .publishInput rest })
      (slots :
        t.payloads.slots =
          (s.payloads.publish (T.atnagentPe i r) destination
              (.inputReady (s.control.atnagents i r).admission.executorLaneIndex) values).slots) :
      RankPosts T s t i r
        (some
          ⟨.atnagent i r, destination, .inputReady (s.control.atnagents i r).admission.executorLaneIndex,
            (s.payloads.slots (T.atnagentPe i r)
                (.inputReady (s.control.atnagents i r).admission.executorLaneIndex)).record⟩)

theorem atnAgentGoto_outside {pc : AtnAgentPc} (idle : pc.holding = false) :
    RankPosts T s (Topology.atnAgentGoto s i r pc) i r none := by
  refine .outside rfl ?_
  simpa [Topology.atnAgentGoto, Control.setAtnAgent] using idle

theorem publishInputStep_posts {rest : List Nat} (stands : (s.control.atnagents i r).pc = .publishInput rest) :
    RankPosts T s (T.publishInputStep s i r rest) i r (T.rankSends s i r) := by
  cases rest with
  | nil =>
    have sends : T.rankSends s i r = none := by simp [Topology.rankSends, stands]
    rw [sends]
    refine .advance rfl .awaitCommit (by rw [stands]; rfl) ?_ ?_ (by simp)
    · simp [Topology.publishInputStep, Topology.atnAgentGoto, Control.setAtnAgent]
    · intro plan
      rw [stands]
      exact ⟨rfl, rfl⟩
  | cons destination rest =>
    simp only [Topology.publishInputStep, Topology.rankSends, stands]
    split
    · exact .keep rfl rfl
    split
    · refine .send destination rest _ stands ?_ rfl
      simp [Topology.atnAgentGoto, Control.setAtnAgent]
    · exact atnAgentGoto_outside rfl

/-- Every step of a rank is one of the cases. -/
theorem AtnAgentTaken.posts (taken : AtnAgentTaken T K s i r t) : RankPosts T s t i r (T.rankSends s i r) := by
  have silent (pc : AtnAgentPc) (stands : (s.control.atnagents i r).pc = pc) (mute : ∀ rest, pc ≠ .publishInput rest) :
      T.rankSends s i r = none := by
    simp only [Topology.rankSends, stands]
    split
    · exact absurd rfl (mute _)
    · rfl
  cases taken with
  | publishInput rest stands => exact publishInputStep_posts stands
  | request context input resting =>
    rw [silent _ resting (by simp)]
    simp only [Topology.atnAgentRequest]
    split
    · exact atnAgentGoto_outside rfl
    · split
      · refine .outside rfl ?_
        simp [Control.setAtnAgent, AtnAgentPc.holding]
      · exact atnAgentGoto_outside rfl
  | submit stands =>
    rw [silent _ stands (by simp)]
    simp only [Topology.submitStep]
    split
    · refine .outside rfl ?_
      simp [AtnAgentPc.holding]
    · exact atnAgentGoto_outside rfl
  | admission stands _ =>
    rw [silent _ stands (by simp)]
    simp only [Topology.admissionStep]
    split
    · refine .admitted rfl stands ?_
      simp [Control.setAtnAgent]
    · exact atnAgentGoto_outside rfl
  | copyInput stands =>
    rw [silent _ stands (by simp)]
    simp only [Topology.copyInputStep]
    split
    · exact .keep rfl rfl
    · refine .stage stands ?_ rfl
      simp [Topology.atnAgentGoto, Control.setAtnAgent]
  | commit stands _ =>
    rw [silent _ stands (by simp)]
    simp only [Topology.commitStep]
    split
    · refine .advance rfl .materialize (by rw [stands]; rfl) ?_ ?_ (by simp)
      · simp [Topology.atnAgentGoto, Control.setAtnAgent]
      · intro plan
        rw [stands]
        exact ⟨rfl, rfl⟩
    · exact atnAgentGoto_outside rfl
  | materialize stands =>
    rw [silent _ stands (by simp)]
    simp only [Topology.materializeStep]
    split
    · exact atnAgentGoto_outside rfl
    · split
      · exact .keep rfl rfl
      · refine .advance rfl .acknowledge (by rw [stands]; rfl) ?_ ?_ (by simp)
        · simp [Topology.atnAgentGoto, Control.setAtnAgent]
        · intro plan
          rw [stands]
          exact ⟨rfl, rfl⟩
  | acknowledge stands =>
    rw [silent _ stands (by simp)]
    simp only [Topology.acknowledgeStep]
    split
    · refine .outside rfl ?_
      simp [AtnAgentPc.holding]
    · exact atnAgentGoto_outside rfl
  | cancel stands =>
    have mute : T.rankSends s i r = none := by
      rcases stands with stands | stands <;> exact silent _ stands (by simp)
    rw [mute]
    exact atnAgentGoto_outside rfl
  | expire stands =>
    have mute : T.rankSends s i r = none := by
      rcases stands with stands | stands <;> exact silent _ stands (by simp)
    rw [mute]
    exact atnAgentGoto_outside rfl
  | cancelled stands =>
    rw [silent _ stands (by simp)]
    simp only [Topology.atnAgentCancelled]
    split <;> exact atnAgentGoto_outside rfl
  | converge candidate stands =>
    rw [silent _ stands (by simp)]
    simp only [Topology.convergeStep]
    split
    · refine .outside rfl ?_
      simp [Topology.atnAgentGoto, Control.setAtnAgent, AtnAgentPc.holding]
    · exact atnAgentGoto_outside rfl
  | converged stands _ =>
    rw [silent _ stands (by simp)]
    exact atnAgentGoto_outside rfl
  | unconverged stands _ =>
    rw [silent _ stands (by simp)]
    exact atnAgentGoto_outside rfl

end Ranks

/-! ## What a step of a lane sends -/

section Lanes

variable {T : Topology} {V : Type} {K : Kernels V} {s t : State V} {p ℓ : Nat}

/-- What a lane's program counter says about its flags, and what it has selected
for its lease. -/
structure Lane.Sound (T : Topology) (p : Nat) (l : Lane) : Prop where
  doomed : ∀ site result, l.pc = .terminate site result → l.terminal
  staged : l.pc.sending → l.terminal = false
  selected :
    l.live → T.selectExecution p l.execution = some (l.localTpRank, l.payloadRowCapacity, l.requiresRoutingMetadata)
  completes :
    l.live → l.pc.exchanges → T.complete l.execution.key.instanceIndex l.execution.outputRequirement
  probes : l.live → l.pc = .probePeerPartials → l.localTpRank < T.activeReaderCount l.execution

/-- The lane waits for its peers' partials before it reduces them. -/
def Lane.reads (T : Topology) (l : Lane) : Prop :=
  T.complete l.execution.key.instanceIndex l.execution.outputRequirement ∧
    l.localTpRank < T.activeReaderCount l.execution

/-- The steps of one lane, by what they mean for its publications. -/
inductive LanePosts (T : Topology) (s t : State V) (p ℓ : Nat) : Option Sending → Prop where
  | dead (slots : t.payloads.slots = s.payloads.slots)
      (execution : (t.control.lanes p ℓ).execution = (s.control.lanes p ℓ).execution)
      (last : (t.control.lanes p ℓ).lastLeaseSequence = (s.control.lanes p ℓ).lastLeaseSequence)
      (dead : (t.control.lanes p ℓ).live = false) (busy : (t.control.lanes p ℓ).pc ≠ .awaitExecution)
      (doomed : ∀ site result, (t.control.lanes p ℓ).pc = .terminate site result → (t.control.lanes p ℓ).terminal)
      (unstaged : (t.control.lanes p ℓ).pc.sending = false) : LanePosts T s t p ℓ none
  | keep (slots : t.payloads.slots = s.payloads.slots)
      (same : t.control.lanes p ℓ = s.control.lanes p ℓ) : LanePosts T s t p ℓ none
  | observe (slots : t.payloads.slots = s.payloads.slots) (stands : (s.control.lanes p ℓ).pc = .awaitExecution)
      (fresh :
        ((s.control.lanes p ℓ).lastLeaseSequence + 1) % 2 ^ 64 ≠ 0 ∧
          ((s.control.lanes p ℓ).lastLeaseSequence + 1) % 2 ^ 64 ≤ (s.control.slots p (.laneExecution ℓ)).sequence)
      (execution : (t.control.lanes p ℓ).execution = (s.control.slots p (.laneExecution ℓ)).record)
      (last : (t.control.lanes p ℓ).lastLeaseSequence = (s.control.lanes p ℓ).lastLeaseSequence)
      (selected :
        ((t.control.lanes p ℓ).pc = .terminate .lane .protocolMismatch ∧ (t.control.lanes p ℓ).terminal) ∨
          ((t.control.lanes p ℓ).pc = .awaitPayloads ∧ (t.control.lanes p ℓ).terminal = false ∧
            T.selectExecution p (t.control.lanes p ℓ).execution =
              some ((t.control.lanes p ℓ).localTpRank, (t.control.lanes p ℓ).payloadRowCapacity,
                (t.control.lanes p ℓ).requiresRoutingMetadata))) : LanePosts T s t p ℓ none
  | move (pc : LanePc) (slots : t.payloads.slots = s.payloads.slots) (live : (s.control.lanes p ℓ).live)
      (after : t.control.lanes p ℓ = { s.control.lanes p ℓ with pc := pc })
      (alive : (t.control.lanes p ℓ).live) (busy : pc ≠ .awaitPayloads)
      (routing :
        pc.routingLeft (T.routingPlan (s.control.lanes p ℓ).execution p) =
          (s.control.lanes p ℓ).pc.routingLeft (T.routingPlan (s.control.lanes p ℓ).execution p))
      (partials :
        pc.partialLeft (T.partialPlan (s.control.lanes p ℓ).execution p) =
          (s.control.lanes p ℓ).pc.partialLeft (T.partialPlan (s.control.lanes p ℓ).execution p))
      (received : (s.control.lanes p ℓ).pc = .awaitPayloads → Topology.pollPayloads s p ℓ = .ready)
      (reduced :
        pc.reduced →
          (s.control.lanes p ℓ).pc.reduced ∨ ((s.control.lanes p ℓ).reads T → T.probePeers s p ℓ = .ready))
      (routes : ∀ rest, pc ≠ .sendRouting rest)
      (publishes : ∀ rest, pc = .publishPartial rest → (s.control.lanes p ℓ).pc = .quietPartial rest)
      (stages : ∀ rest, pc ≠ .quietPartial rest)
      (probes :
        pc = .probePeerPartials →
          (∃ rest, (s.control.lanes p ℓ).pc = .publishPartial rest) ∧
            (s.control.lanes p ℓ).localTpRank < T.activeReaderCount (s.control.lanes p ℓ).execution) :
      LanePosts T s t p ℓ none
  | stageRouting (live : (s.control.lanes p ℓ).live) (stands : (s.control.lanes p ℓ).pc = .publishRouting)
      (first : (T.executionPes (s.control.lanes p ℓ).execution).idxOf p = 0)
      (plan : T.routingPlan (s.control.lanes p ℓ).execution p = (T.executionPes (s.control.lanes p ℓ).execution).tail)
      (after :
        t.control.lanes p ℓ =
          { s.control.lanes p ℓ with pc := .sendRouting (T.executionPes (s.control.lanes p ℓ).execution).tail })
      (slots :
        t.payloads.slots =
          (s.payloads.store p (.routingMetadataReady ℓ)
              ⟨(s.control.lanes p ℓ).execution.key,
                (s.control.lanes p ℓ).execution.executorLeaseSequence⟩).slots) : LanePosts T s t p ℓ none
  | sendRouting (destination : Nat) (rest : List Nat) (values : List V) (live : (s.control.lanes p ℓ).live)
      (stands : (s.control.lanes p ℓ).pc = .sendRouting (destination :: rest))
      (after : t.control.lanes p ℓ = { s.control.lanes p ℓ with pc := .sendRouting rest })
      (slots : t.payloads.slots = (s.payloads.publish p destination (.routingMetadataReady ℓ) values).slots) :
      LanePosts T s t p ℓ
        (some
          ⟨.lane p ℓ, destination, .routingMetadataReady ℓ, (s.payloads.slots p (.routingMetadataReady ℓ)).record⟩)
  | stagePartial (pc : LanePc) (live : (s.control.lanes p ℓ).live) (stands : (s.control.lanes p ℓ).pc = .prepareDelivery)
      (after : t.control.lanes p ℓ = { s.control.lanes p ℓ with pc := pc })
      (alive : (t.control.lanes p ℓ).live) (busy : pc ≠ .awaitPayloads) (routing : ∀ plan, pc.routingLeft plan = [])
      (partials :
        pc.partialLeft (T.partialPlan (s.control.lanes p ℓ).execution p) = T.partialPlan (s.control.lanes p ℓ).execution p)
      (reduced : pc.reduced → (s.control.lanes p ℓ).reads T → T.probePeers s p ℓ = .ready)
      (routes : ∀ rest, pc ≠ .sendRouting rest)
      (complete :
        T.complete (s.control.lanes p ℓ).execution.key.instanceIndex (s.control.lanes p ℓ).execution.outputRequirement)
      (probes :
        pc = .probePeerPartials →
          (s.control.lanes p ℓ).localTpRank < T.activeReaderCount (s.control.lanes p ℓ).execution)
      (slots :
        t.payloads.slots =
          (s.payloads.store p (.partialReady p ℓ)
              ⟨(s.control.lanes p ℓ).execution.key,
                (s.control.lanes p ℓ).execution.executorLeaseSequence⟩).slots) : LanePosts T s t p ℓ none
  | sendPartial (destination : Nat) (rest : List Nat) (live : (s.control.lanes p ℓ).live)
      (stands : (s.control.lanes p ℓ).pc = .publishPartial (destination :: rest))
      (after : t.control.lanes p ℓ = { s.control.lanes p ℓ with pc := .publishPartial rest })
      (slots : t.payloads.slots = (s.payloads.publish p destination (.partialReady p ℓ) []).slots) :
      LanePosts T s t p ℓ
        (some ⟨.lane p ℓ, destination, .partialReady p ℓ, (s.payloads.slots p (.partialReady p ℓ)).record⟩)
  | complete (slots : t.payloads.slots = s.payloads.slots) (live : (s.control.lanes p ℓ).live)
      (stands : (s.control.lanes p ℓ).pc = .quietCompletion)
      (after :
        t.control.lanes p ℓ =
          { s.control.lanes p ℓ with
            pc := .awaitExecution
            lastLeaseSequence := (s.control.lanes p ℓ).execution.executorLeaseSequence }) : LanePosts T s t p ℓ none

theorem Lane.live_iff {l : Lane} : l.live ↔ l.terminal = false ∧ l.pc.serving := by
  simp [Lane.live]

/-- Any step into a state without hope. -/
theorem LanePosts.of_dead (slots : t.payloads.slots = s.payloads.slots) (pc : LanePc) (terminal : Bool)
    (after :
      t.control.lanes p ℓ =
        { s.control.lanes p ℓ with
          pc := pc
          terminal := terminal })
    (dead : terminal ∨ pc.serving = false) (busy : pc ≠ .awaitExecution) (unstaged : pc.sending = false)
    (doomed : ∀ site result, pc = .terminate site result → terminal) : LanePosts T s t p ℓ none := by
  refine .dead slots ?_ ?_ ?_ ?_ ?_ ?_
  all_goals rw [after]
  · rcases dead with terminal | leaves <;> simp_all [Lane.live]
  · exact busy
  · exact doomed
  · exact unstaged

/-- A step between two graph nodes of a lease, whether or not the lane has failed. -/
theorem LanePosts.of_move (pc : LanePc) (slots : t.payloads.slots = s.payloads.slots)
    (after : t.control.lanes p ℓ = { s.control.lanes p ℓ with pc := pc })
    (stood : (s.control.lanes p ℓ).pc.serving) (serves : pc.serving) (busy : pc ≠ .awaitPayloads)
    (unstaged : (s.control.lanes p ℓ).terminal → pc.sending = false)
    (routing :
      (s.control.lanes p ℓ).live →
        pc.routingLeft (T.routingPlan (s.control.lanes p ℓ).execution p) =
          (s.control.lanes p ℓ).pc.routingLeft (T.routingPlan (s.control.lanes p ℓ).execution p))
    (partials :
      pc.partialLeft (T.partialPlan (s.control.lanes p ℓ).execution p) =
        (s.control.lanes p ℓ).pc.partialLeft (T.partialPlan (s.control.lanes p ℓ).execution p))
    (received : (s.control.lanes p ℓ).pc = .awaitPayloads → Topology.pollPayloads s p ℓ = .ready)
    (reduced :
      pc.reduced → (s.control.lanes p ℓ).pc.reduced ∨ ((s.control.lanes p ℓ).reads T → T.probePeers s p ℓ = .ready))
    (routes : ∀ rest, pc ≠ .sendRouting rest)
    (publishes : ∀ rest, pc = .publishPartial rest → (s.control.lanes p ℓ).pc = .quietPartial rest)
    (stages : ∀ rest, pc ≠ .quietPartial rest)
    (probes :
      pc = .probePeerPartials →
        (∃ rest, (s.control.lanes p ℓ).pc = .publishPartial rest) ∧
          (s.control.lanes p ℓ).localTpRank < T.activeReaderCount (s.control.lanes p ℓ).execution) :
    LanePosts T s t p ℓ none := by
  by_cases terminal : (s.control.lanes p ℓ).terminal
  · refine .of_dead slots pc true ?_ (.inl rfl) ?_ (unstaged terminal) ?_
    · rw [after, ← terminal]
    · rintro rfl
      cases serves
    · exact fun _ _ _ => rfl
  · have live : (s.control.lanes p ℓ).live := Lane.live_iff.mpr ⟨by simpa using terminal, stood⟩
    refine .move pc slots live after ?_ busy (routing live) partials received reduced routes publishes stages probes
    rw [after]
    exact Lane.live_iff.mpr ⟨by simpa using terminal, serves⟩

/-- What is selected for a lease: the lane's TP rank in its group, and routing
metadata unless it owns the router. -/
theorem selectExecution_some {execution : LaneExecution} {rank capacity : Nat} {requires : Bool}
    (selected : T.selectExecution p execution = some (rank, capacity, requires)) :
    p ∈ T.executionPes execution ∧ rank = (T.executionPes execution).idxOf p ∧
      requires = decide ((T.executionLayer execution).kind = .moe ∧ (T.executionPes execution).idxOf p ≠ 0) := by
  simp only [Topology.selectExecution, Option.bind_eq_bind, Option.bind_eq_some_iff] at selected
  obtain ⟨layer, found, candidate, -, rest⟩ := selected
  split at rest
  · cases rest
  split at rest
  · cases rest
  next member =>
  obtain ⟨rfl, -, rfl⟩ : _ ∧ _ ∧ _ := by simpa using rest
  rw [not_or, not_not] at member
  refine ⟨member.1, rfl, ?_⟩
  have named := List.find?_some found
  simp only [Bool.and_eq_true, decide_eq_true_eq] at named
  have listed := List.mem_of_find?_eq_some found
  simp only [Topology.layerEntries, List.mem_flatMap, List.mem_filterMap] at listed
  obtain ⟨instanceIndex, -, layerOrdinal, -, entry⟩ := listed
  split at entry
  · obtain rfl := Option.some.inj entry
    obtain ⟨rfl, rfl⟩ := named
    exact (Bool.decide_and _ _).symm
  · cases entry

theorem laneSends_silent (routes : ∀ rest, (s.control.lanes p ℓ).pc ≠ .sendRouting rest)
    (publishes : ∀ rest, (s.control.lanes p ℓ).pc ≠ .publishPartial rest) : T.laneSends s p ℓ = none := by
  simp only [Topology.laneSends]
  split
  · next stands => exact absurd stands (routes _)
  · next stands => exact absurd stands (publishes _)
  · rfl

theorem laneGoto_lane {pc : LanePc} :
    (Topology.laneGoto s p ℓ pc).control.lanes p ℓ = { s.control.lanes p ℓ with pc := pc } := by
  simp [Topology.laneGoto, Control.setLane]

theorem laneGoto_aborted_posts : LanePosts T s (Topology.laneGoto s p ℓ .aborted) p ℓ none := by
  refine .of_dead rfl .aborted (s.control.lanes p ℓ).terminal ?_ (.inr rfl) (by simp) rfl (by simp)
  exact laneGoto_lane

theorem laneTerminate_posts {site : TerminateSite} {result : ResultCode} :
    LanePosts T s (Topology.laneTerminate s p ℓ site result) p ℓ none := by
  refine .of_dead rfl (.terminate site result) true ?_ (.inl rfl) (by simp) rfl (fun _ _ _ => rfl)
  simp [Topology.laneTerminate, Control.setLane]

/-- Nothing to wait for behind the publication of the partial. -/
theorem afterPartial_reduced (l : Lane) (reduced : (T.afterPartial l).reduced) (reads : l.reads T) :
    (T.executionPes l.execution).length ≤ 1 := by
  simp only [Topology.afterPartial, if_pos reads.2] at reduced
  split at reduced
  · cases reduced
  · next single => omega

theorem probePeers_single (single : (T.executionPes (s.control.lanes p ℓ).execution).length ≤ 1)
    (rank : (s.control.lanes p ℓ).localTpRank < (T.executionPes (s.control.lanes p ℓ).execution).length) :
    T.probePeers s p ℓ = .ready := by
  have none : (T.executionPes (s.control.lanes p ℓ).execution).eraseIdx (s.control.lanes p ℓ).localTpRank = [] := by
    apply List.eq_nil_of_length_eq_zero
    rw [List.length_eraseIdx_of_lt rank]
    omega
  simp [Topology.probePeers, none, inspectPublications]

theorem afterPartial_probes (l : Lane) (probes : T.afterPartial l = .probePeerPartials) :
    l.localTpRank < T.activeReaderCount l.execution := by
  simp only [Topology.afterPartial] at probes
  split at probes
  · assumption
  · cases probes

theorem afterPartial_serving (l : Lane) :
    (T.afterPartial l).serving ∧ T.afterPartial l ≠ .awaitPayloads ∧ (T.afterPartial l).sending = false ∧
      (∀ plan, (T.afterPartial l).routingLeft plan = [] ∧ (T.afterPartial l).partialLeft plan = []) ∧
      (∀ rest, T.afterPartial l ≠ .sendRouting rest ∧ T.afterPartial l ≠ .publishPartial rest ∧
        T.afterPartial l ≠ .quietPartial rest) := by
  simp only [Topology.afterPartial]
  split
  · split <;> simp [LanePc.serving, LanePc.sending, LanePc.routingLeft, LanePc.partialLeft]
  · simp [LanePc.serving, LanePc.sending, LanePc.routingLeft, LanePc.partialLeft]

theorem observeStep_posts (stands : (s.control.lanes p ℓ).pc = .awaitExecution)
    (unwrapped : ((s.control.lanes p ℓ).lastLeaseSequence + 1) % 2 ^ 64 ≠ 0)
    (reached :
      ((s.control.lanes p ℓ).lastLeaseSequence + 1) % 2 ^ 64 ≤ (s.control.slots p (.laneExecution ℓ)).sequence) :
    LanePosts T s (T.observeStep s p ℓ) p ℓ none := by
  have failed (l : Lane) (eq : l = { s.control.lanes p ℓ with
      pc := .terminate .lane .protocolMismatch
      terminal := true
      execution := (s.control.slots p (.laneExecution ℓ)).record }) :
      LanePosts T s { s with control := s.control.setLane p ℓ l } p ℓ none := by
    subst eq
    refine .observe rfl stands ⟨unwrapped, reached⟩ ?_ ?_ (.inl ⟨?_, ?_⟩)
    all_goals simp [Control.setLane]
  simp only [Topology.observeStep]
  split
  · exact failed _ rfl
  split
  · exact failed _ rfl
  · next rank capacity requires selected =>
    refine .observe rfl stands ⟨unwrapped, reached⟩ ?_ ?_ (.inr ⟨?_, ?_, ?_⟩)
    all_goals simp [Control.setLane]
    exact selected

theorem bindStep_posts (sound : (s.control.lanes p ℓ).Sound T p) (stands : (s.control.lanes p ℓ).pc = .bindCompute) :
    LanePosts T s (T.bindStep s p ℓ) p ℓ none := by
  have after {pc : LanePc} {registers : LaneRegisters V} :
      (Topology.laneRegisters s p ℓ registers pc).control.lanes p ℓ = { s.control.lanes p ℓ with pc := pc } := laneGoto_lane
  simp only [Topology.bindStep]
  split
  · refine .of_move .routerRead rfl after (by rw [stands]; rfl) rfl (by simp) (fun _ => rfl) (fun _ => ?_) ?_ ?_ nofun (by simp)
      (by simp) (by simp) (by simp)
    · rw [stands]
      rfl
    · rw [stands]
      rfl
    · simp [stands]
  · next other =>
    refine .of_move .expertRead rfl after (by rw [stands]; rfl) rfl (by simp) (fun _ => rfl) (fun live => ?_) ?_ ?_ nofun (by simp)
      (by simp) (by simp) (by simp)
    · obtain ⟨-, rank, -⟩ := selectExecution_some (sound.selected live)
      rw [rank] at other
      simp [stands, LanePc.routingLeft, Topology.routingPlan, other]
    · rw [stands]
      rfl
    · simp [stands]

theorem publishRoutingStep_posts
    (held : (s.control.lanes p ℓ).live → (s.control.slots p (.laneExecution ℓ)).record = (s.control.lanes p ℓ).execution)
    (stands : (s.control.lanes p ℓ).pc = .publishRouting) : LanePosts T s (T.publishRoutingStep s p ℓ) p ℓ none := by
  simp only [Topology.publishRoutingStep]
  split
  · refine .of_dead rfl .expertRead true ?_ (.inl rfl) (by simp) rfl (by simp)
    simp [Control.setLane]
  next unflagged =>
  split
  · exact laneGoto_aborted_posts
  next admitted =>
  simp only [Bool.or_eq_true, not_or, Bool.not_eq_true] at unflagged
  simp only [not_or, not_not, Bool.not_eq_true'] at admitted
  have live : (s.control.lanes p ℓ).live := Lane.live_iff.mpr ⟨unflagged.1, by rw [stands]; rfl⟩
  have kind : (T.executionLayer (s.control.lanes p ℓ).execution).kind = .moe := by
    have checked := admitted.2.2
    simp only [Topology.routingAdmitted, Bool.not_eq_false, Bool.and_eq_true, decide_eq_true_eq] at checked
    rw [held live] at checked
    exact checked.1.2
  have first : (T.executionPes (s.control.lanes p ℓ).execution).idxOf p = 0 := by
    obtain ⟨rest, pes⟩ := List.head?_eq_some_iff.mp admitted.1
    rw [pes, List.idxOf_cons_self]
  refine .stageRouting live stands first ?_ ?_ rfl
  · simp [Topology.routingPlan, kind, first]
  · exact laneGoto_lane

theorem sendRoutingStep_posts (sound : (s.control.lanes p ℓ).Sound T p) {rest : List Nat}
    (stands : (s.control.lanes p ℓ).pc = .sendRouting rest) :
    LanePosts T s (T.sendRoutingStep s p ℓ rest) p ℓ (T.laneSends s p ℓ) := by
  have live : (s.control.lanes p ℓ).live :=
    Lane.live_iff.mpr ⟨sound.staged (by rw [stands]; rfl), by rw [stands]; rfl⟩
  cases rest with
  | nil =>
    have silent : T.laneSends s p ℓ = none := by simp [Topology.laneSends, stands]
    rw [silent]
    refine .of_move .expertRead rfl laneGoto_lane (by rw [stands]; rfl) rfl (by simp) (fun _ => rfl) (fun _ => ?_) ?_ ?_ nofun
      (by simp) (by simp) (by simp) (by simp)
    · rw [stands]
      rfl
    · rw [stands]
      rfl
    · simp [stands]
  | cons destination rest =>
    simp only [Topology.sendRoutingStep, Topology.laneSends, stands]
    split
    · exact .keep rfl rfl
    split
    · exact .sendRouting destination rest _ live stands laneGoto_lane rfl
    · exact laneGoto_aborted_posts

theorem prepareStep_posts (sound : (s.control.lanes p ℓ).Sound T p)
    (stands : (s.control.lanes p ℓ).pc = .prepareDelivery) : LanePosts T s (T.prepareStep s p ℓ) p ℓ none := by
  simp only [Topology.prepareStep]
  split
  · refine .of_dead rfl .completeExecution true ?_ (.inl rfl) (by simp) rfl (by simp)
    simp [Control.setLane]
  next unflagged =>
  simp only [Bool.or_eq_true, not_or, Bool.not_eq_true] at unflagged
  have live : (s.control.lanes p ℓ).live := Lane.live_iff.mpr ⟨unflagged.1, by rw [stands]; rfl⟩
  obtain ⟨member, rank, -⟩ := selectExecution_some (sound.selected live)
  split
  · exact laneGoto_aborted_posts
  · next direct =>
    refine .of_move (.deliver true) rfl laneGoto_lane (by rw [stands]; rfl) rfl (by simp) (fun _ => rfl) (fun _ => ?_) ?_ ?_ ?_
      (by simp) (by simp) (by simp) (by simp)
    · rw [stands]
      rfl
    · simp [stands, LanePc.partialLeft, Topology.partialPlan, Topology.complete, direct]
    · simp [stands]
    · intro _
      right
      intro reads
      simp [Lane.reads, Topology.complete, direct] at reads
  · next variant other found =>
    -- the partial is staged, and published to the readers if there are any
    have complete : T.complete (s.control.lanes p ℓ).execution.key.instanceIndex
        (s.control.lanes p ℓ).execution.outputRequirement := by
      cases variant with
      | directPartial => exact absurd rfl other
      | singleComplete => simp [Topology.complete, found]
      | replicatedComplete => simp [Topology.complete, found]
    have plan : T.partialPlan (s.control.lanes p ℓ).execution p =
        ((List.range (T.activeReaderCount (s.control.lanes p ℓ).execution)).filter
          (· ≠ (s.control.lanes p ℓ).localTpRank)).map
          fun rank => (T.executionPes (s.control.lanes p ℓ).execution).getD rank 0 := by
      simp only [Topology.partialPlan, if_pos complete, rank]
    have alive {pc : LanePc} (serves : pc.serving) :
        ((Topology.laneGoto s p ℓ pc).control.lanes p ℓ).live := by
      rw [laneGoto_lane]
      exact Lane.live_iff.mpr ⟨unflagged.1, serves⟩
    rw [← plan]
    split
    · next none =>
      obtain ⟨serves, busy, -, left, others⟩ := afterPartial_serving (T := T) (s.control.lanes p ℓ)
      refine .stagePartial (T.afterPartial (s.control.lanes p ℓ)) live stands laneGoto_lane (alive serves) busy
        (fun plan => (left plan).1) ?_ ?_ (fun rest => (others rest).1) complete (afterPartial_probes _) rfl
      · rw [none, (left []).2]
      · intro reduced reads
        apply probePeers_single (afterPartial_reduced _ reduced reads)
        rw [rank]
        exact List.idxOf_lt_length_of_mem member
    · exact .stagePartial (.quietPartial (T.partialPlan (s.control.lanes p ℓ).execution p)) live stands laneGoto_lane (alive rfl)
        (by simp) (fun _ => rfl) rfl (by intros; contradiction) (by simp) complete (by simp) rfl

theorem publishPartialStep_posts (sound : (s.control.lanes p ℓ).Sound T p) {rest : List Nat}
    (stands : (s.control.lanes p ℓ).pc = .publishPartial rest) :
    LanePosts T s (T.publishPartialStep s p ℓ rest) p ℓ (T.laneSends s p ℓ) := by
  have live : (s.control.lanes p ℓ).live :=
    Lane.live_iff.mpr ⟨sound.staged (by rw [stands]; rfl), by rw [stands]; rfl⟩
  cases rest with
  | nil =>
    have silent : T.laneSends s p ℓ = none := by simp [Topology.laneSends, stands]
    obtain ⟨serves, busy, unstaged, left, others⟩ := afterPartial_serving (T := T) (s.control.lanes p ℓ)
    obtain ⟨member, rank, -⟩ := selectExecution_some (sound.selected live)
    rw [silent]
    refine .of_move (T.afterPartial (s.control.lanes p ℓ)) rfl laneGoto_lane (by rw [stands]; rfl) serves busy (fun _ => unstaged)
      (fun _ => ?_) ?_ ?_ ?_ (fun rest => (others rest).1) (fun rest eq => absurd eq (others rest).2.1)
      (fun rest => (others rest).2.2) (fun probes => ⟨⟨_, stands⟩, afterPartial_probes _ probes⟩)
    · rw [(left _).1, stands]
      rfl
    · rw [(left _).2, stands]
      rfl
    · simp [stands]
    · intro reduced
      right
      intro reads
      apply probePeers_single (afterPartial_reduced _ reduced reads)
      rw [rank]
      exact List.idxOf_lt_length_of_mem member
  | cons destination rest =>
    simp only [Topology.publishPartialStep, Topology.laneSends, stands]
    split
    · exact .sendPartial destination rest live stands laneGoto_lane rfl
    · exact laneGoto_aborted_posts

/-- A step between two compute nodes, which publish nothing. -/
theorem LanePosts.of_compute {pc pc' : LanePc} (stands : (s.control.lanes p ℓ).pc = pc)
    (slots : t.payloads.slots = s.payloads.slots)
    (after : t.control.lanes p ℓ = { s.control.lanes p ℓ with pc := pc' }) (stood : pc.serving ∧ pc ≠ .awaitPayloads)
    (serves : pc'.serving ∧ pc' ≠ .awaitPayloads ∧ pc'.sending = false ∧ pc' ≠ .probePeerPartials)
    (left : ∀ plan, pc'.routingLeft plan = pc.routingLeft plan ∧ pc'.partialLeft plan = pc.partialLeft plan)
    (reduced : pc'.reduced → pc.reduced) : LanePosts T s t p ℓ none := by
  subst stands
  refine .of_move pc' slots after stood.1 serves.1 serves.2.1 (fun _ => serves.2.2.1) (fun _ => (left _).1) (left _).2
    (fun waits => absurd waits stood.2) (fun reduces => .inl (reduced reduces)) ?_ ?_ ?_
    (fun probes => absurd probes serves.2.2.2)
  · rintro rest rfl
    cases serves.2.2.1
  · rintro rest rfl
    cases serves.2.2.1
  · rintro rest rfl
    cases serves.2.2.1

/-- Every step of a lane is one of the cases. -/
theorem LaneTaken.posts (taken : LaneTaken T K s p ℓ t) (sound : (s.control.lanes p ℓ).Sound T p)
    (held : (s.control.lanes p ℓ).live → (s.control.slots p (.laneExecution ℓ)).record = (s.control.lanes p ℓ).execution) :
    LanePosts T s t p ℓ (T.laneSends s p ℓ) := by
  have silent {pc : LanePc} (stands : (s.control.lanes p ℓ).pc = pc) (routes : ∀ rest, pc ≠ .sendRouting rest)
      (publishes : ∀ rest, pc ≠ .publishPartial rest) : T.laneSends s p ℓ = none := by
    subst stands
    exact laneSends_silent routes publishes
  cases taken with
  | sendRouting rest stands => exact sendRoutingStep_posts sound stands
  | publishPartial rest stands => exact publishPartialStep_posts sound stands
  | wrap stands _ =>
    rw [silent stands (by simp) (by simp)]
    exact laneGoto_aborted_posts
  | observe stands unwrapped reached =>
    rw [silent stands (by simp) (by simp)]
    exact observeStep_posts stands unwrapped reached
  | cancelLane stands _ =>
    have mute : T.laneSends s p ℓ = none := by
      rcases stands with stands | stands | stands <;> exact silent stands (by simp) (by simp)
    rw [mute]
    exact .of_dead rfl (.cancelled .lane) (s.control.lanes p ℓ).terminal laneGoto_lane (.inr rfl) (by simp) rfl (by simp)
  | cancelDelivery stands _ =>
    rw [silent stands (by simp) (by simp)]
    exact .of_dead rfl (.cancelled .delivery) (s.control.lanes p ℓ).terminal laneGoto_lane (.inr rfl) (by simp) rfl (by simp)
  | failPayloads result stands =>
    rw [silent stands (by simp) (by simp)]
    exact laneTerminate_posts
  | failPartials result stands =>
    rw [silent stands (by simp) (by simp)]
    exact laneTerminate_posts
  | cancelled site stands =>
    rw [silent stands (by simp) (by simp)]
    exact laneTerminate_posts
  | terminate site result stands =>
    rw [silent stands (by simp) (by simp)]
    have terminal := sound.doomed _ _ stands
    have dies {pc : LanePc} (busy : pc ≠ .awaitExecution) (unstaged : pc.sending = false) (t : State V)
        (slots : t.payloads.slots = s.payloads.slots)
        (after : t.control.lanes p ℓ = { s.control.lanes p ℓ with pc := pc }) : LanePosts T s t p ℓ none := by
      refine .of_dead slots pc true ?_ (.inl rfl) busy unstaged (fun _ _ _ => rfl)
      rw [after, ← terminal]
    have next : LanePosts T s
        (Topology.laneGoto s p ℓ (if site = .lane then .prepareDelivery else .deliver false)) p ℓ none := by
      split <;> exact dies (by simp) rfl _ rfl laneGoto_lane
    simp only [Topology.terminateStep]
    split
    · split
      · split <;> exact dies (by simp) rfl _ rfl laneGoto_lane
      · exact laneGoto_aborted_posts
    · exact next
  | payloadsReady stands ready =>
    rw [silent stands (by simp) (by simp)]
    refine .of_move .bindCompute rfl laneGoto_lane (by rw [stands]; rfl) rfl (by simp) (fun _ => rfl) (fun _ => ?_) ?_
      (fun _ => ready) (by intros; contradiction) (by simp) (by simp) (by simp) (by simp)
    · rw [stands]
      rfl
    · rw [stands]
      rfl
  | bind stands =>
    rw [silent stands (by simp) (by simp)]
    exact bindStep_posts sound stands
  | publishRouting stands =>
    rw [silent stands (by simp) (by simp)]
    exact publishRoutingStep_posts held stands
  | prepare stands =>
    rw [silent stands (by simp) (by simp)]
    exact prepareStep_posts sound stands
  | quietPartial readers stands _ =>
    rw [silent stands (by simp) (by simp)]
    have terminal := sound.staged (by rw [stands]; rfl)
    refine .of_move (.publishPartial readers) rfl laneGoto_lane (by rw [stands]; rfl) rfl (by simp) (by simp [terminal])
      (fun _ => ?_) ?_ ?_ (by intros; contradiction) (by simp) ?_ (by simp) (by simp)
    · rw [stands]
      rfl
    · rw [stands]
      rfl
    · simp [stands]
    · rintro rest ⟨⟩
      exact stands
  | partialsReady stands ready =>
    rw [silent stands (by simp) (by simp)]
    refine .of_move (.deliver false) rfl laneGoto_lane (by rw [stands]; rfl) rfl (by simp) (fun _ => rfl) (fun _ => ?_) ?_ ?_
      (fun _ => .inr fun _ => ready) (by simp) (by simp) (by simp) (by simp)
    · rw [stands]
      rfl
    · rw [stands]
      rfl
    · simp [stands]
  | routerRead stands =>
    rw [silent stands (by simp) (by simp)]
    simp only [Topology.readInputStep]
    split
    · exact .keep rfl laneGoto_lane
    · exact .of_compute stands rfl laneGoto_lane (by simp [LanePc.serving]) (by simp [LanePc.serving, LanePc.sending])
        (fun _ => ⟨rfl, rfl⟩) (by intros; contradiction)
  | routerWrite stands =>
    rw [silent stands (by simp) (by simp)]
    simp only [Topology.routerWriteStep]
    split
    · exact .keep rfl rfl
    · exact .of_compute stands rfl laneGoto_lane (by simp [LanePc.serving]) (by simp [LanePc.serving, LanePc.sending])
        (fun _ => ⟨rfl, rfl⟩) (by intros; contradiction)
  | expertRead stands =>
    rw [silent stands (by simp) (by simp)]
    simp only [Topology.readInputStep]
    split
    · exact .keep rfl laneGoto_lane
    · split <;>
        exact .of_compute stands rfl laneGoto_lane (by simp [LanePc.serving]) (by simp [LanePc.serving, LanePc.sending])
          (fun _ => ⟨rfl, rfl⟩) (by intros; contradiction)
  | expertReadRouting stands =>
    rw [silent stands (by simp) (by simp)]
    simp only [Topology.readRoutingStep]
    split
    · exact .keep rfl rfl
    · exact .of_compute stands rfl laneGoto_lane (by simp [LanePc.serving]) (by simp [LanePc.serving, LanePc.sending])
        (fun _ => ⟨rfl, rfl⟩) (by intros; contradiction)
  | expertWrite stands =>
    rw [silent stands (by simp) (by simp)]
    simp only [Topology.expertWriteStep]
    split
    · exact .keep rfl rfl
    · exact .of_compute stands rfl laneGoto_lane (by simp [LanePc.serving]) (by simp [LanePc.serving, LanePc.sending])
        (fun _ => ⟨rfl, rfl⟩) (by intros; contradiction)
  | directBlock block stands _ _ =>
    rw [silent stands (by simp) (by simp)]
    simp only [Topology.directBlockStep]
    split
    · exact laneGoto_aborted_posts
    split
    · exact laneGoto_aborted_posts
    · exact .keep rfl rfl
  | completeBlock block stands _ _ =>
    rw [silent stands (by simp) (by simp)]
    simp only [Topology.completeBlockStart]
    split
    · exact .keep rfl rfl
    split
    · exact laneGoto_aborted_posts
    split
    · exact laneGoto_aborted_posts
    split
    · exact .keep rfl rfl
    · split <;> exact .keep rfl rfl
  | reduceBlock block first element stop partials direct stands _ _ =>
    rw [silent stands (by simp) (by simp)]
    simp only [Topology.reduceStep]
    split
    · split <;> exact .keep rfl rfl
    · exact .keep rfl rfl
  | putBlock block first stop direct stands _ _ =>
    rw [silent stands (by simp) (by simp)]
    exact .keep rfl rfl
  | delivered direct stands _ =>
    rw [silent stands (by simp) (by simp)]
    exact .of_compute stands rfl laneGoto_lane (by simp [LanePc.serving]) (by simp [LanePc.serving, LanePc.sending])
      (fun _ => ⟨rfl, rfl⟩) (fun _ => rfl)
  | complete stands =>
    rw [silent stands (by simp) (by simp)]
    simp only [Topology.completeStep]
    split
    · exact .of_dead rfl .quietTerminal (s.control.lanes p ℓ).terminal laneGoto_lane (.inr rfl) (by simp) rfl (by simp)
    · next unflagged =>
      simp only [Bool.or_eq_true, not_or, Bool.not_eq_true] at unflagged
      refine .of_move .quietCompletion rfl ?_ (by rw [stands]; rfl) rfl (by simp) (by simp [unflagged.1]) (fun _ => ?_) ?_ ?_
        (fun _ => .inl (by rw [stands]; rfl)) (by simp) (by simp) (by simp) (by simp)
      · simp [Control.setLane]
      · rw [stands]
        rfl
      · rw [stands]
        rfl
      · simp [stands]
  | publishCompletion stands _ =>
    rw [silent stands (by simp) (by simp)]
    simp only [Topology.publishCompletionStep]
    split
    · refine .complete rfl (Lane.live_iff.mpr ⟨sound.staged (by rw [stands]; rfl), by rw [stands]; rfl⟩) stands ?_
      simp
    · exact laneGoto_aborted_posts
  | exit stands _ =>
    rw [silent stands (by simp) (by simp)]
    refine .of_dead rfl .exited true ?_ (.inl rfl) (by simp) rfl (by simp)
    simp [Topology.exitStep, Control.setLane]

end Lanes

end CrossPool.Fabric
