import CrossPool.Fabric.Puts

/-!
# Exclusive use of lanes

A lane's buffers belong to the invocation it was last leased to. Whether a step
reads or writes them shows in what it does with other contents: a step that does
neither goes the same way and leaves them. Every step that does is taken by a party
of the lane's last lease that has not completed or acknowledged it.
-/

namespace CrossPool.Fabric

open CrossPool.Lib

/-! ## Buffers of a lane -/

/-- Other contents of a lane's buffers, on every PE. -/
@[reducible] def Payloads.withBuffers {V : Type} (d : Payloads V) (ℓ : Nat) (contents : Nat → Buffer → Nat → V) : Payloads V :=
  { d with
    memory := fun pe buffer lane element =>
      if lane = ℓ then contents pe buffer element else d.memory pe buffer lane element }

@[reducible] def State.withBuffers {V : Type} (s : State V) (ℓ : Nat) (contents : Nat → Buffer → Nat → V) : State V :=
  { s with payloads := s.payloads.withBuffers ℓ contents }

/-- The event neither reads nor writes the buffers of the lane. -/
def Topology.Spares (T : Topology) {V : Type} (K : Kernels V) (s : State V) (ℓ : Nat) (event : Event V) : Prop :=
  ∀ contents, T.next K (s.withBuffers ℓ contents) event = (T.next K s event).map (·.withBuffers ℓ contents)

section Buffers

variable {T : Topology} {V : Type} {K : Kernels V} {s : State V} {contents : Nat → Buffer → Nat → V} {i r p ℓ m : Nat}

/-- A write elsewhere. -/
theorem withBuffers_write {d : Payloads V} {pe element : Nat} {buffer : Buffer} {value : V} (elsewhere : m ≠ ℓ) :
    (d.withBuffers ℓ contents).write pe buffer m element value =
      (d.write pe buffer m element value).withBuffers ℓ contents := by
  simp only [Payloads.write, Payloads.withBuffers]
  congr 1
  funext pe' buffer' lane' element'
  by_cases here : lane' = ℓ
  · subst here
    simp [Ne.symm elsewhere]
  · simp [here]

theorem withBuffers_publishable {d : Payloads V} {pe : Nat} {slot : PayloadSlot} :
    (d.withBuffers ℓ contents).publishable pe slot = d.publishable pe slot := rfl

/-! ## The Coordinator -/

theorem publishStep_withBuffers {slot : Slot} {rest : List Nat} {resume : List Nat → CoordinatorPc} {done : CoordinatorPc} :
    T.publishStep (s.withBuffers ℓ contents) slot rest resume done =
      (T.publishStep s slot rest resume done).withBuffers ℓ contents := by
  obtain ⟨k, g, d⟩ := s
  cases rest with
  | nil => rfl
  | cons destination rest =>
    dsimp only [Topology.publishStep, State.withBuffers]
    split <;> rfl

theorem discoverStep_withBuffers {index : Nat} :
    T.discoverStep (s.withBuffers ℓ contents) index = (T.discoverStep s index).withBuffers ℓ contents := by
  obtain ⟨k, g, d⟩ := s
  dsimp only [Topology.discoverStep, State.withBuffers]
  split
  · rfl
  split
  · rfl
  split
  · rfl
  · rfl
  · split <;> rfl

theorem progressStep_withBuffers {index : Nat} :
    T.progressStep (s.withBuffers ℓ contents) index = (T.progressStep s index).withBuffers ℓ contents := by
  obtain ⟨k, g, d⟩ := s
  dsimp only [Topology.progressStep, State.withBuffers]
  split
  · rfl
  split
  · split
    · rfl
    split <;> rfl
  split
  · rfl
  split
  · rfl
  · rfl
  · split <;> rfl

theorem coordinatorStep_withBuffers :
    T.coordinatorStep (s.withBuffers ℓ contents) = (T.coordinatorStep s).map (·.withBuffers ℓ contents) := by
  obtain ⟨k, g, d⟩ := s
  dsimp only [Topology.coordinatorStep, State.withBuffers]
  cases k.coordinator with
  | discover index =>
    dsimp only
    split
    · exact congrArg some (discoverStep_withBuffers (s := ⟨k, g, d⟩))
    · rfl
  | progress index =>
    dsimp only
    split
    · exact congrArg some (progressStep_withBuffers (s := ⟨k, g, d⟩))
    · rfl
  | leave site =>
    dsimp only
    split
    · rfl
    · cases site <;> rfl
  | schedule =>
    dsimp only
    split <;> rfl
  | broadcast rest => cases rest <;> rfl
  | publishCommit index rest => exact congrArg some (publishStep_withBuffers (s := ⟨k, g, d⟩))
  | publishAdmission invocation lane lease rest => exact congrArg some (publishStep_withBuffers (s := ⟨k, g, d⟩))
  | publishLaneExecution invocation lane rest => exact congrArg some (publishStep_withBuffers (s := ⟨k, g, d⟩))
  | _ =>
    dsimp only
    first | rfl | (split <;> rfl)

/-! ## Ranks -/

theorem atnAgentStep_withBuffers
    (elsewhere :
      (s.control.atnagents i r).pc.holding → (s.control.atnagents i r).admission.executorLaneIndex ≠ ℓ) :
    T.atnAgentStep K (s.withBuffers ℓ contents) i r =
      (T.atnAgentStep K s i r).map (·.withBuffers ℓ contents) := by
  obtain ⟨k, g, d⟩ := s
  dsimp only [Topology.atnAgentStep, State.withBuffers] at elsewhere ⊢
  cases stands : (k.atnagents i r).pc with
  | submit =>
    dsimp only [Topology.submitStep]
    split <;> rfl
  | awaitAdmission =>
    dsimp only [Topology.admissionStep]
    split
    · split <;> rfl
    · split <;> rfl
  | copyInput =>
    have elsewhere := elsewhere (by rw [stands]; rfl)
    dsimp only [Topology.copyInputStep]
    split
    · rw [withBuffers_write elsewhere]
      rfl
    · rfl
  | publishInput rest =>
    have elsewhere := elsewhere (by rw [stands]; rfl)
    cases rest with
    | nil => rfl
    | cons destination rest =>
      dsimp only [Topology.publishInputStep]
      rw [withBuffers_publishable]
      simp only [if_neg elsewhere]
      split
      · rfl
      · split <;> rfl
  | awaitCommit =>
    have elsewhere := elsewhere (by rw [stands]; rfl)
    dsimp only [Topology.commitStep]
    simp only [if_neg elsewhere]
    split
    · split <;> rfl
    · split <;> rfl
  | materialize =>
    have elsewhere := elsewhere (by rw [stands]; rfl)
    dsimp only [Topology.materializeStep]
    simp only [if_neg elsewhere]
    split
    · rfl
    · split <;> rfl
  | acknowledge =>
    dsimp only [Topology.acknowledgeStep]
    split <;> rfl
  | cancelled =>
    dsimp only [Topology.atnAgentCancelled]
    split <;> rfl
  | converge candidate =>
    dsimp only [Topology.convergeStep]
    split <;> rfl
  | awaitFailure =>
    dsimp only
    split <;> rfl
  | _ => rfl

theorem atnAgentMove_withBuffers {move : AtnAgentMove V}
    (elsewhere :
      (s.control.atnagents i r).pc.holding → (s.control.atnagents i r).admission.executorLaneIndex ≠ ℓ) :
    T.atnAgentMove K (s.withBuffers ℓ contents) i r move =
      (T.atnAgentMove K s i r move).map (·.withBuffers ℓ contents) := by
  cases move with
  | request context input =>
    obtain ⟨k, g, d⟩ := s
    dsimp only [Topology.atnAgentMove, Topology.atnAgentRequest, State.withBuffers]
    split
    · split
      · rfl
      · split <;> rfl
    · rfl
  | step => exact atnAgentStep_withBuffers elsewhere
  | expire =>
    obtain ⟨k, g, d⟩ := s
    dsimp only [Topology.atnAgentMove, Topology.atnAgentExpire, State.withBuffers]
    split
    · split <;> rfl
    · split <;> rfl
    · split <;> rfl
    · rfl

/-! ## Lanes -/

theorem readInputStep_withBuffers {done : LanePc} (elsewhere : m ≠ ℓ) :
    T.readInputStep (s.withBuffers ℓ contents) p m done = (T.readInputStep s p m done).withBuffers ℓ contents := by
  obtain ⟨k, g, d⟩ := s
  dsimp only [Topology.readInputStep, State.withBuffers]
  simp only [if_neg elsewhere]
  split <;> rfl

theorem prepareStep_withBuffers :
    T.prepareStep (s.withBuffers ℓ contents) p m = (T.prepareStep s p m).withBuffers ℓ contents := by
  obtain ⟨k, g, d⟩ := s
  dsimp only [Topology.prepareStep, State.withBuffers]
  split
  · rfl
  split <;> rfl

theorem terminateStep_withBuffers {site : TerminateSite} {result : Control.ResultCode} :
    T.terminateStep (s.withBuffers ℓ contents) p m site result =
      (T.terminateStep s p m site result).withBuffers ℓ contents := by
  obtain ⟨k, g, d⟩ := s
  dsimp only [Topology.terminateStep, State.withBuffers]
  split
  · split <;> rfl
  · rfl

theorem sendRoutingStep_withBuffers {rest : List Nat} (elsewhere : m ≠ ℓ) :
    T.sendRoutingStep (s.withBuffers ℓ contents) p m rest =
      (T.sendRoutingStep s p m rest).withBuffers ℓ contents := by
  obtain ⟨k, g, d⟩ := s
  cases rest with
  | nil => rfl
  | cons destination rest =>
    dsimp only [Topology.sendRoutingStep, State.withBuffers]
    rw [withBuffers_publishable]
    simp only [if_neg elsewhere]
    split
    · rfl
    · split <;> rfl

theorem laneStep_withBuffers (elsewhere : (s.control.lanes p m).engaged → m ≠ ℓ) :
    T.laneStep K (s.withBuffers ℓ contents) p m = (T.laneStep K s p m).map (·.withBuffers ℓ contents) := by
  have computing (computing : (s.control.lanes p m).pc.computing) : m ≠ ℓ :=
    elsewhere (Lane.engaged_of_computing computing)
  obtain ⟨k, g, d⟩ := s
  dsimp only [Topology.laneStep, State.withBuffers] at elsewhere computing ⊢
  cases stands : (k.lanes p m).pc with
  | awaitExecution =>
    dsimp only [Topology.observeStep]
    split
    · rfl
    split
    · split
      · rfl
      · split <;> rfl
    · split <;> rfl
  | awaitPayloads =>
    have poll : Topology.pollPayloads ⟨k, g, d.withBuffers ℓ contents⟩ p m = Topology.pollPayloads ⟨k, g, d⟩ p m := rfl
    rw [poll]
    dsimp only
    split
    · rfl
    · rfl
    · split <;> rfl
  | bindCompute =>
    dsimp only [Topology.bindStep]
    split <;> rfl
  | routerRead =>
    exact congrArg some (readInputStep_withBuffers (s := ⟨k, g, d⟩) (computing (by rw [stands]; rfl)))
  | routerWrite =>
    have elsewhere := computing (by rw [stands]; rfl)
    dsimp only [Topology.routerWriteStep]
    rw [withBuffers_write elsewhere]
    split <;> rfl
  | publishRouting =>
    have admitted : T.routingAdmitted ⟨k, g, d.withBuffers ℓ contents⟩ p m = T.routingAdmitted ⟨k, g, d⟩ p m := rfl
    dsimp only [Topology.publishRoutingStep]
    rw [admitted]
    split
    · rfl
    · split <;> rfl
  | sendRouting rest =>
    exact congrArg some (sendRoutingStep_withBuffers (s := ⟨k, g, d⟩) (computing (by rw [stands]; rfl)))
  | expertRead =>
    exact congrArg some (readInputStep_withBuffers (s := ⟨k, g, d⟩) (computing (by rw [stands]; rfl)))
  | expertReadRouting =>
    have elsewhere := computing (by rw [stands]; rfl)
    dsimp only [Topology.readRoutingStep]
    simp only [if_neg elsewhere]
    split <;> rfl
  | expertWrite =>
    have elsewhere := computing (by rw [stands]; rfl)
    dsimp only [Topology.expertWriteStep]
    rw [withBuffers_write elsewhere]
    split <;> rfl
  | prepareDelivery => exact congrArg some (prepareStep_withBuffers (s := ⟨k, g, d⟩))
  | publishPartial rest =>
    cases rest with
    | nil => rfl
    | cons destination rest =>
      dsimp only [Topology.publishPartialStep]
      rw [withBuffers_publishable]
      split <;> rfl
  | probePeerPartials =>
    have probe : T.probePeers ⟨k, g, d.withBuffers ℓ contents⟩ p m = T.probePeers ⟨k, g, d⟩ p m := rfl
    rw [probe]
    dsimp only
    split
    · rfl
    · rfl
    · split <;> rfl
  | completeExecution =>
    dsimp only [Topology.completeStep]
    split <;> rfl
  | quietCompletion =>
    dsimp only [Topology.publishCompletionStep]
    split
    · split <;> rfl
    · rfl
  | terminate site result => exact congrArg some (terminateStep_withBuffers (s := ⟨k, g, d⟩))
  | quietPartial => dsimp only; split <;> rfl
  | deliver => dsimp only; split <;> rfl
  | quietTerminal => dsimp only; split <;> rfl
  | _ => rfl

theorem directBlockStep_withBuffers {block : Nat} :
    T.directBlockStep (s.withBuffers ℓ contents) p m block =
      (T.directBlockStep s p m block).withBuffers ℓ contents := by
  obtain ⟨k, g, d⟩ := s
  have context :
      T.deliveryContext ⟨k, g, d.withBuffers ℓ contents⟩ p m = T.deliveryContext ⟨k, g, d⟩ p m := rfl
  dsimp only [Topology.directBlockStep, State.withBuffers]
  rw [context]
  split
  · rfl
  split <;> rfl

theorem completeBlockStart_withBuffers {block : Nat} :
    T.completeBlockStart (s.withBuffers ℓ contents) p m block =
      (T.completeBlockStart s p m block).withBuffers ℓ contents := by
  obtain ⟨k, g, d⟩ := s
  have context :
      T.deliveryContext ⟨k, g, d.withBuffers ℓ contents⟩ p m = T.deliveryContext ⟨k, g, d⟩ p m := rfl
  dsimp only [Topology.completeBlockStart, State.withBuffers]
  rw [context]
  split
  · rfl
  split
  · rfl
  split
  · rfl
  split
  · rfl
  split <;> rfl

theorem reduceStep_withBuffers {block first element stop : Nat} {partials : List V} (elsewhere : m ≠ ℓ) :
    T.reduceStep K (s.withBuffers ℓ contents) p m block first element stop partials =
      (T.reduceStep K s p m block first element stop partials).withBuffers ℓ contents := by
  obtain ⟨k, g, d⟩ := s
  dsimp only [Topology.reduceStep, State.withBuffers]
  rw [withBuffers_write elsewhere]
  simp only [if_neg elsewhere]
  split
  · split <;> rfl
  · rfl

theorem blockStep_withBuffers {block : Nat} {direct : Bool} (elsewhere : m ≠ ℓ) :
    T.blockStep K (s.withBuffers ℓ contents) p m block direct =
      (T.blockStep K s p m block direct).map (·.withBuffers ℓ contents) := by
  unfold Topology.blockStep
  split
  · cases stands : (s.payloads.lanes p m).blocks block with
    | start =>
      cases direct
      · exact congrArg some completeBlockStart_withBuffers
      · exact congrArg some directBlockStep_withBuffers
    | reduce first element stop partials => exact congrArg some (reduceStep_withBuffers elsewhere)
    | _ => rfl
  · rfl

theorem laneMove_withBuffers {move : LaneMove} (elsewhere : (s.control.lanes p m).engaged → m ≠ ℓ) :
    T.laneMove K (s.withBuffers ℓ contents) p m move =
      (T.laneMove K s p m move).map (·.withBuffers ℓ contents) := by
  cases move with
  | step => exact laneStep_withBuffers elsewhere
  | block index =>
    dsimp only [Topology.laneMove]
    split
    · next stands => exact blockStep_withBuffers (elsewhere (by simp [Lane.engaged, stands]))
    · rfl
  | expire =>
    obtain ⟨k, g, d⟩ := s
    have poll : Topology.pollPayloads ⟨k, g, d.withBuffers ℓ contents⟩ p m = Topology.pollPayloads ⟨k, g, d⟩ p m := rfl
    have probe : T.probePeers ⟨k, g, d.withBuffers ℓ contents⟩ p m = T.probePeers ⟨k, g, d⟩ p m := rfl
    dsimp only [Topology.laneMove, Topology.laneExpire, State.withBuffers]
    rw [poll, probe]
    split
    · split <;> rfl
    · split <;> rfl
    · rfl

/-! ## Events -/

theorem putStep_withBuffers {index : Nat} {move : PutMove} (elsewhere : m ≠ ℓ) :
    Topology.putStep (s.withBuffers ℓ contents) p m index move =
      (Topology.putStep s p m index move).map (·.withBuffers ℓ contents) := by
  obtain ⟨k, g, d⟩ := s
  dsimp only [Topology.putStep, State.withBuffers]
  simp only [if_neg elsewhere]
  cases (d.lanes p m).puts[index]? with
  | none => cases move <;> rfl
  | some put =>
    cases move with
    | fetch =>
      dsimp only
      split <;> rfl
    | land =>
      rw [Option.map_map]
      apply congrArg (Option.map · put.value)
      funext value
      rw [withBuffers_write elsewhere]
      rfl

theorem deliverPayload_withBuffers {slot : PayloadSlot} {delivery : Delivery LaneSuccess} (elsewhere : slot.lane ≠ ℓ) :
    Topology.deliverPayload (s.withBuffers ℓ contents) p slot delivery =
      (Topology.deliverPayload s p slot delivery).map (·.withBuffers ℓ contents) := by
  have target : slot.target.2 ≠ ℓ := by
    cases slot <;> exact elsewhere
  obtain ⟨k, g, d⟩ := s
  dsimp only [Topology.deliverPayload, State.withBuffers]
  rw [Option.map_map]
  apply congrArg (Option.map · _)
  funext delivered
  obtain ⟨channel, - | ⟨element, value⟩⟩ := delivered
  · rfl
  · exact congrArg (State.mk k g) (withBuffers_write (d := d.setSlot p slot channel) target)

end Buffers

/-! ## Parties of a lease -/

/-- The event is a step of a party of the lane's lease that has not acknowledged or
completed it: of a rank that holds its Admission, of a lane that executes it, of a put
issued under it or of a payload publication on its way. -/
inductive Party (T : Topology) {V : Type} (s : State V) (ℓ L : Nat) (invocation : Invocation) : Event V → Prop where
  | rank (r : Nat) (move : AtnAgentMove V) (rank : T.isRank invocation.key.instanceIndex r)
      (holding : (s.control.atnagents invocation.key.instanceIndex r).pc.holding)
      (admission : (s.control.atnagents invocation.key.instanceIndex r).admission = ⟨invocation.key, ℓ, L⟩)
      (unacknowledged :
        invocation.key.invocationSequence ∉ s.control.acknowledgements invocation.key.instanceIndex r) :
      Party T s ℓ L invocation (.atnagent invocation.key.instanceIndex r move)
  | lane (p : Nat) (move : LaneMove) (member : p ∈ T.group invocation)
      (execution : (s.control.lanes p ℓ).execution = invocation.execution L) (uncompleted : L ∉ s.control.completions p ℓ) :
      Party T s ℓ L invocation (.lane p ℓ move)
  | put (p index : Nat) (move : PutMove) (put : PendingPut V) (member : p ∈ T.group invocation)
      (issued : (s.payloads.lanes p ℓ).puts[index]? = some put)
      (destination : put.destination ∈ T.atnagentPes invocation.key.instanceIndex)
      (uncompleted : L ∉ s.control.completions p ℓ) : Party T s ℓ L invocation (.put p ℓ index move)
  | payload (p : Nat) (slot : PayloadSlot) (delivery : Delivery LaneSuccess) (lane : slot.lane = ℓ)
      (member : p ∈ T.group invocation) (put : Put LaneSuccess (Nat × V))
      (flown : put ∈ (s.payloads.slots p slot).flight) (record : put.record = ⟨invocation.key, L⟩)
      (uncompleted : L ∉ s.control.completions p ℓ) : Party T s ℓ L invocation (.payload p slot delivery)

section Parties

variable {T : Topology} {V : Type} {K : Kernels V} {policy : PolicyState} {s t : State V} {log : List Sending}
  {i r p ℓ L : Nat} {invocation : Invocation} {event : Event V}

/-- No party of a settled lease takes a step. -/
theorem Settled.no_party (settled : Settled T s.control ℓ L invocation) : ¬Party T s ℓ L invocation event := by
  intro party
  cases party with
  | rank r _ rank _ _ unacknowledged => exact unacknowledged (settled.acknowledged r rank)
  | lane p _ member _ uncompleted => exact uncompleted (settled.completed p member)
  | put p _ _ _ member _ _ uncompleted => exact uncompleted (settled.completed p member)
  | payload p _ _ _ member _ _ _ uncompleted => exact uncompleted (settled.completed p member)

/-- A rank that holds an Admission is a party of its lane's last lease. -/
theorem Established.rank_party (established : Established T s.control) (rank : T.isRank i r)
    (holding : (s.control.atnagents i r).pc.holding) (move : AtnAgentMove V)
    (lane : (s.control.atnagents i r).admission.executorLaneIndex = ℓ) :
    ∃ invocation, s.control.scheduler.Holds invocation ℓ ∧
      Party T s ℓ (s.control.leaseCount ℓ) invocation (.atnagent i r move) := by
  subst lane
  obtain ⟨invocation, granted, lease, key, -, holds⟩ := established.holding rank holding
  have ledger := established.ledger i r rank
  obtain ⟨count, number, -⟩ := ledger.waiting (AtnAgentPc.submitted_of_holding holding).1
  have held : (s.control.atnagents i r).admission.key = (s.control.atnagents i r).key i :=
    (established.admissions.rank i r rank).holding holding
  have admission : (s.control.atnagents i r).admission =
      ⟨invocation.key, (s.control.atnagents i r).admission.executorLaneIndex,
        s.control.leaseCount (s.control.atnagents i r).admission.executorLaneIndex⟩ := by
    rw [key, ← lease, ← held]
  have unacknowledged : invocation.key.invocationSequence ∉ s.control.acknowledgements i r := by
    rw [ledger.mem_acknowledgements, key]
    dsimp only [AtnAgent.key]
    omega
  have index : invocation.key.instanceIndex = i := by rw [key]; rfl
  subst index
  exact ⟨invocation, holds, .rank r move rank holding admission unacknowledged⟩

/-- A lane that executes a lease has not completed it. -/
theorem Established.lane_party (established : Established T s.control) (isLane : T.isLane p ℓ)
    (leased : (s.control.lanes p ℓ).leased) :
    ∃ invocation, s.control.scheduler.Holds invocation ℓ ∧ p ∈ T.group invocation ∧
      (s.control.lanes p ℓ).execution = invocation.execution (s.control.leaseCount ℓ) ∧
      s.control.leaseCount ℓ ∉ s.control.completions p ℓ := by
  obtain ⟨invocation, assigned, execution, holds⟩ := established.leases.executing isLane leased
  refine ⟨invocation, holds, assigned.member, execution, fun completed => ?_⟩
  have behind := ((established.leases.lane p ℓ isLane).completed _ completed).1
  unfold Lane.leased at leased
  rw [execution] at leased
  exact absurd leased (Nat.not_lt.mpr behind)

/-- A put goes to a rank of the invocation that its lane executes. -/
theorem Established.put_party (established : Established T s.control) (puts : LanePuts T s p ℓ) {index : Nat}
    {put : PendingPut V} (issued : (s.payloads.lanes p ℓ).puts[index]? = some put) (move : PutMove) :
    ∃ invocation, s.control.scheduler.Holds invocation ℓ ∧
      Party T s ℓ (s.control.leaseCount ℓ) invocation (.put p ℓ index move) := by
  have member := List.mem_of_getElem? issued
  obtain ⟨isLane, leased⟩ := puts.leased (List.ne_nil_of_mem member)
  obtain ⟨invocation, holds, party, execution, uncompleted⟩ := established.lane_party isLane leased
  refine ⟨invocation, holds, .put p index move put party issued ?_ uncompleted⟩
  have delivers := puts.delivers put member
  rw [execution] at delivers
  have granted := established.books.granted holds
  have width := (established.admissions.granted _ _ _ granted).width
  exact delivers_atnagent (e := invocation.execution (s.control.leaseCount ℓ))
    (established.leases.chain.bounded _ _ _ granted).2 party width delivers

/-- What is on its way to a lane goes to a party of its last lease. -/
theorem Post.payload_party (post : Post T s log) (established : Established T s.control) {slot : PayloadSlot}
    (lane : slot.lane = ℓ) (flight : (s.payloads.slots p slot).flight ≠ []) (delivery : Delivery LaneSuccess) :
    ∃ invocation, s.control.scheduler.Holds invocation ℓ ∧
      Party T s ℓ (s.control.leaseCount ℓ) invocation (.payload p slot delivery) := by
  subst lane
  have isLane := post.flight_isLane established flight
  obtain ⟨put, flown⟩ := List.exists_mem_of_ne_nil _ flight
  obtain ⟨sender, sent⟩ := post.flown p slot put flown
  have beyond := (((post.inbox p _ isLane).tracks slot rfl).pending put flown).2
  obtain ⟨invocation, granted, key, owed⟩ := post.addressed _ sent
  rcases established.leases.chain.settled _ _ _ granted with settled | ⟨last, holds⟩
  · have behind := established.leases.behind granted settled (sender_mem owed)
    exact absurd beyond (Nat.not_lt.mpr behind)
  · have last : put.record.executorLeaseSequence = s.control.leaseCount slot.lane := last
    refine ⟨invocation, holds, .payload p slot delivery rfl (sender_mem owed) put flown ?_ fun completed => ?_⟩
    · rw [← last, ← key]
    · have behind := ((established.leases.lane p _ isLane).completed _ completed).1
      rw [← last] at behind
      exact absurd beyond (Nat.not_lt.mpr behind)

/-- Whoever does not spare a lane is a party of its last lease, which is Active. -/
theorem party_of_not_spares (reached : (T.fabric K policy).Reachable s) (touches : ¬T.Spares K s ℓ event) :
    ∃ invocation, s.control.scheduler.Holds invocation ℓ ∧ Party T s ℓ (s.control.leaseCount ℓ) invocation event := by
  have established := reachable_established reached
  cases event with
  | coordinator => exact absurd (fun _ => coordinatorStep_withBuffers) touches
  | atnagent i r move =>
    by_cases rank : T.isRank i r
    · by_cases holds : (s.control.atnagents i r).pc.holding ∧ (s.control.atnagents i r).admission.executorLaneIndex = ℓ
      · exact established.rank_party rank holds.1 move holds.2
      · refine absurd (fun contents => ?_) touches
        simp only [Topology.next, rank, if_true]
        exact atnAgentMove_withBuffers fun holding lane => holds ⟨holding, lane⟩
    · refine absurd (fun contents => ?_) touches
      rw [Topology.next, Topology.next, if_neg rank, if_neg rank]
      rfl
  | lane p m move =>
    by_cases isLane : T.isLane p m
    · by_cases engaged : (s.control.lanes p m).engaged ∧ m = ℓ
      · obtain ⟨engaged, rfl⟩ := engaged
        have leased := (established.leases.lane p m isLane).engaged engaged
        obtain ⟨invocation, holds, member, execution, uncompleted⟩ := established.lane_party isLane leased
        exact ⟨invocation, holds, .lane p move member execution uncompleted⟩
      · refine absurd (fun contents => ?_) touches
        simp only [Topology.next, isLane, if_true]
        exact laneMove_withBuffers fun holding lane => engaged ⟨holding, lane⟩
    · refine absurd (fun contents => ?_) touches
      rw [Topology.next, Topology.next, if_neg isLane, if_neg isLane]
      rfl
  | publication destination slot delivery =>
    refine absurd (fun contents => ?_) touches
    simp only [Topology.next, Topology.deliverPublication, Option.map_map]
    rfl
  | payload destination slot delivery =>
    by_cases lane : slot.lane = ℓ
    · cases delivered : (s.payloads.slots destination slot).deliver publicationSequence delivery with
      | none =>
        refine absurd (fun contents => ?_) touches
        simp only [Topology.next, Topology.deliverPayload, delivered, Option.map_none]
      | some delivered =>
        obtain ⟨log, posted⟩ := exists_log reached
        have flight := (Channel.deliver_flight delivered).1
        exact (posted_post posted).1.payload_party established lane flight delivery
    · exact absurd (fun _ => deliverPayload_withBuffers lane) touches
  | failure destination delivery =>
    refine absurd (fun contents => ?_) touches
    simp only [Topology.next, Topology.deliverFailure, Option.map_map]
    rfl
  | put p m index move =>
    by_cases here : m = ℓ
    · subst here
      cases issued : (s.payloads.lanes p m).puts[index]? with
      | none =>
        refine absurd (fun contents => ?_) touches
        simp only [Topology.next, Topology.putStep, issued, Option.map_none]
      | some put => exact established.put_party (reachable_puts reached p m) issued move
    · exact absurd (fun _ => putStep_withBuffers here) touches
  | shutdown pe => exact absurd (fun _ => rfl) touches

end Parties

/-! ## Lane leases -/

/-- Who lanes are leased to, and who reads and writes their buffers. -/
structure LaneSafe (T : Topology) {V : Type} (K : Kernels V) (s : State V) : Prop where
  /-- A lane is leased to at most one invocation, under the last of its leases. -/
  exclusive :
    ∀ ℓ invocation, s.control.scheduler.Holds invocation ℓ →
      s.control.Granted ℓ (s.control.leaseCount ℓ) invocation ∧
        ∀ other, s.control.scheduler.Holds other ℓ → other = invocation
  /-- The Coordinator's record of a lane numbers its leases, but for one on its way out. -/
  recorded :
    s.control.coordinator ≠ .aborted → ∀ ℓ,
      s.control.leaseSequence T ℓ + (if s.control.coordinator.leasing = some ℓ then 1 else 0) = s.control.leaseCount ℓ
  /-- Every lease of a lane but the last was completed by every FfnAgent of its group and
  acknowledged by every rank of its Instance. -/
  settled :
    ∀ ℓ L invocation, s.control.Granted ℓ L invocation → L < s.control.leaseCount ℓ →
      Settled T s.control ℓ L invocation
  /-- So was every lease before the one that an FfnAgent can see. -/
  visible :
    ∀ p ℓ, T.isLane p ℓ → ∀ L invocation, s.control.Granted ℓ L invocation →
      L < (s.control.slots p (.laneExecution ℓ)).sequence → Settled T s.control ℓ L invocation
  /-- So was every lease before the one that a rank was admitted to. -/
  admitted :
    ∀ i r, T.isRank i r → (s.control.atnagents i r).pc.holding → ∀ L invocation,
      s.control.Granted (s.control.atnagents i r).admission.executorLaneIndex L invocation →
        L < (s.control.atnagents i r).admission.executorLeaseSequence →
          Settled T s.control (s.control.atnagents i r).admission.executorLaneIndex L invocation
  /-- Every step that reads or writes the buffers of a lane is one of a party of its
  last lease. -/
  parties :
    ∀ ℓ event, ¬T.Spares K s ℓ event →
      ∃ invocation, s.control.scheduler.Holds invocation ℓ ∧
        Party T s ℓ (s.control.leaseCount ℓ) invocation event
  /-- Where the Coordinator leases a lane, all its leases are settled and no step
  reads or writes its buffers. -/
  released :
    ∀ event t, T.next K s event = some t → ∀ ℓ, t.control.leases ℓ ≠ s.control.leases ℓ →
      (∀ L invocation, s.control.Granted ℓ L invocation → Settled T s.control ℓ L invocation) ∧
        ∀ event, T.Spares K s ℓ event

section Leased

variable {T : Topology} {V : Type} {K : Kernels V} {policy : PolicyState} {s t : State V} {k k' : Control}
  {p ℓ : Nat} {invocation : Invocation}

/-- The Coordinator only leases a lane that no invocation holds. -/
theorem ControlStep.unheld (step : ControlStep T k k') (books : Books T k) (leased : k'.leases ℓ ≠ k.leases ℓ) :
    ¬k.scheduler.Holds invocation ℓ := by
  cases step with
  | same => exact absurd rfl leased
  | deliver => exact absurd rfl leased
  | atnagent _ _ _ _ effect => exact absurd (congrFun effect.frame.leases ℓ) leased
  | lane _ _ _ _ effect => exact absurd (congrFun effect.frame.leases ℓ) leased
  | coordinator _ effect =>
    cases effect with
    | schedule decision scheduler stands scheduled =>
      obtain ⟨-, ⟨impossible, -⟩ | ⟨index, bound, lane, free, state, unoccupied, made, entries⟩⟩ :=
        Scheduler.trySchedule_eq_some scheduled
      · cases impossible
      obtain rfl := Option.some.inj made
      by_cases here : ℓ = lane
      · subst here
        intro holds
        rw [Scheduler.not_occupied_iff, books.instanceCount] at unoccupied
        exact unoccupied _ ((books.entry _).bounded (by simp [holds.state])) holds.state holds.lane
      · refine absurd ?_ leased
        exact Function.update_of_ne here _ _
    | _ => exact absurd rfl leased

/-- No FfnAgent sees a lease that was not granted. -/
theorem Established.word_le (established : Established T s.control) (isLane : T.isLane p ℓ) :
    (s.control.slots p (.laneExecution ℓ)).sequence ≤ s.control.leaseCount ℓ := by
  have book := established.leases.lane p ℓ isLane
  by_cases fresh : (s.control.lanes p ℓ).consumed < (s.control.slots p (.laneExecution ℓ)).sequence
  · obtain ⟨-, ⟨invocation, assigned, -⟩, number⟩ := book.tracks.fresh fresh
    rw [← number]
    exact assigned.granted.le.2
  · obtain ⟨last, execution⟩ := established.last_le isLane
    by_cases leased : (s.control.lanes p ℓ).leased
    · rw [Lane.consumed_of_leased leased] at fresh
      exact (Nat.not_lt.mp fresh).trans (execution leased)
    · rw [Lane.consumed_of_not_leased leased] at fresh
      exact (Nat.not_lt.mp fresh).trans last

end Leased

theorem lane_lease_safe {T : Topology} {V : Type} {K : Kernels V} {policy : PolicyState} {s : State V}
    (reached : (T.fabric K policy).Reachable s) : LaneSafe T K s := by
  have established := reachable_established reached
  have settled : ∀ ℓ L invocation, s.control.Granted ℓ L invocation → L < s.control.leaseCount ℓ →
      Settled T s.control ℓ L invocation := by
    intro ℓ L invocation granted earlier
    rcases established.leases.chain.settled ℓ L invocation granted with settled | ⟨last, -⟩
    · exact settled
    · omega
  refine ⟨?_, established.books.settled, settled, ?_, ?_, ?_, ?_⟩
  · intro ℓ invocation holds
    exact ⟨established.books.granted holds, fun other others => established.books.active_unique others holds⟩
  · intro p ℓ isLane L invocation granted earlier
    exact settled ℓ L invocation granted (Nat.lt_of_lt_of_le earlier (established.word_le isLane))
  · intro i r rank holding L invocation granted earlier
    obtain ⟨-, -, lease, -⟩ := established.holding rank holding
    exact settled _ L invocation granted (lease ▸ earlier)
  · intro ℓ event touches
    exact party_of_not_spares reached touches
  · intro event t taken ℓ leased
    have unheld {invocation : Invocation} : ¬s.control.scheduler.Holds invocation ℓ :=
      (next_control taken).unheld established.books leased
    constructor
    · intro L invocation granted
      rcases established.leases.chain.settled ℓ L invocation granted with settled | ⟨-, holds⟩
      · exact settled
      · exact absurd holds unheld
    · intro event
      by_contra touches
      obtain ⟨invocation, holds, -⟩ := party_of_not_spares reached touches
      exact unheld holds

/-- A lane has been leased again, and its FfnAgent can see it. -/
theorem lane_lease_safe_again :
    ∃ s, (solo.fabric soloKernels (.fifo 0)).Reachable s ∧ s.control.leaseCount 0 = 2 ∧
      (s.control.slots 1 (.laneExecution 0)).sequence = 2 ∧ LaneSafe solo soloKernels s := by
  obtain ⟨s, reached, leased⟩ :=
    solo.run_reaches soloKernels (.fifo 0) (fun _ _ _ _ => 0) (soloSubmits ++ soloCompletes ++ soloReturns)
      (fun s => s.control.leaseCount 0 = 2 ∧ (s.control.slots 1 (.laneExecution 0)).sequence = 2) (by decide +kernel)
  obtain ⟨leases, word⟩ := of_decide_eq_true leased
  exact ⟨s, reached, leases, word, lane_lease_safe reached⟩

end CrossPool.Fabric
