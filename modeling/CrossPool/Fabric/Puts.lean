import CrossPool.Fabric.Delivery
import CrossPool.Fabric.Senders

/-!
# Nonblocking puts

The puts that a lane has issued and not completed are those of the delivery of its
execution: they go to the ranks of the Instance, and a lane that has completed its
lease has none.
-/

namespace CrossPool.Fabric

open CrossPool.Lib
open CrossPool.Fabric.Topology

/-! ## Where a delivery writes -/

/-- The elements of a destination that a PE writes for an execution. -/
def Topology.delivers (T : Topology) (e : LaneExecution) (p destination element : Nat) : Prop :=
  let rank := (T.executionPes e).idxOf p
  match deliveryVariant (T.instanceEntry e.key.instanceIndex) e.outputRequirement with
  | some .directPartial =>
    destination = (T.atnagentPes e.key.instanceIndex).getD rank 0 ∧ element < T.executionElements e
  | some _ =>
    destination ∈ T.completeDestinations e ∧ (T.rankRange e rank).1 ≤ element ∧
      element < (T.rankRange e rank).1 + (T.rankRange e rank).2
  | none => False

/-- The elements of one block. -/
def Topology.blockPart (T : Topology) (e : LaneExecution) (p block : Nat) : Nat × Nat :=
  let rank := (T.executionPes e).idxOf p
  if T.complete e.key.instanceIndex e.outputRequirement then
    blockRange (T.rankRange e rank).1 (T.rankRange e rank).2 block T.deliveryBlockCount
  else blockRange 0 (T.executionElements e) block T.deliveryBlockCount

section Delivers

variable {T : Topology} {V : Type} {e : LaneExecution} {p ℓ destination element block : Nat}

theorem delivers_complete (complete : T.complete e.key.instanceIndex e.outputRequirement) :
    T.delivers e p destination element ↔
      destination ∈ T.completeDestinations e ∧ (T.rankRange e ((T.executionPes e).idxOf p)).1 ≤ element ∧
        element <
          (T.rankRange e ((T.executionPes e).idxOf p)).1 + (T.rankRange e ((T.executionPes e).idxOf p)).2 := by
  unfold Topology.complete at complete
  unfold Topology.delivers
  split at complete
  · next variant => rw [variant]
  · next variant => rw [variant]
  · cases complete

theorem delivers_direct
    (direct : deliveryVariant (T.instanceEntry e.key.instanceIndex) e.outputRequirement = some .directPartial) :
    T.delivers e p destination element ↔
      destination = (T.atnagentPes e.key.instanceIndex).getD ((T.executionPes e).idxOf p) 0 ∧
        element < T.executionElements e := by
  unfold Topology.delivers
  rw [direct]

theorem incomplete_of_direct
    (direct : deliveryVariant (T.instanceEntry e.key.instanceIndex) e.outputRequirement = some .directPartial) :
    T.complete e.key.instanceIndex e.outputRequirement = false := by
  unfold Topology.complete
  rw [direct]

/-- What a block puts, the PE delivers. -/
theorem delivers_of_part (bound : block < T.deliveryBlockCount)
    (low : (T.blockPart e p block).1 ≤ element) (high : element < (T.blockPart e p block).2)
    (addressed :
      (T.complete e.key.instanceIndex e.outputRequirement ∧ destination ∈ T.completeDestinations e) ∨
        (deliveryVariant (T.instanceEntry e.key.instanceIndex) e.outputRequirement = some .directPartial ∧
          destination = (T.atnagentPes e.key.instanceIndex).getD ((T.executionPes e).idxOf p) 0)) :
    T.delivers e p destination element := by
  rcases addressed with ⟨complete, member⟩ | ⟨direct, rfl⟩
  · simp only [Topology.blockPart, complete, if_true] at low high
    have within := high.trans_le (blockRange_le bound).2
    rw [blockRange_eq] at low
    rw [delivers_complete complete]
    exact ⟨member, by omega, by omega⟩
  · simp only [Topology.blockPart, incomplete_of_direct direct, Bool.false_eq_true, if_false] at low high
    have within := high.trans_le (blockRange_le bound).2
    rw [delivers_direct direct]
    exact ⟨rfl, by omega⟩

/-- A delivery writes to the Instance's ranks. -/
theorem delivers_atnagent (bound : e.key.instanceIndex < T.instanceCount) (member : p ∈ T.executionPes e)
    (width : (T.executionPes e).length = (T.instanceEntry e.key.instanceIndex).ffnTpSize)
    (delivers : T.delivers e p destination element) : destination ∈ T.atnagentPes e.key.instanceIndex := by
  unfold Topology.delivers at delivers
  dsimp only at delivers
  split at delivers
  · next variant =>
    obtain ⟨rfl, -⟩ := delivers
    have inside := List.idxOf_lt_length_of_mem member
    have ranks := atnagentPes_length (T := T) _ bound
    have fits : (T.executionPes e).length ≤ (T.atnagentPes e.key.instanceIndex).length := by
      unfold deliveryVariant at variant
      split at variant
      · cases variant
      · split at variant
        · split at variant
          · omega
          · cases variant
        · cases variant
      · cases variant
    rw [List.getD_eq_getElem _ _ (by omega)]
    exact List.getElem_mem _
  · obtain ⟨member, -⟩ := delivers
    unfold Topology.completeDestinations at member
    dsimp only at member
    split at member
    · exact member
    · exact List.mem_of_mem_take member
  · cases delivers

end Delivers

/-! ## Puts of a lane -/

/-- The graph nodes between the choice of a delivery and its last block. -/
def LanePc.prepared : LanePc → Bool
  | quietPartial _ => true
  | publishPartial _ => true
  | probePeerPartials => true
  | deliver _ => true
  | cancelled .delivery => true
  | terminate .delivery _ => true
  | _ => false

/-- A block in the middle of its part is one of complete delivery. -/
def Parted (T : Topology) {V : Type} (e : LaneExecution) (p block : Nat) : BlockPc V → Prop
  | .reduce first _ stop _ =>
    T.complete e.key.instanceIndex e.outputRequirement ∧ (first, stop) = T.blockPart e p block
  | .put first stop =>
    T.complete e.key.instanceIndex e.outputRequirement ∧ (first, stop) = T.blockPart e p block
  | _ => True

/-- The puts of a lane are those of the delivery of its execution. -/
structure LanePuts (T : Topology) {V : Type} (s : State V) (p ℓ : Nat) : Prop where
  leased : (s.payloads.lanes p ℓ).puts ≠ [] → T.isLane p ℓ ∧ (s.control.lanes p ℓ).leased
  delivers :
    ∀ put ∈ (s.payloads.lanes p ℓ).puts,
      T.delivers (s.control.lanes p ℓ).execution p put.destination put.element
  parted :
    (s.control.lanes p ℓ).pc.prepared →
      ∀ block, Parted T (s.control.lanes p ℓ).execution p block ((s.payloads.lanes p ℓ).blocks block)

section Puts

variable {T : Topology} {V : Type} {K : Kernels V} {s t : State V} {p ℓ : Nat}

/-- What a step of a lane does to its puts and its blocks outside a delivery. -/
theorem LaneTaken.undelivering (taken : LaneTaken T K s p ℓ t)
    (elsewhere : ∀ direct, (s.control.lanes p ℓ).pc ≠ .deliver direct) :
    (t.payloads.lanes p ℓ).puts = (s.payloads.lanes p ℓ).puts ∧
      ((t.payloads.lanes p ℓ).blocks = (s.payloads.lanes p ℓ).blocks ∨
        ((s.control.lanes p ℓ).pc = .prepareDelivery ∧ (t.payloads.lanes p ℓ).blocks = fun _ => .start)) := by
  cases taken with
  | observe =>
    simp only [observeStep]
    split
    · exact ⟨rfl, .inl rfl⟩
    · split <;> exact ⟨rfl, .inl rfl⟩
  | terminate =>
    simp only [terminateStep]
    split
    · split <;> exact ⟨rfl, .inl rfl⟩
    · exact ⟨rfl, .inl rfl⟩
  | bind => simp [bindStep, Topology.laneRegisters, Payloads.setLane]
  | routerRead =>
    simp only [readInputStep]
    split <;> simp [Topology.laneRegisters, Payloads.setLane]
  | expertRead =>
    simp only [readInputStep]
    split <;> simp [Topology.laneRegisters, Payloads.setLane]
  | routerWrite =>
    simp only [routerWriteStep]
    split
    · simp [Payloads.setLane, Payloads.write]
    · exact ⟨rfl, .inl rfl⟩
  | publishRouting =>
    simp only [publishRoutingStep]
    split
    · simp [Payloads.setLane]
    · split
      · exact ⟨rfl, .inl rfl⟩
      · simp [Payloads.setLane]
  | sendRouting rest =>
    cases rest with
    | nil => simp [sendRoutingStep, Topology.laneRegisters, Payloads.setLane]
    | cons destination rest =>
      simp only [sendRoutingStep]
      split
      · simp [Payloads.setLane]
      · split
        · simp [Payloads.setLane]
        · exact ⟨rfl, .inl rfl⟩
  | expertReadRouting =>
    simp only [readRoutingStep]
    split
    · simp [Payloads.setLane]
    · exact ⟨rfl, .inl rfl⟩
  | expertWrite =>
    simp only [expertWriteStep]
    split
    · simp [Payloads.setLane]
    · exact ⟨rfl, .inl rfl⟩
  | prepare stands =>
    simp only [prepareStep]
    split
    · exact ⟨rfl, .inl rfl⟩
    split
    · exact ⟨rfl, .inl rfl⟩
    · simp [Topology.laneRegisters, Payloads.setLane, stands]
    · simp [Payloads.setLane, stands]
  | publishPartial rest =>
    cases rest with
    | nil => exact ⟨rfl, .inl rfl⟩
    | cons destination rest =>
      simp only [publishPartialStep]
      split
      · exact ⟨rfl, .inl rfl⟩
      · exact ⟨rfl, .inl rfl⟩
  | complete =>
    simp only [completeStep]
    split <;> exact ⟨rfl, .inl rfl⟩
  | publishCompletion =>
    simp only [publishCompletionStep]
    split <;> exact ⟨rfl, .inl rfl⟩
  | directBlock _ stands => exact absurd stands (elsewhere _)
  | completeBlock _ stands => exact absurd stands (elsewhere _)
  | reduceBlock _ _ _ _ _ _ stands => exact absurd stands (elsewhere _)
  | putBlock _ _ _ _ stands => exact absurd stands (elsewhere _)
  | delivered _ stands => exact absurd stands (elsewhere _)
  | _ => exact ⟨rfl, .inl rfl⟩

/-- A lane comes to a delivery by way of `prepare_delivery`, which resets the blocks. -/
theorem LaneTaken.prepared (taken : LaneTaken T K s p ℓ t) (prepared : (t.control.lanes p ℓ).pc.prepared) :
    (s.control.lanes p ℓ).pc.prepared ∨
      ((s.control.lanes p ℓ).pc = .prepareDelivery ∧ (t.payloads.lanes p ℓ).blocks = fun _ => .start) := by
  cases taken with
  | observe =>
    simp only [observeStep] at prepared
    split at prepared
    · simp [Control.setLane, LanePc.prepared] at prepared
    · split at prepared <;> simp [Control.setLane, LanePc.prepared] at prepared
  | cancelDelivery stands => exact .inl (by rw [stands]; rfl)
  | failPartials _ stands => exact .inl (by rw [stands]; rfl)
  | cancelled site stands =>
    cases site
    · simp [laneTerminate, Control.setLane, LanePc.prepared] at prepared
    · exact .inl (by rw [stands]; rfl)
  | terminate site result stands =>
    cases site
    · simp only [terminateStep] at prepared
      split at prepared
      · split at prepared <;> simp [laneGoto, Control.setLane, LanePc.prepared] at prepared
      · simp [laneGoto, Control.setLane, LanePc.prepared] at prepared
    · exact .inl (by rw [stands]; rfl)
  | routerRead stands =>
    simp only [readInputStep] at prepared
    split at prepared <;> simp [Topology.laneRegisters, laneGoto, Control.setLane, LanePc.prepared, stands] at prepared
  | expertRead stands =>
    simp only [readInputStep] at prepared
    split at prepared
    · simp [Topology.laneRegisters, laneGoto, Control.setLane, LanePc.prepared, stands] at prepared
    · simp only [Topology.laneRegisters, laneGoto, Control.setLane, update₂_same] at prepared
      split at prepared <;> cases prepared
  | bind =>
    simp only [bindStep, Topology.laneRegisters, laneGoto, Control.setLane, update₂_same] at prepared
    split at prepared <;> cases prepared
  | routerWrite stands =>
    simp only [routerWriteStep] at prepared
    split at prepared <;> simp [laneGoto, Control.setLane, LanePc.prepared, stands] at prepared
  | publishRouting stands =>
    simp only [publishRoutingStep] at prepared
    split at prepared
    · simp [Control.setLane, LanePc.prepared] at prepared
    · split at prepared <;> simp [laneGoto, Control.setLane, LanePc.prepared] at prepared
  | sendRouting rest stands =>
    cases rest with
    | nil => simp [sendRoutingStep, Topology.laneRegisters, laneGoto, Control.setLane, LanePc.prepared] at prepared
    | cons destination rest =>
      simp only [sendRoutingStep] at prepared
      split at prepared
      · simp [LanePc.prepared, stands] at prepared
      · split at prepared <;> simp [laneGoto, Control.setLane, LanePc.prepared] at prepared
  | expertReadRouting stands =>
    simp only [readRoutingStep] at prepared
    split at prepared <;> simp [laneGoto, Control.setLane, LanePc.prepared, stands] at prepared
  | expertWrite stands =>
    simp only [expertWriteStep] at prepared
    split at prepared <;> simp [laneGoto, Control.setLane, LanePc.prepared, stands] at prepared
  | prepare stands =>
    simp only [prepareStep] at prepared ⊢
    split
    · next failed =>
      rw [if_pos failed] at prepared
      simp [Control.setLane, LanePc.prepared] at prepared
    next live =>
    rw [if_neg live] at prepared
    split
    · next variant =>
      rw [variant] at prepared
      simp [laneGoto, Control.setLane, LanePc.prepared] at prepared
    · exact .inr ⟨stands, by simp [Topology.laneRegisters, Payloads.setLane]⟩
    · exact .inr ⟨stands, by simp [Payloads.setLane]⟩
  | quietPartial _ stands => exact .inl (by rw [stands]; rfl)
  | publishPartial _ stands => exact .inl (by rw [stands]; rfl)
  | partialsReady stands => exact .inl (by rw [stands]; rfl)
  | directBlock _ stands => exact .inl (by rw [stands]; rfl)
  | completeBlock _ stands => exact .inl (by rw [stands]; rfl)
  | reduceBlock _ _ _ _ _ _ stands => exact .inl (by rw [stands]; rfl)
  | putBlock _ _ _ _ stands => exact .inl (by rw [stands]; rfl)
  | delivered _ stands => exact .inl (by rw [stands]; rfl)
  | complete =>
    simp only [completeStep] at prepared
    split at prepared <;> simp [laneGoto, Control.setLane, Control.store, Control.setSlot, LanePc.prepared] at prepared
  | publishCompletion =>
    simp only [publishCompletionStep] at prepared
    split at prepared <;> simp [laneGoto, Control.setLane, LanePc.prepared] at prepared
  | _ => simp [laneGoto, laneTerminate, exitStep, Control.setLane, LanePc.prepared] at prepared

theorem LaneTaken.quiet_of_completion (taken : LaneTaken T K s p ℓ t)
    (stands : (s.control.lanes p ℓ).pc = .quietCompletion) : (s.payloads.lanes p ℓ).puts = [] := by
  cases taken with
  | publishCompletion _ quiet => exact quiet
  | _ => simp_all

end Puts

/-! ## Blocks of a delivery -/

section Blocks

variable {T : Topology} {V : Type} {K : Kernels V} {s t : State V} {p ℓ block : Nat} {e : LaneExecution}

/-- The context of a delivery that did not abort. -/
theorem deliveryContext_some {rank : Nat} (held : (s.control.slots p (.laneExecution ℓ)).record = e)
    (context : T.deliveryContext s p ℓ = some (e, rank)) :
    e.key.instanceIndex < T.instanceCount ∧ p ∈ T.executionPes e ∧
      (T.executionPes e).length = (T.instanceEntry e.key.instanceIndex).ffnTpSize ∧
      rank = (T.executionPes e).idxOf p := by
  simp only [Topology.deliveryContext, held] at context
  split at context
  · cases context
  · next resolved =>
    obtain ⟨-, rfl⟩ := Prod.mk.inj (Option.some.inj context)
    simp only [not_or, not_not] at resolved
    exact ⟨by omega, resolved.2.2.2.2.2.2.2, resolved.2.2.2.2.2.1, rfl⟩

theorem deliveryContext_record {execution : LaneExecution} {rank : Nat}
    (context : T.deliveryContext s p ℓ = some (execution, rank)) :
    (s.control.slots p (.laneExecution ℓ)).record = execution := by
  simp only [Topology.deliveryContext] at context
  split at context
  · cases context
  · exact (Prod.mk.inj (Option.some.inj context)).1

/-- A block of direct delivery aborts or puts its part of the local partial. -/
theorem directBlockStep_cases (held : (s.control.slots p (.laneExecution ℓ)).record = e) :
    T.directBlockStep s p ℓ block = laneGoto s p ℓ .aborted ∨
      (deliveryVariant (T.instanceEntry e.key.instanceIndex) e.outputRequirement = some .directPartial ∧
        T.directBlockStep s p ℓ block =
          issuePuts s p ℓ block
            (blockPuts [(T.atnagentPes e.key.instanceIndex).getD ((T.executionPes e).idxOf p) 0] .one
              (T.blockPart e p block).1 (T.blockPart e p block).2)) := by
  unfold Topology.directBlockStep
  cases context : T.deliveryContext s p ℓ with
  | none => exact .inl rfl
  | some resolved =>
    obtain ⟨execution, rank⟩ := resolved
    obtain rfl := held.symm.trans (deliveryContext_record context)
    obtain ⟨bound, member, width, rfl⟩ := deliveryContext_some held context
    dsimp only
    split
    · exact .inl rfl
    · next admitted =>
      simp only [not_or, not_not, Bool.not_eq_true', Bool.not_eq_false, not_lt] at admitted
      have ranks := atnagentPes_length (T := T) _ bound
      have direct : deliveryVariant (T.instanceEntry e.key.instanceIndex) e.outputRequirement =
          some .directPartial := by
        rw [admitted.1, deliveryVariant, if_pos admitted.2.1, if_pos (by omega)]
      refine .inr ⟨direct, ?_⟩
      simp only [Topology.blockPart, incomplete_of_direct direct, Bool.false_eq_true, if_false]

/-- A block of complete delivery is skipped in a failed generation, aborts, or
starts its part of the output. -/
theorem completeBlockStart_cases (held : (s.control.slots p (.laneExecution ℓ)).record = e) :
    (s.signals.flagged p ∧ T.completeBlockStart s p ℓ block = setBlock s p ℓ block .skipped) ∨
      T.completeBlockStart s p ℓ block = laneGoto s p ℓ .aborted ∨
      (T.complete e.key.instanceIndex e.outputRequirement ∧
        T.completeBlockStart s p ℓ block =
          setBlock s p ℓ block
            (if (T.blockPart e p block).1 = (T.blockPart e p block).2 then .done
            else if 1 < (T.executionPes e).length then
              .reduce (T.blockPart e p block).1 (T.blockPart e p block).1 (T.blockPart e p block).2 []
            else .put (T.blockPart e p block).1 (T.blockPart e p block).2)) := by
  unfold Topology.completeBlockStart
  by_cases flagged : s.signals.flagged p
  · exact .inl ⟨flagged, if_pos flagged⟩
  rw [if_neg flagged]
  right
  cases context : T.deliveryContext s p ℓ with
  | none => exact .inl rfl
  | some resolved =>
    obtain ⟨execution, rank⟩ := resolved
    obtain rfl := held.symm.trans (deliveryContext_record context)
    obtain ⟨bound, member, width, rfl⟩ := deliveryContext_some held context
    dsimp only
    split
    · exact .inl rfl
    · next admitted =>
      have complete : T.complete e.key.instanceIndex e.outputRequirement := by
        have ranks := atnagentPes_length (T := T) _ bound
        simp only [not_and_or, not_or, not_not, Bool.not_eq_true', Bool.not_eq_false, not_le] at admitted
        unfold Topology.complete
        cases requirement : e.outputRequirement with
        | perRankComplete => rfl
        | groupSumComplete =>
          obtain ⟨-, admitted, wide⟩ := admitted.resolve_left (by simp [requirement])
          rw [deliveryVariant, if_pos admitted, if_neg (by omega)]
        | other word unnamed => simp [requirement] at admitted
      refine .inr ⟨complete, ?_⟩
      simp only [Topology.blockPart, complete, if_true]
      split
      · rfl
      · split <;> rfl

/-- A reducing block reads the next peer, stages the sum of an element, or goes on to
put its part. -/
theorem reduceStep_cases {first element stop : Nat} {partials : List V}
    (held : (s.control.slots p (.laneExecution ℓ)).record = e) :
    (∃ peer, element < stop ∧ (T.executionPes e)[partials.length]? = some peer ∧
      T.reduceStep K s p ℓ block first element stop partials =
        { setBlock s p ℓ block (.reduce first element stop (partials ++ [s.payloads.memory peer .one ℓ element])) with
          payloads :=
            { (setBlock s p ℓ block
                (.reduce first element stop (partials ++ [s.payloads.memory peer .one ℓ element]))).payloads with
              reads :=
                s.payloads.reads ++
                  [{  reader := p
                      peer := peer
                      lane := ℓ
                      lease := (s.control.lanes p ℓ).execution.executorLeaseSequence
                      element := element
                      value := s.payloads.memory peer .one ℓ element
                      held := s.payloads.held peer ℓ }] } }) ∨
      (element < stop ∧ (T.executionPes e).length ≤ partials.length ∧
        T.reduceStep K s p ℓ block first element stop partials =
          setBlock { s with payloads := s.payloads.write p .zero ℓ element (K.orderedSum partials) } p ℓ block
            (.reduce first (element + 1) stop [])) ∨
      (stop ≤ element ∧
        T.reduceStep K s p ℓ block first element stop partials = setBlock s p ℓ block (.put first stop)) := by
  simp only [Topology.reduceStep, held]
  by_cases inside : element < stop
  · rw [if_pos inside]
    cases found : (T.executionPes e)[partials.length]? with
    | some peer => exact .inl ⟨peer, inside, rfl, rfl⟩
    | none => exact .inr (.inl ⟨inside, List.getElem?_eq_none_iff.mp found, rfl⟩)
  · rw [if_neg inside]
    exact .inr (.inr ⟨by omega, rfl⟩)

theorem putBlockStep_eq {first stop : Nat} (held : (s.control.slots p (.laneExecution ℓ)).record = e) :
    T.putBlockStep s p ℓ block first stop =
      issuePuts s p ℓ block
        (blockPuts (T.completeDestinations e) (if 1 < (T.executionPes e).length then .zero else .one) first stop) := by
  simp only [Topology.putBlockStep, held]

theorem mem_blockPuts {destinations : List Nat} {source : Buffer} {first stop : Nat} {put : PendingPut V} :
    put ∈ blockPuts destinations source first stop ↔
      put.destination ∈ destinations ∧ put.source = source ∧ first ≤ put.element ∧ put.element < stop ∧
        put.value = none := by
  simp only [blockPuts, List.mem_flatMap, List.mem_map, List.mem_range'_1]
  constructor
  · rintro ⟨destination, member, element, inside, rfl⟩
    exact ⟨member, rfl, inside.1, by dsimp only; omega, rfl⟩
  · rintro ⟨member, rfl, low, high, none⟩
    refine ⟨put.destination, member, put.element, ⟨low, by omega⟩, ?_⟩
    rw [← none]

@[simp] theorem setBlock_puts {pc : BlockPc V} :
    ((setBlock s p ℓ block pc).payloads.lanes p ℓ).puts = (s.payloads.lanes p ℓ).puts := by
  simp [setBlock, Payloads.setLane]

@[simp] theorem setBlock_blocks {pc : BlockPc V} :
    ((setBlock s p ℓ block pc).payloads.lanes p ℓ).blocks =
      Function.update (s.payloads.lanes p ℓ).blocks block pc := by
  simp [setBlock, Payloads.setLane]

@[simp] theorem issuePuts_puts {puts : List (PendingPut V)} :
    ((issuePuts s p ℓ block puts).payloads.lanes p ℓ).puts = (s.payloads.lanes p ℓ).puts ++ puts := by
  simp [issuePuts, Payloads.setLane]

@[simp] theorem issuePuts_blocks {puts : List (PendingPut V)} :
    ((issuePuts s p ℓ block puts).payloads.lanes p ℓ).blocks =
      Function.update (s.payloads.lanes p ℓ).blocks block .done := by
  simp [issuePuts, Payloads.setLane]

end Blocks

/-! ## Every step keeps the puts -/

section Steps

variable {T : Topology} {V : Type} {K : Kernels V} {s t : State V} {p ℓ : Nat}

/-- A lane only takes up or completes an execution where it waits to. -/
theorem LaneControl.execution {k k' : Control} (effect : LaneControl T k p ℓ k') :
    ((k'.lanes p ℓ).execution = (k.lanes p ℓ).execution ∧
        (k'.lanes p ℓ).lastLeaseSequence = (k.lanes p ℓ).lastLeaseSequence) ∨
      ((k.lanes p ℓ).pc = .awaitExecution ∧
        ((k'.lanes p ℓ).pc = .awaitPayloads ∨ (k'.lanes p ℓ).pc = .terminate .lane .protocolMismatch)) ∨
      ((k.lanes p ℓ).pc = .quietCompletion ∧ (k'.lanes p ℓ).pc = .awaitExecution) := by
  cases effect with
  | stay => exact .inl ⟨rfl, rfl⟩
  | move => simp [Control.setLane]
  | observe l stands _ _ _ _ selected =>
    refine .inr (.inl ⟨stands, ?_⟩)
    rcases selected with ⟨pc, -⟩ | ⟨pc, -⟩ <;> simp [Control.setLane, pc]
  | stage => simp [Control.setLane]
  | complete stands => simp [stands]

/-- A lane that starts to execute holds a lease until it completes it. -/
theorem LaneControl.leased {k k' : Control} (effect : LaneControl T k p ℓ k') (leased : (k.lanes p ℓ).leased)
    (busy : (k.lanes p ℓ).pc ≠ .awaitExecution) (unstaged : (k.lanes p ℓ).pc ≠ .quietCompletion) :
    (k'.lanes p ℓ).leased ∧ (k'.lanes p ℓ).execution = (k.lanes p ℓ).execution := by
  rcases effect.execution with ⟨execution, last⟩ | ⟨waits, -⟩ | ⟨stands, -⟩
  · refine ⟨?_, execution⟩
    unfold Lane.leased at leased ⊢
    rw [execution, last]
    exact leased
  · exact absurd waits busy
  · exact absurd stands unstaged

/-- One block of a delivery goes on; the others stay where they are. -/
theorem parted_update {e : LaneExecution} {blocks : Nat → BlockPc V} {block : Nat} {pc : BlockPc V}
    (parted : ∀ b, Parted T e p b (blocks b)) (here : Parted T e p block pc) :
    ∀ b, Parted T e p b (Function.update blocks block pc b) := by
  intro b
  by_cases same : b = block
  · subst same
    rw [Function.update_self]
    exact here
  · rw [Function.update_of_ne same]
    exact parted b

/-- One block goes on without a put. -/
theorem LanePuts.block (puts : LanePuts T s p ℓ) (isLane : T.isLane p ℓ) (leased : (s.control.lanes p ℓ).leased)
    (prepared : (s.control.lanes p ℓ).pc.prepared) {block : Nat} {pc : BlockPc V} (control : t.control = s.control)
    (same : (t.payloads.lanes p ℓ).puts = (s.payloads.lanes p ℓ).puts)
    (blocks : (t.payloads.lanes p ℓ).blocks = Function.update (s.payloads.lanes p ℓ).blocks block pc)
    (here : Parted T (s.control.lanes p ℓ).execution p block pc) : LanePuts T t p ℓ := by
  refine ⟨fun _ => ⟨isLane, by rw [control]; exact leased⟩, ?_, fun _ => ?_⟩
  · rw [same, control]
    exact puts.delivers
  · rw [blocks, control]
    exact parted_update (puts.parted prepared) here

/-- One block issues the puts of its part. -/
theorem LanePuts.issue (puts : LanePuts T s p ℓ) (isLane : T.isLane p ℓ) (leased : (s.control.lanes p ℓ).leased)
    (prepared : (s.control.lanes p ℓ).pc.prepared) {block : Nat} {destinations : List Nat} {source : Buffer}
    (bound : block < T.deliveryBlockCount)
    (addressed :
      ∀ destination ∈ destinations,
        (T.complete (s.control.lanes p ℓ).execution.key.instanceIndex
              (s.control.lanes p ℓ).execution.outputRequirement ∧
            destination ∈ T.completeDestinations (s.control.lanes p ℓ).execution) ∨
          (deliveryVariant (T.instanceEntry (s.control.lanes p ℓ).execution.key.instanceIndex)
                (s.control.lanes p ℓ).execution.outputRequirement = some .directPartial ∧
            destination =
              (T.atnagentPes (s.control.lanes p ℓ).execution.key.instanceIndex).getD
                ((T.executionPes (s.control.lanes p ℓ).execution).idxOf p) 0)) :
    LanePuts T
      (issuePuts s p ℓ block
        (blockPuts destinations source (T.blockPart (s.control.lanes p ℓ).execution p block).1
          (T.blockPart (s.control.lanes p ℓ).execution p block).2)) p ℓ := by
  refine ⟨fun _ => ⟨isLane, leased⟩, ?_, fun _ => ?_⟩
  · intro put member
    rw [issuePuts_puts, List.mem_append, mem_blockPuts] at member
    rcases member with old | ⟨destination, -, low, high, -⟩
    · exact puts.delivers put old
    · exact delivers_of_part bound low high (addressed _ destination)
  · rw [issuePuts_blocks]
    exact parted_update (puts.parted prepared) trivial

theorem LanePuts.lane (puts : LanePuts T s p ℓ) (taken : LaneTaken T K s p ℓ t) (isLane : T.isLane p ℓ)
    (book : LaneBook T s.control p ℓ) : LanePuts T t p ℓ := by
  have effect := taken.control
  by_cases elsewhere : ∀ direct, (s.control.lanes p ℓ).pc ≠ .deliver direct
  · obtain ⟨same, blocks⟩ := taken.undelivering elsewhere
    -- what is issued stays under its lease, which completes without puts
    have kept : (t.payloads.lanes p ℓ).puts ≠ [] →
        (t.control.lanes p ℓ).leased ∧ (t.control.lanes p ℓ).execution = (s.control.lanes p ℓ).execution := by
      intro some
      rw [same] at some
      apply effect.leased (puts.leased some).2
      · exact fun waits => book.waits waits (puts.leased some).2
      · exact fun stands => some (taken.quiet_of_completion stands)
    refine ⟨fun some => ⟨isLane, (kept some).1⟩, ?_, ?_⟩
    · intro put member
      rw [(kept (List.ne_nil_of_mem member)).2]
      exact puts.delivers put (same ▸ member)
    · intro prepared block
      rcases taken.prepared prepared with before | ⟨-, reset⟩
      · rcases blocks with unchanged | ⟨stands, -⟩
        · have execution : (t.control.lanes p ℓ).execution = (s.control.lanes p ℓ).execution := by
            rcases effect.execution with ⟨execution, -⟩ | ⟨waits, -⟩ | ⟨stands, -⟩
            · exact execution
            · simp [waits, LanePc.prepared] at before
            · simp [stands, LanePc.prepared] at before
          rw [unchanged, execution]
          exact puts.parted before block
        · simp [stands, LanePc.prepared] at before
      · rw [reset]
        trivial
  · obtain ⟨direct, stands⟩ := not_forall_not.mp elsewhere
    have leased := book.engaged (by simp [Lane.engaged, stands])
    have held := (book.held leased).2
    have parted := puts.parted (by rw [stands]; rfl)
    have aborted : LanePuts T (laneGoto s p ℓ .aborted) p ℓ := by
      refine ⟨fun _ => ⟨isLane, ?_⟩, ?_, ?_⟩
      · simpa [laneGoto, Control.setLane, Lane.leased] using leased
      · simpa [laneGoto, Control.setLane] using puts.delivers
      · simp [laneGoto, Control.setLane, LanePc.prepared]
    have prepared : (s.control.lanes p ℓ).pc.prepared := by rw [stands]; rfl
    cases taken with
    | directBlock block _ bound fresh =>
      rcases directBlockStep_cases held with eq | ⟨variant, eq⟩
      · rw [eq]
        exact aborted
      · rw [eq]
        refine puts.issue isLane leased prepared bound ?_
        intro destination member
        exact .inr ⟨variant, List.mem_singleton.mp member⟩
    | completeBlock block _ bound fresh =>
      rcases completeBlockStart_cases held with ⟨-, eq⟩ | eq | ⟨complete, eq⟩
      · rw [eq]
        exact puts.block isLane leased prepared rfl setBlock_puts setBlock_blocks trivial
      · rw [eq]
        exact aborted
      · rw [eq]
        refine puts.block isLane leased prepared rfl setBlock_puts setBlock_blocks ?_
        split
        · trivial
        · split <;> exact ⟨complete, rfl⟩
    | reduceBlock block first element stop partials _ _ bound reduces =>
      have here := parted block
      rw [reduces] at here
      rcases reduceStep_cases held with ⟨peer, -, -, eq⟩ | ⟨-, -, eq⟩ | ⟨-, eq⟩
      · rw [eq]
        exact puts.block isLane leased prepared rfl setBlock_puts setBlock_blocks here
      · rw [eq]
        exact puts.block isLane leased prepared rfl setBlock_puts setBlock_blocks here
      · rw [eq]
        exact puts.block isLane leased prepared rfl setBlock_puts setBlock_blocks here
    | putBlock block first stop _ _ bound reduced =>
      have here := parted block
      rw [reduced] at here
      obtain ⟨complete, part⟩ := here
      obtain ⟨rfl, rfl⟩ := Prod.mk.inj part
      rw [putBlockStep_eq held]
      exact puts.issue isLane leased prepared bound fun _ member => .inl ⟨complete, member⟩
    | delivered _ _ finished =>
      refine ⟨fun _ => ⟨isLane, ?_⟩, ?_, ?_⟩
      · simpa [laneGoto, Control.setLane, Lane.leased] using leased
      · simpa [laneGoto, Control.setLane] using puts.delivers
      · simp [laneGoto, Control.setLane, LanePc.prepared]
    | _ => simp_all

theorem LanePuts.frame (puts : LanePuts T s p ℓ) (control : t.control.lanes p ℓ = s.control.lanes p ℓ)
    (payloads : t.payloads.lanes p ℓ = s.payloads.lanes p ℓ) : LanePuts T t p ℓ := by
  refine ⟨?_, ?_, ?_⟩
  · rw [control, payloads]
    exact puts.leased
  · rw [control, payloads]
    exact puts.delivers
  · rw [control, payloads]
    exact puts.parted

/-- Advancing a put changes neither where it goes nor its lane. -/
theorem putStep_cases {q m index : Nat} {move : PutMove} (taken : putStep s q m index move = some t) :
    ∃ put, (s.payloads.lanes q m).puts[index]? = some put ∧
      ((put.value = none ∧
          t = { s with
            payloads :=
              s.payloads.setLane q m
                { s.payloads.lanes q m with
                  puts :=
                    (s.payloads.lanes q m).puts.set index
                      { put with value := some (s.payloads.memory q put.source m put.element) } } }) ∨
        ∃ value, put.value = some value ∧
          t = { s with
            payloads :=
              (s.payloads.write put.destination .one m put.element value).setLane q m
                { s.payloads.lanes q m with puts := (s.payloads.lanes q m).puts.eraseIdx index } }) := by
  simp only [putStep] at taken
  split at taken
  · next put found =>
    split at taken
    · next unread =>
      exact ⟨put, found, .inl ⟨by simpa using unread, (Option.some.inj taken).symm⟩⟩
    · cases taken
  · next put found =>
    obtain ⟨value, read, rfl⟩ := Option.map_eq_some_iff.mp taken
    exact ⟨put, found, .inr ⟨value, read, rfl⟩⟩
  · cases taken

theorem LanePuts.put (puts : LanePuts T s p ℓ) {q m index : Nat} {move : PutMove}
    (taken : putStep s q m index move = some t) : LanePuts T t p ℓ := by
  by_cases here : p = q ∧ ℓ = m
  · obtain ⟨rfl, rfl⟩ := here
    obtain ⟨put, found, ⟨-, rfl⟩ | ⟨value, -, rfl⟩⟩ := putStep_cases taken
    · have some : (s.payloads.lanes p ℓ).puts ≠ [] := List.ne_nil_of_mem (List.mem_of_getElem? found)
      refine ⟨fun _ => puts.leased some, ?_, ?_⟩
      · simp only [Payloads.setLane, update₂_same]
        intro put' member
        rcases List.mem_or_eq_of_mem_set member with old | rfl
        · exact puts.delivers put' old
        · exact puts.delivers put (List.mem_of_getElem? found)
      · simpa [Payloads.setLane] using puts.parted
    · have some : (s.payloads.lanes p ℓ).puts ≠ [] := List.ne_nil_of_mem (List.mem_of_getElem? found)
      refine ⟨fun _ => puts.leased some, ?_, ?_⟩
      · simp only [Payloads.setLane, update₂_same]
        exact fun put' member => puts.delivers put' (List.mem_of_mem_eraseIdx member)
      · simpa [Payloads.setLane] using puts.parted
  · obtain ⟨put, -, ⟨-, rfl⟩ | ⟨value, -, rfl⟩⟩ := putStep_cases taken
    · exact puts.frame rfl (update₂_of_ne _ _ here)
    · exact puts.frame rfl (update₂_of_ne _ _ here)

theorem LanePuts.next {event : Event V} (puts : ∀ p ℓ, LanePuts T s p ℓ) (established : Established T s.control)
    (taken : T.next K s event = some t) (p ℓ : Nat) : LanePuts T t p ℓ := by
  cases event with
  | coordinator =>
    exact (puts p ℓ).frame (by rw [(coordinatorStep_control taken).frame.lanes]) (by rw [coordinatorStep_payloads taken])
  | atnagent i r move =>
    simp only [Topology.next] at taken
    split at taken
    · have step := atnAgentMove_taken taken
      exact (puts p ℓ).frame (by rw [step.control.frame.lanes]) (by rw [step.frame.lanes])
    · cases taken
  | lane q m move =>
    simp only [Topology.next] at taken
    split at taken
    · next isLane =>
      have step := laneMove_taken taken
      by_cases here : p = q ∧ ℓ = m
      · obtain ⟨rfl, rfl⟩ := here
        exact (puts p ℓ).lane step isLane (established.leases.lane p ℓ isLane)
      · exact (puts p ℓ).frame (step.control.frame.lanes p ℓ here) (step.frame.lanes p ℓ here)
    · cases taken
  | publication destination slot delivery =>
    obtain ⟨⟨channel, written⟩, -, rfl⟩ := Option.map_eq_some_iff.mp taken
    exact (puts p ℓ).frame rfl rfl
  | payload destination slot delivery =>
    obtain ⟨⟨channel, written⟩, -, rfl⟩ := Option.map_eq_some_iff.mp taken
    cases written <;> exact (puts p ℓ).frame rfl rfl
  | failure destination delivery =>
    obtain ⟨⟨channel, written⟩, -, rfl⟩ := Option.map_eq_some_iff.mp taken
    exact (puts p ℓ).frame rfl rfl
  | put q m index move => exact (puts p ℓ).put taken
  | shutdown pe =>
    obtain rfl := Option.some.inj taken
    exact (puts p ℓ).frame rfl rfl

theorem reachable_puts {policy : PolicyState} (reached : (T.fabric K policy).Reachable s) (p ℓ : Nat) :
    LanePuts T s p ℓ := by
  refine @System.ReachableUnder.invariant _ _ _ _ (fun s => ∀ p ℓ, LanePuts T s p ℓ) ?_ ?_ _ reached p ℓ
  · rintro s ⟨memory, rfl⟩ p ℓ
    refine ⟨?_, ?_, ?_⟩
    all_goals simp [Topology.create, LanePc.prepared]
  · intro s event t reached puts _ taken
    exact LanePuts.next puts (reachable_established reached) taken

end Steps

end CrossPool.Fabric
