import CrossPool.Lib.Procedure
import CrossPool.Placement.Stages

/-!
# Worst cases

Before it builds its model the placement adds up the worst case of every quantity: each
layer of each class by all ranks, each shared resource once. It raises unless their sum is
a signed 64-bit integer. No placement charges an FfnAgent more than the worst case.
-/

namespace CrossPool.Placement

open FfnAgent (mib sint64Max ensureSint64Nonnegative ensureSint64Nonnegative_ok DeviceMemoryFeatures)
open Lib (bind_eq_ok)

/-! ## The pre-check -/

namespace Request

variable {ι : Type} [DecidableEq ι] (request : Request ι)

/-- `routing_capacities`, not sorted. -/
def routingCapacities : List Nat :=
  0 :: request.routerSignatures.map ExecutionSignature.routingElements

def maximumRoutingElements : Nat :=
  request.routingCapacities.max?.getD 0

/-- The `maximum_*` sums, by what they bound. -/
def maximumAmounts : StageAmounts :=
  let lanes : Int := request.ffnConcurrency
  let layerCount (layerClass : LayerClass (RankRow ι)) : Int := layerClass.layerIndices.length
  let rows (cost : RankRow ι → Int) : Int :=
    (request.classes.map fun layerClass => (layerClass.rankRows.map fun row => layerCount layerClass * cost row).sum).sum
  let signatures (cost : ExecutionSignature ι → Int) : Int := (request.allSignatures.map cost).sum
  let pairs (cost : ExecutionSignature ι → Int) : Int := (request.captureWeightPairKeys.map cost).sum
  let plans := request.contracts.map request.resources
  let denseSignatureCount : Int := (request.allSignatures.filter ExecutionSignature.isDense).length
  { weightBytes := rows fun row => row.weightBytes
    weightAllocations := rows fun row => row.allocationCount
    weightAllowance := rows fun row => row.allowance
    layerCount := (request.classes.map layerCount).sum
    capacityCount :=
      (request.classes.map fun layerClass =>
        layerCount layerClass * (layerClass.rankRows.map fun row => (row.signatures.length : Int)).foldl max 0).sum
    signatureCount := request.allSignatures.length
    captureBytes :=
      lanes * signatures (fun signature => signature.storageBytes.sum) +
        pairs fun key => key.controlCaptureProbeStorageBytes.sum
    captureAllocations :=
      lanes * signatures (fun signature => signature.storageBytes.length) +
        pairs fun key => key.controlCaptureProbeStorageBytes.length
    captureAllowance :=
      lanes * signatures (fun signature => signature.allowance) +
        pairs fun key => reservation key.controlCaptureProbeStorageBytes - key.controlCaptureProbeStorageBytes.sum
    poolBytes := lanes * (plans.map poolReservation).max?.getD 0
    resourceBytes :=
      (plans.map fun plan => (plan.map fun group => lanes * group.requirement.logicalExtentBoundBytes).sum).foldl max 0
    resourceAllocations :=
      (plans.map fun plan => (plan.map fun group => lanes * (group.requirement.requestBytes.length : Int)).sum).foldl max 0
    denseCaptureCount := lanes * denseSignatureCount
    moeCaptureCount := lanes * (request.allSignatures.length - denseSignatureCount) }

def maximumExactBytes : Int :=
  let maximum := request.maximumAmounts
  maximum.weightBytes + request.fabricArenaBytes + request.fabricObserverBytes + maximum.captureBytes + maximum.poolBytes +
    request.runtimeBytes maximum.layerCount maximum.capacityCount maximum.signatureCount true +
      request.routingBytes request.maximumRoutingElements

/-- The features of the worst case. -/
def maximumFeatures : Except String DeviceMemoryFeatures :=
  let maximum := request.maximumAmounts
  let denseSignatureCount : Int := (request.allSignatures.filter ExecutionSignature.isDense).length
  featuresOf (maximum.weightBytes + maximum.captureBytes + maximum.resourceBytes)
    (maximum.weightAllocations + maximum.captureAllocations + maximum.resourceAllocations) maximum.denseCaptureCount
    maximum.moeCaptureCount request.ffnConcurrency (request.ffnConcurrency * maximum.signatureCount)
    (denseSignatureCount ≠ 0) (request.allSignatures.length - denseSignatureCount ≠ 0) true

def maximumCalibratedOverhead : Except String Int :=
  match request.coefficients with
  | none => .ok 0
  | some coefficients => do coefficients.evaluate (← request.maximumFeatures)

/-- What the reservations, plans and tables check on their way to the solver. -/
def checkTables : Except String Unit := do
  let _ ← (request.prepared.models.flatMap fun model => model.layers.flatten).mapM fun layer =>
    allocatorReservationBytes layer.weightAllocationBytes
  let _ ← request.contracts.mapM fun contract => resourcePlan request.workspace contract request.allSignatures
  let _ ← request.allSignatures.mapM ExecutionSignature.graphCaptureAllocatorAllowanceBytes
  ensureSint64Nonnegative (request.routingCapacities.map Nat.cast)
  let _ ← request.captureWeightPairKeys.mapM fun key => allocatorReservationBytes key.controlCaptureProbeStorageBytes
  let _ ← (request.contracts.map request.resources).mapM capturePoolReservationBytes
  ensureSint64Nonnegative [request.maximumAmounts.layerCount, request.maximumAmounts.capacityCount,
    request.maximumAmounts.signatureCount]

/-- The bound on the stages, which is checked with the margin. -/
def preCheck : Except String Int := do
  request.checkTables
  let maximum := request.maximumAmounts
  let stageOverhead := maximum.weightAllowance + maximum.captureAllowance + (← request.maximumCalibratedOverhead)
  ensureSint64Nonnegative [request.maximumExactBytes, stageOverhead,
    request.maximumExactBytes + stageOverhead + request.extraMarginBytes]
  return request.maximumExactBytes + stageOverhead

end Request

theorem toInt_nonneg (marked : Bool) : 0 ≤ marked.toInt := by
  cases marked <;> decide

/-! ## Reservations cover their requests -/

theorem le_alignUp (value : Int) {alignment : Int} (positive : 0 < alignment) : value ≤ alignUp value alignment := by
  have above := Int.lt_ediv_add_one_mul_self (value + alignment - 1) positive
  rw [add_mul, one_mul] at above
  rw [alignUp]
  omega

theorem sum_le_segmentBytes (storage : List Int) : storage.sum ≤ segmentBytes storage := by
  have positive : 0 < mib := by decide
  have rounded : storage.sum ≤ (storage.map fun value => alignUp (max value 512) 512).sum := by
    conv_lhs => rw [← List.map_id storage]
    apply List.sum_le_sum
    intro value _
    exact (le_max_left value 512).trans (le_alignUp _ (by decide))
  rw [segmentBytes]
  apply rounded.trans
  split
  · next small => exact small.2
  · split
    · next medium => exact medium.2
    · conv_lhs => rw [← List.map_id (storage.map fun value => alignUp (max value 512) 512)]
      apply List.sum_le_sum
      intro value _
      rw [id_eq]
      split
      · omega
      · split
        · omega
        · exact le_alignUp value (by omega)

theorem sum_le_reservation (storage : List Int) : storage.sum ≤ reservation storage := by
  rw [reservation]
  split
  · next empty => rw [List.isEmpty_iff.mp empty, List.sum_nil]
  · exact sum_le_segmentBytes storage

/-- A reservation that does not raise is of requests that are no less than zero. -/
theorem allocatorReservationBytes_nonneg {storage : List Int} {reserved : Int}
    (returned : allocatorReservationBytes storage = .ok reserved) : ∀ value ∈ storage, 0 ≤ value := by
  rw [allocatorReservationBytes] at returned
  obtain ⟨_, checked, -⟩ := bind_eq_ok.mp returned
  intro value member
  exact (ensureSint64Nonnegative_ok.mp checked value member).1

theorem reservation_nonneg {storage : List Int} (nonneg : ∀ value ∈ storage, 0 ≤ value) : 0 ≤ reservation storage :=
  (List.sum_nonneg nonneg).trans (sum_le_reservation storage)

/-! ## What a placement assigns -/

section Assigned

variable {ι : Type} [DecidableEq ι] {request : Request ι} {placement : Nat → Nat → List Nat} {agent classIndex : Nat}
  {layerClass : LayerClass (RankRow ι)}

/-- A row of a class is what some rank prepares for a layer. -/
theorem exists_prepared (member : layerClass ∈ request.classes) {row : RankRow ι} (inside : row ∈ layerClass.rankRows) :
    ∃ model ∈ request.prepared.models, ∃ ranks ∈ model.layers, ∃ layer ∈ ranks, row = layer.row := by
  obtain ⟨model, owner, listed⟩ := mem_classes.mp member
  obtain ⟨prepared, there, rfl⟩ := List.mem_map.mp (List.mem_of_getElem? owner)
  have grouped := ModelLayers.mem_classes listed
  obtain ⟨layer, here⟩ := List.exists_mem_of_ne_nil _ (Lib.group_nonempty grouped)
  have small := ModelLayers.layer_lt listed here
  have rows := Lib.group_keyed grouped layer here
  rw [List.getD_eq_getElem _ _ small] at rows
  obtain ⟨ranks, among, same⟩ := List.mem_map.mp (List.getElem_mem small)
  rw [← rows, ← same] at inside
  obtain ⟨rank, within, rfl⟩ := List.mem_map.mp inside
  exact ⟨prepared, there, ranks, among, rank, within, rfl⟩

theorem Request.induces_nonneg (request : Request ι) (placement : Nat → Nat → List Nat) (agent classIndex rank : Nat) :
    0 ≤ request.induces placement agent classIndex rank := by
  rw [Request.induces]
  split
  · exact le_refl 0
  · exact Int.natCast_nonneg _

/-- No rank of a class is assigned more often than the class has layers. -/
theorem induces_le (listed : request.classes[classIndex]? = some layerClass) (rank : Nat) :
    request.induces placement agent classIndex rank ≤ layerClass.layerIndices.length := by
  rw [Request.induces, listed]
  change ((List.countP _ _ : Nat) : Int) ≤ _
  have most := List.countP_le_length (p := fun group : List Nat => group[rank]? == some agent)
    (l := layerClass.layerIndices.map (placement layerClass.modelIndex))
  rw [List.length_map] at most
  exact_mod_cast most

/-- The ranks of a class together are not either. -/
theorem sum_induces_le (placed' : request.Placed placement) (listed : request.classes[classIndex]? = some layerClass) :
    (layerClass.rankRows.zipIdx.map fun entry => request.induces placement agent classIndex entry.2).sum ≤
      layerClass.layerIndices.length := by
  obtain ⟨model, owner, member⟩ := mem_classes.mp (List.mem_of_getElem? listed)
  have groups := sum_placed (fun _ : RankRow ι => 1) layerClass.rankRows
    (layerClass.layerIndices.map (placement layerClass.modelIndex)) agent
  simp only [one_mul] at groups
  simp only [Request.induces, listed]
  rw [groups, List.map_map]
  change (request.prepared.models.map (ModelLayers.map PreparedLayer.row))[layerClass.modelIndex]? = some model at owner
  rw [List.getElem?_map, Option.map_eq_some_iff] at owner
  obtain ⟨prepared, there, rfl⟩ := owner
  have once : ∀ value ∈ layerClass.layerIndices.map
      ((fun group => atLayer (fun _ : RankRow ι => 1) layerClass.rankRows group agent) ∘ placement layerClass.modelIndex),
      value ≤ 1 := by
    intro value counted
    obtain ⟨layer, here, rfl⟩ := List.mem_map.mp counted
    have small : layer < (prepared.layers.map (List.map PreparedLayer.row)).length := ModelLayers.layer_lt member here
    rw [List.length_map] at small
    rw [Function.comp_apply, atLayer_eq _ _ (placed' _ prepared there layer small).distinct]
    cases if agent ∈ placement layerClass.modelIndex layer
      then layerClass.rankRows[(placement layerClass.modelIndex layer).idxOf agent]? else none with
    | none => exact Int.zero_le_ofNat 1
    | some row => exact le_refl 1
  have most := List.sum_le_card_nsmul _ 1 once
  rwa [List.length_map, nsmul_eq_mul, mul_one] at most

/-- Charges by row are at most those of every layer with every rank. -/
theorem overRows_mem {cost : RankRow ι → Int}
    (nonneg : ∀ layerClass ∈ request.classes, ∀ row ∈ layerClass.rankRows, 0 ≤ cost row) :
    overRows request.classes (request.induces placement agent) cost ∈
      Set.Icc 0 (request.classes.map fun layerClass =>
        (layerClass.rankRows.map fun row => (layerClass.layerIndices.length : Int) * cost row).sum).sum := by
  have rows : ∀ entry ∈ request.classes.zipIdx, ∀ row ∈ entry.1.rankRows.zipIdx,
      cost row.1 * request.induces placement agent entry.2 row.2 ∈
        Set.Icc 0 ((entry.1.layerIndices.length : Int) * cost row.1) := by
    intro entry member row inside
    have listed := List.mem_zipIdx_iff_getElem?.mp member
    have some' := nonneg entry.1 (List.mem_of_getElem? listed) row.1
      (List.mem_of_getElem? (List.mem_zipIdx_iff_getElem?.mp inside))
    constructor
    · exact mul_nonneg some' (request.induces_nonneg placement agent entry.2 row.2)
    · rw [mul_comm]
      exact mul_le_mul_of_nonneg_right (induces_le listed row.2) some'
  have whole : (request.classes.map fun layerClass =>
        (layerClass.rankRows.map fun row => (layerClass.layerIndices.length : Int) * cost row).sum).sum =
      (request.classes.zipIdx.map fun entry =>
        (entry.1.rankRows.zipIdx.map fun row => (entry.1.layerIndices.length : Int) * cost row.1).sum).sum := by
    conv_lhs => rw [← List.zipIdx_map_fst 0 request.classes, List.map_map]
    apply congrArg List.sum
    apply List.map_congr_left
    intro entry _
    rw [Function.comp_apply]
    conv_lhs => rw [← List.zipIdx_map_fst 0 entry.1.rankRows, List.map_map]
    rfl
  rw [whole]
  constructor
  · apply List.sum_nonneg
    intro value member
    obtain ⟨entry, listed, rfl⟩ := List.mem_map.mp member
    apply List.sum_nonneg
    intro value member
    obtain ⟨row, inside, rfl⟩ := List.mem_map.mp member
    exact (rows entry listed row inside).1
  · apply List.sum_le_sum
    intro entry listed
    exact List.sum_le_sum fun row inside => (rows entry listed row inside).2

/-- Charges by layer are at most those of every layer with its dearest rank. -/
theorem overRows_mem_most (agent : Nat) (cost : RankRow ι → Int) (most : LayerClass (RankRow ι) → Int)
    (placed' : request.Placed placement)
    (within : ∀ layerClass ∈ request.classes, 0 ≤ most layerClass ∧
      ∀ row ∈ layerClass.rankRows, cost row ∈ Set.Icc 0 (most layerClass)) :
    overRows request.classes (request.induces placement agent) cost ∈
      Set.Icc 0 (request.classes.map fun layerClass => (layerClass.layerIndices.length : Int) * most layerClass).sum := by
  constructor
  · exact (overRows_mem fun layerClass member row inside => ((within layerClass member).2 row inside).1).1
  have whole : (request.classes.map fun layerClass => (layerClass.layerIndices.length : Int) * most layerClass).sum =
      (request.classes.zipIdx.map fun entry => (entry.1.layerIndices.length : Int) * most entry.1).sum := by
    conv_lhs => rw [← List.zipIdx_map_fst 0 request.classes, List.map_map]
    rfl
  rw [whole]
  apply List.sum_le_sum
  intro entry member
  have listed := List.mem_zipIdx_iff_getElem?.mp member
  obtain ⟨some', dear⟩ := within entry.1 (List.mem_of_getElem? listed)
  calc
    (entry.1.rankRows.zipIdx.map fun row => cost row.1 * request.induces placement agent entry.2 row.2).sum ≤
        (entry.1.rankRows.zipIdx.map fun row => most entry.1 * request.induces placement agent entry.2 row.2).sum := by
      apply List.sum_le_sum
      intro row inside
      apply mul_le_mul_of_nonneg_right _ (request.induces_nonneg placement agent entry.2 row.2)
      exact (dear row.1 (List.mem_of_getElem? (List.mem_zipIdx_iff_getElem?.mp inside))).2
    _ = most entry.1 * (entry.1.rankRows.zipIdx.map fun row => request.induces placement agent entry.2 row.2).sum := by
      rw [List.sum_map_mul_left]
    _ ≤ most entry.1 * entry.1.layerIndices.length := mul_le_mul_of_nonneg_left (sum_induces_le placed' listed) some'
    _ = entry.1.layerIndices.length * most entry.1 := mul_comm _ _

end Assigned

section Present

theorem overPresent_mem {α : Type} {items : List α} {cost : α → Int} (nonneg : ∀ item ∈ items, 0 ≤ cost item)
    (present : Nat → Bool) : overPresent items present cost ∈ Set.Icc 0 (items.map cost).sum :=
  Lib.sum_zipIdx_present nonneg fun _ index => present index

theorem overGroups_mem (values : StageValues) {groups : List ExecutionResourceGroup} {cost : ExecutionResourceRequirement → Int}
    (nonneg : ∀ group ∈ groups, 0 ≤ cost group.requirement) :
    overGroups groups values cost ∈ Set.Icc 0 (groups.map fun group => cost group.requirement).sum :=
  Lib.sum_zipIdx_present nonneg fun group index => values.groupPresent group index

theorem le_foldl_max {items : List Int} {start item : Int} (member : item ∈ start :: items) : item ≤ items.foldl max start :=
  (List.max?_eq_some_iff.mp List.max?_cons').2 item member

end Present

/-! ## Every amount is within its worst case -/

/-- Amounts from zero to the given ones. -/
structure StageAmounts.Within (amounts maximum : StageAmounts) : Prop where
  weightBytes : amounts.weightBytes ∈ Set.Icc 0 maximum.weightBytes
  weightAllocations : amounts.weightAllocations ∈ Set.Icc 0 maximum.weightAllocations
  weightAllowance : amounts.weightAllowance ∈ Set.Icc 0 maximum.weightAllowance
  layerCount : amounts.layerCount ∈ Set.Icc 0 maximum.layerCount
  capacityCount : amounts.capacityCount ∈ Set.Icc 0 maximum.capacityCount
  signatureCount : amounts.signatureCount ∈ Set.Icc 0 maximum.signatureCount
  captureBytes : amounts.captureBytes ∈ Set.Icc 0 maximum.captureBytes
  captureAllocations : amounts.captureAllocations ∈ Set.Icc 0 maximum.captureAllocations
  captureAllowance : amounts.captureAllowance ∈ Set.Icc 0 maximum.captureAllowance
  poolBytes : amounts.poolBytes ∈ Set.Icc 0 maximum.poolBytes
  resourceBytes : amounts.resourceBytes ∈ Set.Icc 0 maximum.resourceBytes
  resourceAllocations : amounts.resourceAllocations ∈ Set.Icc 0 maximum.resourceAllocations
  denseCaptureCount : amounts.denseCaptureCount ∈ Set.Icc 0 maximum.denseCaptureCount
  moeCaptureCount : amounts.moeCaptureCount ∈ Set.Icc 0 maximum.moeCaptureCount

/-- What the checks before the solver leave of the prepared layers and signatures. -/
structure Request.Sized {ι : Type} [DecidableEq ι] (request : Request ι) : Prop where
  weights : ∀ model ∈ request.prepared.models, ∀ ranks ∈ model.layers, ∀ layer ∈ ranks,
    ∀ value ∈ layer.weightAllocationBytes, 0 ≤ value
  allowances : ∀ signature ∈ request.allSignatures, 0 ≤ signature.allowance
  probes : ∀ key ∈ request.captureWeightPairKeys, ∀ value ∈ key.controlCaptureProbeStorageBytes, 0 ≤ value
  requests : ∀ contract ∈ request.contracts, ∀ group ∈ request.resources contract,
    ∀ value ∈ group.requirement.requestBytes, 0 ≤ value
  extents : ∀ contract ∈ request.contracts, ∀ group ∈ request.resources contract,
    0 ≤ group.requirement.logicalExtentBoundBytes

section Sized

variable {ι : Type} [DecidableEq ι] {request : Request ι} {placement : Nat → Nat → List Nat}
  {contract : FfnExecutionContract}

omit [DecidableEq ι] in
theorem storageBytes_nonneg (signature : ExecutionSignature ι) : ∀ value ∈ signature.storageBytes, 0 ≤ value := by
  intro value member
  cases signature with
  | dense =>
    simp only [ExecutionSignature.storageBytes, List.mem_append, List.mem_cons, List.not_mem_nil, or_false] at member
    rcases member with (rfl | rfl) | rfl | rfl | rfl | rfl
    all_goals exact Int.natCast_nonneg _
  | moe itemsize rows hidden topk router =>
    simp only [ExecutionSignature.storageBytes, List.mem_append, List.mem_cons, List.not_mem_nil, or_false] at member
    rcases member with (((rfl | rfl) | routed) | rfl) | rfl | rfl | rfl | rfl
    any_goals exact Int.natCast_nonneg _
    split at routed
    · rw [List.mem_singleton.mp routed]
      decide
    · cases routed

theorem Request.Sized.amounts (sized : request.Sized) (placed' : request.Placed placement)
    (listed : contract ∈ request.contracts) (agent : Nat) (values : StageValues) :
    (request.amounts contract (request.induces placement agent) values).Within request.maximumAmounts := by
  have lanes : (0 : Int) ≤ request.ffnConcurrency := Int.natCast_nonneg _
  have rows : ∀ layerClass ∈ request.classes, ∀ row ∈ layerClass.rankRows,
      0 ≤ row.weightBytes ∧ 0 ≤ row.allocationCount ∧ 0 ≤ row.allowance := by
    intro layerClass member row inside
    obtain ⟨model, there, ranks, among, layer, here, rfl⟩ := exists_prepared member inside
    refine ⟨?_, ?_, ?_⟩
    · exact List.sum_nonneg (sized.weights model there ranks among layer here)
    · exact Int.natCast_nonneg _
    · exact sub_nonneg.mpr (sum_le_reservation _)
  have signatures (cost : ExecutionSignature ι → Int)
      (nonneg : ∀ signature ∈ request.allSignatures, 0 ≤ cost signature) :=
    overPresent_mem nonneg values.signaturePresent
  have pairs (cost : ExecutionSignature ι → Int) (nonneg : ∀ key ∈ request.captureWeightPairKeys, 0 ≤ cost key) :=
    overPresent_mem nonneg values.weightPairPresent
  have groups (cost : ExecutionResourceRequirement → Int)
      (nonneg : ∀ group ∈ request.resources contract, 0 ≤ cost group.requirement) :=
    overGroups_mem values nonneg
  constructor
  case weightBytes => exact overRows_mem fun layerClass member row inside => (rows layerClass member row inside).1
  case weightAllocations => exact overRows_mem fun layerClass member row inside => (rows layerClass member row inside).2.1
  case weightAllowance => exact overRows_mem fun layerClass member row inside => (rows layerClass member row inside).2.2
  case layerCount =>
    have most := overRows_mem_most agent (fun _ => 1) (fun _ => 1) placed'
      fun _ _ => ⟨by decide, fun _ _ => ⟨by decide, le_refl 1⟩⟩
    simp only [mul_one] at most
    exact most
  case capacityCount =>
    refine overRows_mem_most agent (fun row => row.signatures.length)
      (fun layerClass => (layerClass.rankRows.map fun row => (row.signatures.length : Int)).foldl max 0) placed' ?_
    intro layerClass _
    refine ⟨le_foldl_max List.mem_cons_self, ?_⟩
    intro row inside
    exact ⟨Int.natCast_nonneg _, le_foldl_max (List.mem_cons_of_mem _ (List.mem_map.mpr ⟨row, inside, rfl⟩))⟩
  case signatureCount =>
    have most := signatures (fun _ => 1) fun _ _ => by decide
    rw [List.map_const', List.sum_replicate, nsmul_eq_mul, mul_one] at most
    exact most
  case captureBytes =>
    have charged := signatures (fun signature => request.ffnConcurrency * signature.storageBytes.sum) fun signature _ =>
      mul_nonneg lanes (List.sum_nonneg (storageBytes_nonneg signature))
    rw [List.sum_map_mul_left] at charged
    have probed := pairs (fun key => key.controlCaptureProbeStorageBytes.sum) fun key member =>
      List.sum_nonneg (sized.probes key member)
    exact ⟨add_nonneg charged.1 probed.1, add_le_add charged.2 probed.2⟩
  case captureAllocations =>
    have charged := signatures (fun signature => request.ffnConcurrency * signature.storageBytes.length) fun signature _ =>
      mul_nonneg lanes (Int.natCast_nonneg _)
    rw [List.sum_map_mul_left] at charged
    have probed := pairs (fun key => key.controlCaptureProbeStorageBytes.length) fun _ _ => Int.natCast_nonneg _
    exact ⟨add_nonneg charged.1 probed.1, add_le_add charged.2 probed.2⟩
  case captureAllowance =>
    have charged := signatures (fun signature => request.ffnConcurrency * signature.allowance) fun signature member =>
      mul_nonneg lanes (sized.allowances signature member)
    rw [List.sum_map_mul_left] at charged
    have probed := pairs (fun key => reservation key.controlCaptureProbeStorageBytes - key.controlCaptureProbeStorageBytes.sum)
      fun _ _ => sub_nonneg.mpr (sum_le_reservation _)
    exact ⟨add_nonneg charged.1 probed.1, add_le_add charged.2 probed.2⟩
  case poolBytes =>
    have charged := groups (fun requirement => request.ffnConcurrency * reservation requirement.requestBytes)
      fun group member => mul_nonneg lanes (reservation_nonneg (sized.requests contract listed group member))
    rw [List.sum_map_mul_left] at charged
    refine ⟨charged.1, charged.2.trans (mul_le_mul_of_nonneg_left ?_ lanes)⟩
    have plan : poolReservation (request.resources contract) ∈ (request.contracts.map request.resources).map poolReservation :=
      List.mem_map.mpr ⟨_, List.mem_map.mpr ⟨contract, listed, rfl⟩, rfl⟩
    exact (List.max?_eq_some_iff.mp (max?_getD_of_ne_nil (List.ne_nil_of_mem plan) 0)).2 _ plan
  case resourceBytes =>
    have charged := groups (fun requirement => request.ffnConcurrency * requirement.logicalExtentBoundBytes)
      fun group member => mul_nonneg lanes (sized.extents contract listed group member)
    refine ⟨charged.1, charged.2.trans (le_foldl_max (List.mem_cons_of_mem _ ?_))⟩
    exact List.mem_map.mpr ⟨_, List.mem_map.mpr ⟨contract, listed, rfl⟩, rfl⟩
  case resourceAllocations =>
    have charged := groups (fun requirement => request.ffnConcurrency * (requirement.requestBytes.length : Int))
      fun _ _ => mul_nonneg lanes (Int.natCast_nonneg _)
    refine ⟨charged.1, charged.2.trans (le_foldl_max (List.mem_cons_of_mem _ ?_))⟩
    exact List.mem_map.mpr ⟨_, List.mem_map.mpr ⟨contract, listed, rfl⟩, rfl⟩
  case denseCaptureCount =>
    have counted := signatures (fun signature => signature.isDense.toInt) fun _ _ => toInt_nonneg _
    rw [(sum_dense request.allSignatures).1] at counted
    exact ⟨mul_nonneg lanes counted.1, mul_le_mul_of_nonneg_left counted.2 lanes⟩
  case moeCaptureCount =>
    have counted := signatures (fun signature => (!signature.isDense).toInt) fun _ _ => toInt_nonneg _
    rw [(sum_dense request.allSignatures).2] at counted
    exact ⟨mul_nonneg lanes counted.1, mul_le_mul_of_nonneg_left counted.2 lanes⟩

end Sized

/-! ## Every stage is within the bound -/

section Bound

variable {ι : Type} [DecidableEq ι] {request : Request ι} {contract : FfnExecutionContract} {assigned : Nat → Nat → Int}
  {values : StageValues} {agent : Nat} {amounts : StageAmounts}

/-- What is known of a request where the placement is solved. The sizes of the native
library are those of its layouts: a Coordinator's control has an activation count like
every other FfnAgent's, and more routing elements take no less. -/
structure Request.Accepted {ι : Type} (request : Request ι) : Prop where
  layered : ∀ model ∈ request.prepared.models, model.layers ≠ []
  extents : ∀ contract ∈ request.contracts, ∀ declaration ∈ contract.laneResources,
    0 ≤ declaration.requirement.logicalExtentBoundBytes
  coefficients : ∀ coefficients, request.coefficients = some coefficients →
    ensureSint64Nonnegative (List.ofFn coefficients.values) = .ok ()
  control : 4 ≤ request.coordinatorControlBytes
  routing : Monotone request.routingLayoutBytes

omit [DecidableEq ι] in
theorem runtimeBytes_mem (accepted : request.Accepted) {maximum : StageAmounts} (within : amounts.Within maximum)
    (coordinator : Bool) : request.runtimeBytes amounts.layerCount amounts.capacityCount amounts.signatureCount coordinator ∈
      Set.Icc 0 (request.runtimeBytes maximum.layerCount maximum.capacityCount maximum.signatureCount true) := by
  have control : request.controlAllocationBytes coordinator ∈ Set.Icc 0 (request.controlAllocationBytes true) := by
    have activation : (4 : Int) ≤ request.coordinatorControlBytes := by exact_mod_cast accepted.control
    cases coordinator with
    | false => exact ⟨Int.natCast_nonneg 4, activation⟩
    | true => exact ⟨Int.natCast_nonneg _, le_refl _⟩
  have lanes : (0 : Int) ≤ request.ffnConcurrency := Int.natCast_nonneg _
  have layers := mul_le_mul_of_nonneg_right within.layerCount.2 (Int.natCast_nonneg request.layerEntryBytes)
  have capacities := mul_le_mul_of_nonneg_right within.capacityCount.2 (Int.natCast_nonneg request.capacityEntryBytes)
  have schemas := mul_le_mul_of_nonneg_right (mul_le_mul_of_nonneg_left within.signatureCount.2 lanes)
    (Int.natCast_nonneg request.bindingSchemaBytes)
  have layers' := mul_nonneg within.layerCount.1 (Int.natCast_nonneg request.layerEntryBytes)
  have capacities' := mul_nonneg within.capacityCount.1 (Int.natCast_nonneg request.capacityEntryBytes)
  have schemas' := mul_nonneg (mul_nonneg lanes within.signatureCount.1) (Int.natCast_nonneg request.bindingSchemaBytes)
  have states := mul_nonneg lanes (Int.natCast_nonneg request.laneStateBytes)
  simp only [Request.runtimeBytes, Request.executionStateAllocationBytes]
  constructor
  · linarith [control.1]
  · linarith [control.2]

omit [DecidableEq ι] in
theorem routingBytes_nonneg (elements : Nat) : 0 ≤ request.routingBytes elements := by
  rw [Request.routingBytes]
  split
  · exact le_refl 0
  · exact Int.natCast_nonneg _

omit [DecidableEq ι] in
/-- More routing elements take no less. -/
theorem routingBytes_mono (accepted : request.Accepted) {elements others : Nat} (fewer : elements ≤ others) :
    request.routingBytes elements ≤ request.routingBytes others := by
  by_cases silent : (!request.routingObserver || elements = 0) = true
  · have none : request.routingBytes elements = 0 := by rw [Request.routingBytes, if_pos silent]
    rw [none]
    exact routingBytes_nonneg others
  · have loud : ¬(!request.routingObserver || others = 0) = true := by
      simp only [Bool.or_eq_true, Bool.not_eq_true', decide_eq_true_eq, not_or] at silent ⊢
      exact ⟨silent.1, by omega⟩
    rw [Request.routingBytes, Request.routingBytes, if_neg silent, if_neg loud]
    exact_mod_cast accepted.routing fewer

/-- The routing elements of an FfnAgent are those of a router, or none. -/
theorem routingElements_le (defined : request.StageDefined contract assigned values agent)
    (observes : request.observesRouting = true) : values.routingElements ≤ request.maximumRoutingElements := by
  obtain ⟨widest, table⟩ := defined.routing observes
  obtain ⟨elements, listed, here⟩ := List.mem_map.mp table
  obtain ⟨rfl, -⟩ := Prod.mk.inj here
  exact (List.max?_eq_some_iff.mp (max?_getD_of_ne_nil (List.cons_ne_nil _ _) 0)).2 _ listed

theorem routingRecordBufferBytes_mem (accepted : request.Accepted)
    (defined : request.StageDefined contract assigned values agent) (observes : request.observesRouting = true) :
    values.routingRecordBufferBytes ∈ Set.Icc 0 (request.routingBytes request.maximumRoutingElements) := by
  obtain ⟨-, table⟩ := defined.routing observes
  obtain ⟨elements, listed, here⟩ := List.mem_map.mp table
  obtain ⟨same, bytes⟩ := Prod.mk.inj here
  rw [← bytes]
  refine ⟨routingBytes_nonneg elements, routingBytes_mono accepted ?_⟩
  rw [same]
  exact routingElements_le defined observes

/-- No stage's physical bytes exceed the exact bytes of the worst case with its allowances. -/
theorem physicalCost_mem (accepted : request.Accepted) (defined : request.StageDefined contract assigned values agent)
    (within : (request.amounts contract assigned values).Within request.maximumAmounts) (coordinator : Bool)
    (point : StartupPoint) : request.physicalCost contract assigned values coordinator point ∈
      Set.Icc 0 (request.maximumExactBytes + request.maximumAmounts.weightAllowance +
        request.maximumAmounts.captureAllowance) := by
  have runtime := runtimeBytes_mem accepted within coordinator
  rw [← runtimeExpression_eq (request.amounts contract assigned values)] at runtime
  have routing : (if request.observesRouting then values.routingRecordBufferBytes else 0) ∈
      Set.Icc 0 (request.routingBytes request.maximumRoutingElements) := by
    split
    · next observes => exact routingRecordBufferBytes_mem accepted defined observes
    · exact ⟨le_refl 0, routingBytes_nonneg _⟩
  obtain ⟨weight, weight'⟩ := within.weightBytes
  obtain ⟨allowance, allowance'⟩ := within.weightAllowance
  obtain ⟨capture, capture'⟩ := within.captureBytes
  obtain ⟨initial, initial'⟩ := within.captureAllowance
  obtain ⟨pool, pool'⟩ := within.poolBytes
  obtain ⟨run, run'⟩ := runtime
  obtain ⟨route, route'⟩ := routing
  have arena := Int.natCast_nonneg request.fabricArenaBytes
  have observer := Int.natCast_nonneg request.fabricObserverBytes
  simp only [Request.physicalCost, Request.maximumExactBytes, Request.fabricJoinBytes]
  cases point with
  | weightMaterialization => constructor <;> dsimp only <;> linarith
  | fabricJoin => constructor <;> dsimp only <;> linarith
  | graphCapture => constructor <;> dsimp only <;> linarith
  | executionInstallation => constructor <;> dsimp only <;> linarith
  | retained => constructor <;> dsimp only <;> linarith

/-! ## Calibrated overheads -/

theorem mibOf_nonneg {bytes : Int} (nonneg : 0 ≤ bytes) : 0 ≤ mibOf bytes := by
  rw [mibOf]
  simp only [mib]
  omega

theorem mibOf_mono {bytes others : Int} (fewer : bytes ≤ others) : mibOf bytes ≤ mibOf others := by
  rw [mibOf, mibOf]
  simp only [mib]
  omega

theorem covers_eq {bytes mibs : Int} (covers : Request.CoversMib bytes mibs) : mibs = mibOf bytes := by
  rw [coversMib_eq covers, Int.mul_ediv_cancel _ (by decide)]
  rfl

omit [DecidableEq ι] in
/-- The overhead grows with the calibration values. -/
theorem overheadOf_mem (accepted : request.Accepted) {features maximum : Fin 10 → Int}
    (each : ∀ i, features i ∈ Set.Icc 0 (maximum i)) :
    request.overheadOf features ∈ Set.Icc 0 (request.overheadOf maximum) := by
  rw [Request.overheadOf, Request.overheadOf]
  cases calibrated : request.coefficients with
  | none => exact ⟨le_refl 0, le_refl 0⟩
  | some coefficients =>
    have checked := ensureSint64Nonnegative_ok.mp (accepted.coefficients coefficients calibrated)
    have nonneg (i : Fin 10) : 0 ≤ coefficients.values i := (checked _ (List.mem_ofFn.mpr ⟨i, rfl⟩)).1
    constructor
    · exact Finset.sum_nonneg fun i _ => mul_nonneg (nonneg i) (each i).1
    · exact Finset.sum_le_sum fun i _ => mul_le_mul_of_nonneg_left (each i).2 (nonneg i)

/-- The calibration values of the worst case. -/
def Request.maximumValues (request : Request ι) : Fin 10 → Int :=
  let maximum := request.maximumAmounts
  let denseSignatureCount : Int := (request.allSignatures.filter ExecutionSignature.isDense).length
  ![1, mibOf (maximum.weightBytes + maximum.captureBytes + maximum.resourceBytes),
    maximum.weightAllocations + maximum.captureAllocations + maximum.resourceAllocations, maximum.denseCaptureCount,
    maximum.moeCaptureCount, request.ffnConcurrency, request.ffnConcurrency * maximum.signatureCount,
    (decide (denseSignatureCount ≠ 0)).toInt, (decide (request.allSignatures.length - denseSignatureCount ≠ 0)).toInt, 1]

theorem maximumCalibratedOverhead_ok {overhead : Int} (returned : request.maximumCalibratedOverhead = .ok overhead) :
    overhead = request.overheadOf request.maximumValues := by
  rw [Request.maximumCalibratedOverhead] at returned
  rw [Request.overheadOf]
  cases calibrated : request.coefficients with
  | none =>
    rw [calibrated] at returned
    exact (Except.ok.inj returned).symm
  | some coefficients =>
    rw [calibrated] at returned
    obtain ⟨features, made, returned⟩ := bind_eq_ok.mp returned
    obtain ⟨_, _, returned⟩ := bind_eq_ok.mp returned
    rw [← Except.ok.inj returned]
    change ∑ i, coefficients.values i * features.calibrationValues i = _
    rw [featuresOf_ok made, Int.mul_ediv_cancel _ (by decide)]
    rfl

/-- A mark that some signature has counts where the signatures that may have it are some. -/
theorem toInt_le_present {marked : Bool} {count : Int} (counted : marked = true → count ≠ 0) :
    marked.toInt ∈ Set.Icc 0 (decide (count ≠ 0)).toInt := by
  refine ⟨toInt_nonneg marked, ?_⟩
  cases marked with
  | false => exact toInt_nonneg _
  | true =>
    rw [decide_eq_true (counted rfl)]

theorem densePresent_mem (defined : request.StageDefined contract assigned values agent) :
    values.densePresent.toInt ∈
      Set.Icc 0 (decide (((request.allSignatures.filter ExecutionSignature.isDense).length : Int) ≠ 0)).toInt := by
  apply toInt_le_present
  intro present
  rw [defined.dense] at present
  obtain ⟨entry, member, both⟩ := List.any_eq_true.mp present
  rw [Bool.and_eq_true] at both
  have listed := List.mem_filter.mpr ⟨List.mem_of_getElem? (List.mem_zipIdx_iff_getElem?.mp member), both.1⟩
  have some' := List.length_pos_of_mem listed
  omega

theorem moePresent_mem (defined : request.StageDefined contract assigned values agent) :
    values.moePresent.toInt ∈
      Set.Icc 0 (decide (request.allSignatures.length -
        ((request.allSignatures.filter ExecutionSignature.isDense).length : Int) ≠ 0)).toInt := by
  apply toInt_le_present
  intro present
  rw [defined.moe] at present
  obtain ⟨entry, member, both⟩ := List.any_eq_true.mp present
  rw [Bool.and_eq_true, Bool.not_eq_true'] at both
  have fewer : (request.allSignatures.filter ExecutionSignature.isDense).length < request.allSignatures.length := by
    apply List.length_filter_lt_length_iff_exists.mpr
    exact ⟨entry.1, List.mem_of_getElem? (List.mem_zipIdx_iff_getElem?.mp member), by rw [both.1]; decide⟩
  omega

/-- Calibration values, each from zero to that of the worst case. -/
theorem maximumValues_mem {storageMib allocations denseCount moeCount lanes branches dense moe joined : Int}
    (storage : storageMib ∈ Set.Icc 0 (mibOf (request.maximumAmounts.weightBytes + request.maximumAmounts.captureBytes +
      request.maximumAmounts.resourceBytes)))
    (allocated : allocations ∈ Set.Icc 0 (request.maximumAmounts.weightAllocations +
      request.maximumAmounts.captureAllocations + request.maximumAmounts.resourceAllocations))
    (denseCaptures : denseCount ∈ Set.Icc 0 request.maximumAmounts.denseCaptureCount)
    (moeCaptures : moeCount ∈ Set.Icc 0 request.maximumAmounts.moeCaptureCount)
    (executors : lanes ∈ Set.Icc 0 (request.ffnConcurrency : Int))
    (branched : branches ∈ Set.Icc 0 (request.ffnConcurrency * request.maximumAmounts.signatureCount))
    (densePresent : dense ∈
      Set.Icc 0 (decide (((request.allSignatures.filter ExecutionSignature.isDense).length : Int) ≠ 0)).toInt)
    (moePresent : moe ∈ Set.Icc 0 (decide (request.allSignatures.length -
      ((request.allSignatures.filter ExecutionSignature.isDense).length : Int) ≠ 0)).toInt)
    (join : joined ∈ Set.Icc (0 : Int) 1) (i : Fin 10) :
    ![1, storageMib, allocations, denseCount, moeCount, lanes, branches, dense, moe, joined] i ∈
      Set.Icc 0 (request.maximumValues i) := by
  revert i
  simp only [Fin.forall_fin_succ, Request.maximumValues, Matrix.cons_val_zero, Matrix.cons_val_succ]
  exact ⟨⟨by decide, le_refl 1⟩, storage, allocated, denseCaptures, moeCaptures, executors, branched, densePresent,
    moePresent, join, fun i => i.elim0⟩

/-- No stage's overhead exceeds that of the worst case. -/
theorem overheadCost_mem (accepted : request.Accepted) (defined : request.StageDefined contract assigned values agent)
    (within : (request.amounts contract assigned values).Within request.maximumAmounts) (point : StartupPoint) :
    request.overheadCost contract assigned values point ∈ Set.Icc 0 (request.overheadOf request.maximumValues) := by
  have lanes : (request.ffnConcurrency : Int) ≠ 0 := by
    have positive := request.concurrent
    omega
  have lanes' : (0 : Int) ≤ request.ffnConcurrency := Int.natCast_nonneg _
  have dense := densePresent_mem defined
  have moe := moePresent_mem defined
  obtain ⟨weight, weight'⟩ := within.weightBytes
  obtain ⟨resource, resource'⟩ := within.resourceBytes
  obtain ⟨capture, capture'⟩ := within.captureBytes
  obtain ⟨weights, weights'⟩ := within.weightAllocations
  obtain ⟨resources, resources'⟩ := within.resourceAllocations
  obtain ⟨captures, captures'⟩ := within.captureAllocations
  have denseCount := within.denseCaptureCount
  have moeCount := within.moeCaptureCount
  have branches : request.ffnConcurrency * (request.amounts contract assigned values).signatureCount ∈
      Set.Icc 0 (request.ffnConcurrency * request.maximumAmounts.signatureCount) :=
    ⟨mul_nonneg lanes' within.signatureCount.1, mul_le_mul_of_nonneg_left within.signatureCount.2 lanes'⟩
  have mibs {bytes mibs : Int} (covers : Request.CoversMib bytes mibs) (nonneg : 0 ≤ bytes)
      (fewer : bytes ≤ request.maximumAmounts.weightBytes + request.maximumAmounts.captureBytes +
        request.maximumAmounts.resourceBytes) :
      mibs ∈ Set.Icc 0 (mibOf (request.maximumAmounts.weightBytes + request.maximumAmounts.captureBytes +
        request.maximumAmounts.resourceBytes)) := by
    rw [covers_eq covers]
    exact ⟨mibOf_nonneg nonneg, mibOf_mono fewer⟩
  have packed := mibs defined.packed weight (by linarith)
  have retained := mibs defined.retained (by linarith) (by linarith)
  have captured := mibs defined.captured (by linarith) (by linarith)
  have allocations : 0 ≤ request.maximumAmounts.weightAllocations + request.maximumAmounts.captureAllocations +
      request.maximumAmounts.resourceAllocations := by linarith
  have none {most : Int} (nonneg : 0 ≤ most) : 0 ∈ Set.Icc 0 most := ⟨le_refl 0, nonneg⟩
  have noDense := none (dense.1.trans dense.2)
  have noMoe := none (moe.1.trans moe.2)
  have noDenseCount := none (denseCount.1.trans denseCount.2)
  have noMoeCount := none (moeCount.1.trans moeCount.2)
  have packs : (request.amounts contract assigned values).weightAllocations ∈ Set.Icc 0
      (request.maximumAmounts.weightAllocations + request.maximumAmounts.captureAllocations +
        request.maximumAmounts.resourceAllocations) := ⟨weights, by linarith⟩
  have one : (1 : Int) ∈ Set.Icc 0 1 := ⟨by decide, le_refl 1⟩
  simp only [Request.overheadCost, calibratedOverhead_eq, ne_eq, lanes, not_true_eq_false, not_false_eq_true, if_true,
    if_false]
  cases point with
  | weightMaterialization =>
    exact overheadOf_mem accepted (maximumValues_mem packed packs noDenseCount noMoeCount (none lanes')
      (none (branches.1.trans branches.2)) noDense noMoe (none (by decide)))
  | fabricJoin =>
    exact overheadOf_mem accepted (maximumValues_mem packed packs noDenseCount noMoeCount (none lanes')
      (none (branches.1.trans branches.2)) noDense noMoe one)
  | graphCapture | executionInstallation =>
    exact overheadOf_mem accepted (maximumValues_mem captured ⟨by linarith, by linarith⟩ denseCount moeCount
      ⟨lanes', le_refl _⟩ branches dense moe one)
  | retained =>
    exact overheadOf_mem accepted (maximumValues_mem retained ⟨by linarith, by linarith⟩ noDenseCount noMoeCount
      ⟨lanes', le_refl _⟩ branches dense moe one)

/-- The tables that are made without raising have sizes no less than zero. -/
theorem Request.Accepted.sized (accepted : request.Accepted) (checked : request.checkTables = .ok ()) : request.Sized := by
  rw [Request.checkTables] at checked
  obtain ⟨_, weighed, checked⟩ := bind_eq_ok.mp checked
  obtain ⟨_, planned, checked⟩ := bind_eq_ok.mp checked
  obtain ⟨_, allowed, checked⟩ := bind_eq_ok.mp checked
  obtain ⟨_, _, checked⟩ := bind_eq_ok.mp checked
  obtain ⟨_, probed, checked⟩ := bind_eq_ok.mp checked
  obtain ⟨_, pooled, -⟩ := bind_eq_ok.mp checked
  constructor
  case weights =>
    intro model member ranks among layer here
    have prepared : layer ∈ request.prepared.models.flatMap fun model => model.layers.flatten :=
      List.mem_flatMap.mpr ⟨model, member, List.mem_flatten.mpr ⟨ranks, among, here⟩⟩
    obtain ⟨_, -, returned⟩ := Lib.exists_mem_of_mapM weighed prepared
    exact allocatorReservationBytes_nonneg returned
  case allowances =>
    intro signature member
    obtain ⟨_, -, returned⟩ := Lib.exists_mem_of_mapM allowed member
    have known := graphCaptureAllocatorAllowanceBytes_ok returned
    rw [ExecutionSignature.graphCaptureAllocatorAllowanceBytes] at returned
    obtain ⟨_, _, returned⟩ := bind_eq_ok.mp returned
    obtain ⟨_, fine, returned⟩ := bind_eq_ok.mp returned
    rw [← known, ← Except.ok.inj returned]
    exact (ensureSint64Nonnegative_ok.mp fine _ List.mem_cons_self).1
  case probes =>
    intro key member
    obtain ⟨_, -, returned⟩ := Lib.exists_mem_of_mapM probed member
    exact allocatorReservationBytes_nonneg returned
  case requests =>
    intro contract member group inside
    obtain ⟨_, -, returned⟩ := Lib.exists_mem_of_mapM pooled (List.mem_map.mpr ⟨contract, member, rfl⟩)
    rw [capturePoolReservationBytes] at returned
    obtain ⟨_, reserved, -⟩ := bind_eq_ok.mp returned
    obtain ⟨_, -, returned⟩ := Lib.exists_mem_of_mapM reserved inside
    exact allocatorReservationBytes_nonneg returned
  case extents =>
    intro contract member group inside
    obtain ⟨_, -, returned⟩ := Lib.exists_mem_of_mapM planned member
    rw [resourcePlan] at returned
    obtain ⟨_, workspaces, -⟩ := bind_eq_ok.mp returned
    rcases List.mem_append.mp inside with computed | declared
    · obtain ⟨⟨signature, index⟩, listed, rfl⟩ := List.mem_map.mp computed
      have there := List.mem_of_getElem? (List.mem_zipIdx_iff_getElem?.mp listed)
      obtain ⟨_, fine, -⟩ := bind_eq_ok.mp (Lib.forM_eq_ok.mp workspaces signature there)
      exact (ensureSint64Nonnegative_ok.mp fine _ List.mem_cons_self).1
    · obtain ⟨declaration, listed, rfl⟩ := List.mem_map.mp declared
      exact accepted.extents contract member declaration (List.mem_filter.mp listed).1

/-- A pre-check that passes leaves sizes, and a bound that has room for the margin. -/
theorem Request.Accepted.preCheck (accepted : request.Accepted) {bound : Int} (passed : request.preCheck = .ok bound) :
    request.Sized ∧ bound + request.extraMarginBytes ≤ sint64Max ∧
      bound = request.maximumExactBytes + (request.maximumAmounts.weightAllowance + request.maximumAmounts.captureAllowance +
        request.overheadOf request.maximumValues) := by
  rw [Request.preCheck] at passed
  obtain ⟨_, tables, passed⟩ := bind_eq_ok.mp passed
  obtain ⟨overhead, calibrated, passed⟩ := bind_eq_ok.mp passed
  obtain ⟨_, checked, passed⟩ := bind_eq_ok.mp passed
  rw [maximumCalibratedOverhead_ok calibrated] at checked passed
  have same := (Except.ok.inj passed).symm
  refine ⟨accepted.sized tables, ?_, same⟩
  rw [same]
  exact (ensureSint64Nonnegative_ok.mp checked _ (by simp)).2

/-- No stage exceeds the bound. -/
theorem stageExpression_mem (accepted : request.Accepted) {bound : Int} (passed : request.preCheck = .ok bound)
    (defined : request.StageDefined contract assigned values agent)
    (within : (request.amounts contract assigned values).Within request.maximumAmounts) (coordinator : Bool)
    (point : StartupPoint) : request.stageExpression contract assigned values coordinator point ∈ Set.Icc 0 bound := by
  obtain ⟨-, -, rfl⟩ := accepted.preCheck passed
  have physical := physicalCost_mem accepted defined within coordinator point
  have overhead := overheadCost_mem accepted defined within point
  rw [Request.stageExpression]
  constructor
  · exact add_nonneg physical.1 overhead.1
  · linarith [physical.2, overhead.2]

end Bound

end CrossPool.Placement
