import CrossPool.Lib.Tally
import CrossPool.Placement.Memory

/-!
# What a placement charges

What the solver counts by class and rank is, at the counts of a placement, a sum over the
layers that an FfnAgent holds; what layers share is present where some layer of the
FfnAgent has it. So every linear expression of the solver is a sum over those layers.
-/

namespace CrossPool.Placement

open FfnAgent (mib ensureSint64Nonnegative DeviceMemoryFeatures DeviceMemoryPoint FfnMemoryCalibrationCoefficients)
open Lib (bind_eq_ok sum_zipIdx_single)

/-! ## Charges by layer -/

section Rows

variable {ι : Type} {agent ffnagentCount tpSize : Nat} {group : List Nat}

/-- What one layer's group charges an FfnAgent. -/
def atLayer (cost : RankRow ι → Int) (rows : List (RankRow ι)) (group : List Nat) (agent : Nat) : Int :=
  (rows.zipIdx.map fun entry => cost entry.1 * if group[entry.2]? = some agent then 1 else 0).sum

/-- The agent's rank in the group is the only one that is charged. -/
theorem atLayer_eq (cost : RankRow ι → Int) (rows : List (RankRow ι)) (distinct : group.Nodup) :
    atLayer cost rows group agent = (if agent ∈ group then rows[group.idxOf agent]? else none).elim 0 cost := by
  split
  · next member =>
    rw [← sum_zipIdx_single rows cost 0]
    rw [atLayer]
    apply congrArg List.sum
    apply List.map_congr_left
    intro entry _
    have inside := List.idxOf_lt_length_of_mem member
    have here : group[entry.2]? = some agent ↔ entry.2 = 0 + group.idxOf agent := by
      rw [Nat.zero_add]
      constructor
      · intro there
        have there' : group[group.idxOf agent]? = some agent := List.getElem?_idxOf member
        exact (List.getElem?_inj (List.getElem?_eq_some_iff.mp there).1 distinct).mp (there.trans there'.symm)
      · rintro same
        rw [same]
        exact List.getElem?_idxOf member
    simp only [here]
  · next absent =>
    apply List.sum_eq_zero
    intro value listed
    obtain ⟨entry, -, rfl⟩ := List.mem_map.mp listed
    have elsewhere : group[entry.2]? ≠ some agent := fun there => absent (List.mem_of_getElem? there)
    rw [if_neg elsewhere, mul_zero]

/-- The counts of several groups charge what the groups charge. -/
theorem sum_placed (cost : RankRow ι → Int) (rows : List (RankRow ι)) (groups : List (List Nat)) (agent : Nat) :
    (rows.zipIdx.map fun entry => cost entry.1 * placed groups entry.2 agent).sum =
      (groups.map fun group => atLayer cost rows group agent).sum := by
  induction groups with
  | nil => simp [placed]
  | cons group groups ih =>
    rw [List.map_cons, List.sum_cons, ← ih, atLayer, ← List.sum_map_add]
    apply congrArg List.sum
    apply List.map_congr_left
    intro entry _
    rw [placed_cons]
    ring

end Rows

/-! ## Users of resources -/

section Users

variable {ι : Type}

theorem ExecutionResourceDeclaration.users_isEmpty (declaration : ExecutionResourceDeclaration)
    (signatures : List (ExecutionSignature ι)) :
    (!(declaration.users signatures).isEmpty) = signatures.any declaration.isUsed := by
  rw [Bool.eq_iff_iff, Bool.not_eq_true', List.isEmpty_eq_false_iff_exists_mem, List.any_eq_true]
  constructor
  · rintro ⟨index, member⟩
    obtain ⟨entry, listed, -⟩ := List.mem_map.mp member
    obtain ⟨there, uses⟩ := List.mem_filter.mp listed
    exact ⟨entry.1, List.mem_of_getElem? (List.mem_zipIdx_iff_getElem?.mp there), uses⟩
  · rintro ⟨signature, member, uses⟩
    obtain ⟨index, listed⟩ := List.mem_iff_getElem?.mp member
    refine ⟨index, List.mem_map.mpr ⟨(signature, index), List.mem_filter.mpr ⟨?_, uses⟩, rfl⟩⟩
    exact List.mem_zipIdx_iff_getElem?.mpr listed

theorem ExecutionResourceDeclaration.users_any (declaration : ExecutionResourceDeclaration)
    (signatures : List (ExecutionSignature ι)) (present : Nat → Bool) :
    (declaration.users signatures).any present =
      signatures.zipIdx.any fun entry => declaration.isUsed entry.1 && present entry.2 := by
  rw [users, List.any_map, List.any_filter]
  rfl

theorem sum_dense (signatures : List (ExecutionSignature ι)) :
    (signatures.map fun signature => signature.isDense.toInt).sum = (signatures.filter ExecutionSignature.isDense).length ∧
      (signatures.map fun signature => (!signature.isDense).toInt).sum =
        (signatures.length : Int) - (signatures.filter ExecutionSignature.isDense).length := by
  induction signatures with
  | nil => exact ⟨rfl, rfl⟩
  | cons signature signatures ih =>
    rw [List.map_cons, List.sum_cons, List.map_cons, List.sum_cons, ih.1, ih.2, List.filter_cons, List.length_cons]
    cases signature.isDense with
    | false =>
      simp
      omega
    | true =>
      simp
      omega

end Users

/-- The groups of a placement have the ranks of their models. -/
def Request.Placed {ι : Type} (request : Request ι) (placement : Nat → Nat → List Nat) : Prop :=
  ∀ (modelIndex : Nat) model, request.prepared.models[modelIndex]? = some model → ∀ layer < model.layers.length,
    Group model.tpSize request.prepared.ffnagentCount (placement modelIndex layer)

section Layers

variable {ι : Type} [DecidableEq ι] {request : Request ι} {placement : Nat → Nat → List Nat} {agent : Nat}
  {assigned : Nat → Nat → Int} {values : StageValues}

/-- The counts of the placement's layers on an FfnAgent, by class and rank. -/
def Request.Counts (request : Request ι) (placement : Nat → Nat → List Nat) (agent : Nat) (assigned : Nat → Nat → Int) :
    Prop :=
  ∀ classIndex layerClass, request.classes[classIndex]? = some layerClass → ∀ rank < layerClass.rankRows.length,
    assigned classIndex rank = placed (layerClass.layerIndices.map (placement layerClass.modelIndex)) rank agent

/-- What a class is charged is what its layers are. -/
theorem sum_classes (cost : RankRow ι → Int) (model : ModelLayers (RankRow ι)) (modelIndex : Nat) :
    ((model.classes modelIndex).map fun layerClass =>
        (layerClass.layerIndices.map fun layer =>
          atLayer cost layerClass.rankRows (placement layerClass.modelIndex layer) agent).sum).sum =
      (model.layers.zipIdx.map fun entry => atLayer cost entry.1 (placement modelIndex entry.2) agent).sum := by
  have rows : (model.classes modelIndex).map (fun layerClass =>
        (layerClass.layerIndices.map fun layer =>
          atLayer cost layerClass.rankRows (placement layerClass.modelIndex layer) agent).sum) =
      (model.classes modelIndex).map fun layerClass =>
        (layerClass.layerIndices.map fun layer =>
          atLayer cost (model.layers.getD layer []) (placement modelIndex layer) agent).sum := by
    apply List.map_congr_left
    intro layerClass member
    apply congrArg List.sum
    apply List.map_congr_left
    intro layer listed
    have keyed := Lib.group_keyed (ModelLayers.mem_classes member) layer listed
    have owner : layerClass.modelIndex = modelIndex := by
      obtain ⟨_, _, rfl⟩ := List.mem_map.mp member
      rfl
    rw [keyed, owner]
  rw [rows, ← Lib.sum_flatMap, (ModelLayers.classes_perm.map _).sum_eq]
  apply congrArg List.sum
  apply List.ext_getElem
  · simp
  · intro layer small small'
    have inside : layer < model.layers.length := by simpa using small
    simp [List.getElem?_eq_getElem inside]

/-- What the counts of a placement charge is what the agent's layers do. -/
theorem overRows_eq (placed' : request.Placed placement) (counts : request.Counts placement agent assigned)
    (cost : RankRow ι → Int) :
    overRows request.classes assigned cost = ((request.localLayers placement agent).map fun layer => cost layer.row).sum := by
  have classes : overRows request.classes assigned cost =
      (request.classes.map fun layerClass =>
        (layerClass.layerIndices.map fun layer =>
          atLayer cost layerClass.rankRows (placement layerClass.modelIndex layer) agent).sum).sum := by
    have each : request.classes.zipIdx.map (fun entry =>
          (entry.1.rankRows.zipIdx.map fun row => cost row.1 * assigned entry.2 row.2).sum) =
        request.classes.zipIdx.map ((fun layerClass =>
          (layerClass.layerIndices.map fun layer =>
            atLayer cost layerClass.rankRows (placement layerClass.modelIndex layer) agent).sum) ∘ Prod.fst) := by
      apply List.map_congr_left
      intro entry member
      have listed := List.mem_zipIdx_iff_getElem?.mp member
      have groups := sum_placed cost entry.1.rankRows (entry.1.layerIndices.map (placement entry.1.modelIndex)) agent
      rw [List.map_map] at groups
      refine Eq.trans (congrArg List.sum (List.map_congr_left ?_)) groups
      intro row there
      have small := (List.getElem?_eq_some_iff.mp (List.mem_zipIdx_iff_getElem?.mp there)).1
      rw [counts entry.2 entry.1 listed row.2 small]
    rw [overRows, each, ← List.map_map, List.zipIdx_map_fst]
  rw [classes, Request.classes, Problem.classes, Lib.sum_flatMap, Request.localLayers, Lib.sum_flatMap]
  change (((request.prepared.models.map (ModelLayers.map PreparedLayer.row)).zipIdx).map _).sum = _
  rw [List.zipIdx_map, List.map_map]
  apply congrArg List.sum
  apply List.map_congr_left
  intro entry member
  have owner := List.mem_zipIdx_iff_getElem?.mp member
  rw [Lib.sum_filterMap]
  refine (sum_classes cost (entry.1.map PreparedLayer.row) entry.2).trans ?_
  change (((entry.1.layers.map (List.map PreparedLayer.row)).zipIdx).map _).sum = _
  rw [List.zipIdx_map, List.map_map]
  apply congrArg List.sum
  apply List.map_congr_left
  rintro ⟨ranks, layer⟩ listed
  have inside := (List.getElem?_eq_some_iff.mp (List.mem_zipIdx_iff_getElem?.mp listed)).1
  have distinct := (placed' entry.2 entry.1 owner layer inside).distinct
  refine (atLayer_eq cost _ distinct).trans ?_
  change (if agent ∈ placement entry.2 layer then (ranks.map PreparedLayer.row)[_]? else none).elim 0 cost = _
  dsimp only
  by_cases here : agent ∈ placement entry.2 layer
  · rw [if_pos here, if_pos here, List.getElem?_map, Option.elim_map]
    rfl
  · rw [if_neg here, if_neg here]
    rfl

/-! ## Presences -/

/-- The signatures of the layers that an FfnAgent holds. -/
def localSignatures (layers : List (PreparedLayer ι)) : List (ExecutionSignature ι) :=
  (layers.flatMap PreparedLayer.executionSignatures).eraseDups

theorem mem_localSignatures {layers : List (PreparedLayer ι)} {signature : ExecutionSignature ι} :
    signature ∈ localSignatures layers ↔ ∃ layer ∈ layers, signature ∈ layer.executionSignatures := by
  rw [localSignatures, List.mem_eraseDups, List.mem_flatMap]

/-- A placement whose stage variables have their defining values on one FfnAgent. -/
structure Settled (request : Request ι) (contract : FfnExecutionContract) (placement : Nat → Nat → List Nat) (agent : Nat)
    (assigned : Nat → Nat → Int) (values : StageValues) : Prop where
  placed : request.Placed placement
  counts : request.Counts placement agent assigned
  defined : request.StageDefined contract assigned values agent

variable {contract : FfnExecutionContract} {signature : ExecutionSignature ι}

/-- The solver counts users of a signature just where a layer of the agent has it. -/
theorem Settled.users (settled : Settled request contract placement agent assigned values) (signature : ExecutionSignature ι) :
    request.users assigned signature = ((request.localLayers placement agent).countP fun layer =>
      decide (signature ∈ layer.executionSignatures) : Nat) := by
  rw [Request.users, overRows_eq settled.placed settled.counts]
  induction request.localLayers placement agent with
  | nil => rfl
  | cons layer layers ih =>
    rw [List.map_cons, List.sum_cons, ih, List.countP_cons]
    change (decide (signature ∈ layer.executionSignatures)).toInt + _ = _
    by_cases member : signature ∈ layer.executionSignatures
    · simp [member, Int.add_comm]
    · simp [member]

theorem Settled.users_pos (settled : Settled request contract placement agent assigned values)
    (signature : ExecutionSignature ι) :
    1 ≤ request.users assigned signature ↔ signature ∈ localSignatures (request.localLayers placement agent) := by
  rw [settled.users, mem_localSignatures]
  norm_cast
  rw [Nat.succ_le_iff, List.countP_pos_iff]
  simp only [decide_eq_true_eq]

/-- A signature is present just where a layer of the agent has it. -/
theorem Settled.present (settled : Settled request contract placement agent assigned values) {index : Nat}
    (listed : request.allSignatures[index]? = some signature) :
    values.signaturePresent index = decide (signature ∈ localSignatures (request.localLayers placement agent)) := by
  rw [Bool.eq_iff_iff, decide_eq_true_eq, ← settled.users_pos]
  constructor
  · exact settled.defined.present index signature listed
  · intro some'
    cases present : values.signaturePresent index with
    | true => rfl
    | false =>
      have none := settled.defined.absent index signature listed present
      omega

/-- The layers of the agent have no other signatures. -/
theorem Settled.listed (settled : Settled request contract placement agent assigned values)
    (member : signature ∈ localSignatures (request.localLayers placement agent)) : signature ∈ request.allSignatures := by
  by_contra other
  have some' := (settled.users_pos signature).mpr member
  have none : request.users assigned signature = 0 := by
    rw [Request.users, overRows]
    apply List.sum_eq_zero
    intro value there
    obtain ⟨⟨layerClass, classIndex⟩, here, rfl⟩ := List.mem_map.mp there
    apply List.sum_eq_zero
    intro value there
    obtain ⟨⟨row, rank⟩, here', rfl⟩ := List.mem_map.mp there
    have absent : signature ∉ row.signatures := by
      intro inside
      apply other
      rw [Request.allSignatures, List.mem_eraseDups, List.mem_flatMap]
      refine ⟨layerClass, List.mem_of_getElem? (List.mem_zipIdx_iff_getElem?.mp here), ?_⟩
      exact List.mem_flatMap.mpr ⟨row, List.mem_of_getElem? (List.mem_zipIdx_iff_getElem?.mp here'), inside⟩
    simp [absent]
  omega

theorem Settled.perm (settled : Settled request contract placement agent assigned values) :
    (request.allSignatures.filter fun signature =>
        decide (signature ∈ localSignatures (request.localLayers placement agent))).Perm
      (localSignatures (request.localLayers placement agent)) := by
  apply Lib.eraseDups_perm
  intro signature
  rw [decide_eq_true_eq]
  constructor
  · intro member
    have present := List.mem_eraseDups.mpr member
    exact ⟨List.mem_eraseDups.mp (settled.listed present), present⟩
  · rintro ⟨-, present⟩
    exact List.mem_eraseDups.mp present

/-- Charges by present signature are charges by local signature. -/
theorem Settled.signatures (settled : Settled request contract placement agent assigned values)
    (cost : ExecutionSignature ι → Int) :
    overPresent request.allSignatures values.signaturePresent cost =
      ((localSignatures (request.localLayers placement agent)).map cost).sum := by
  rw [overPresent, Lib.sum_zipIdx_filter _ _ _ _ fun index item listed => settled.present listed]
  exact (settled.perm.map cost).sum_eq

/-- Some signature with a property is present just where the agent has one. -/
theorem Settled.any (settled : Settled request contract placement agent assigned values)
    (holds : ExecutionSignature ι → Bool) :
    (request.allSignatures.zipIdx.any fun entry => holds entry.1 && values.signaturePresent entry.2) =
      (localSignatures (request.localLayers placement agent)).any holds := by
  rw [Bool.eq_iff_iff, List.any_eq_true, List.any_eq_true]
  constructor
  · rintro ⟨entry, member, both⟩
    rw [Bool.and_eq_true, settled.present (List.mem_zipIdx_iff_getElem?.mp member), decide_eq_true_eq] at both
    exact ⟨entry.1, both.2, both.1⟩
  · rintro ⟨signature, member, has⟩
    obtain ⟨index, listed⟩ := List.mem_iff_getElem?.mp (settled.listed member)
    refine ⟨(signature, index), List.mem_zipIdx_iff_getElem?.mpr listed, ?_⟩
    rw [Bool.and_eq_true, settled.present listed, decide_eq_true_eq]
    exact ⟨has, member⟩

/-- The weight pairs that the agent's graphs are captured with. -/
def localPairs (layers : List (PreparedLayer ι)) : List (ExecutionSignature ι) :=
  ((localSignatures layers).map ExecutionSignature.captureWeightPairKey).eraseDups

/-- Charges by present weight pair are charges by local weight pair. -/
theorem Settled.pairs (settled : Settled request contract placement agent assigned values)
    (cost : ExecutionSignature ι → Int) :
    overPresent request.captureWeightPairKeys values.weightPairPresent cost =
      ((localPairs (request.localLayers placement agent)).map cost).sum := by
  have present : ∀ index key, request.captureWeightPairKeys[index]? = some key → values.weightPairPresent index =
      decide (key ∈ (localSignatures (request.localLayers placement agent)).map ExecutionSignature.captureWeightPairKey) := by
    intro index key listed
    rw [settled.defined.pairs index key listed]
    refine (settled.any fun signature => decide (signature.captureWeightPairKey = key)).trans ?_
    rw [Bool.eq_iff_iff, List.any_eq_true, decide_eq_true_eq, List.mem_map]
    simp only [decide_eq_true_eq]
  rw [overPresent, Lib.sum_zipIdx_filter _ _ _ _ present]
  apply List.Perm.sum_eq
  apply List.Perm.map
  apply Lib.eraseDups_perm
  intro key
  rw [decide_eq_true_eq]
  constructor
  · intro member
    refine ⟨?_, member⟩
    obtain ⟨signature, here, rfl⟩ := List.mem_map.mp member
    exact List.mem_map_of_mem (settled.listed here)
  · exact fun both => both.2

/-- A resource is present just where one of its users is. -/
theorem Settled.groupPresent (settled : Settled request contract placement agent assigned values) {index : Nat}
    {group : ExecutionResourceGroup} (listed : (request.resources contract)[index]? = some group) :
    values.groupPresent group index = group.signatureIndices.any values.signaturePresent := by
  rw [StageValues.groupPresent]
  split
  · next only one => simp [one]
  · next several =>
    apply settled.defined.groups index group listed
    intro one
    obtain ⟨only, single⟩ := List.length_eq_one_iff.mp one
    exact several only single

/-- Charges by present resource are charges by resource of the local signatures. -/
theorem Settled.resources (settled : Settled request contract placement agent assigned values)
    (cost : ExecutionResourceRequirement → Int) :
    overGroups (request.resources contract) values cost =
      ((laneResources request.workspace contract (localSignatures (request.localLayers placement agent))).map fun group =>
        cost group.requirement).sum := by
  have positions : overGroups (request.resources contract) values cost =
      ((request.resources contract).map fun group =>
        cost group.requirement * (group.signatureIndices.any values.signaturePresent).toInt).sum := by
    have each : (request.resources contract).zipIdx.map (fun entry =>
          cost entry.1.requirement * (values.groupPresent entry.1 entry.2).toInt) =
        ((request.resources contract).zipIdx.map Prod.fst).map fun group =>
          cost group.requirement * (group.signatureIndices.any values.signaturePresent).toInt := by
      rw [List.map_map]
      apply List.map_congr_left
      intro entry member
      rw [settled.groupPresent (List.mem_zipIdx_iff_getElem?.mp member)]
      rfl
    rw [overGroups, each, List.zipIdx_map_fst]
  rw [positions, Request.resources, laneResources, laneResources, List.map_append, List.map_append, List.sum_append,
    List.sum_append]
  congr 1
  · -- every present signature has its computation
    rw [List.map_map, List.map_map]
    have computes := settled.signatures fun signature => cost (computeGroup (request.workspace signature) 0).requirement
    rw [overPresent] at computes
    refine Eq.trans ?_ (computes.trans ?_)
    · apply congrArg List.sum
      apply List.map_congr_left
      intro entry _
      simp [computeGroup]
    · apply congrArg List.sum
      conv_lhs => rw [← List.zipIdx_map_fst 0 (localSignatures (request.localLayers placement agent)), List.map_map]
      rfl
  · -- a declared resource is present with its users, and absent where there are none
    rw [declaredGroups, declaredGroups, List.map_map, List.map_map, Lib.sum_filter, Lib.sum_filter]
    apply congrArg List.sum
    apply List.map_congr_left
    intro declaration _
    have used := settled.any declaration.isUsed
    rw [Function.comp_apply, Function.comp_apply, declaration.users_any, used, declaration.users_isEmpty,
      declaration.users_isEmpty]
    dsimp only
    cases here : (localSignatures (request.localLayers placement agent)).any declaration.isUsed with
    | false => simp
    | true =>
      obtain ⟨signature, member, uses⟩ := List.any_eq_true.mp here
      have elsewhere : request.allSignatures.any declaration.isUsed = true :=
        List.any_eq_true.mpr ⟨signature, settled.listed member, uses⟩
      simp [elsewhere]

/-! ## Amounts -/

/-- What the estimator adds up over the layers of an FfnAgent. -/
def Request.localAmounts (request : Request ι) (contract : FfnExecutionContract) (layers : List (PreparedLayer ι)) :
    StageAmounts :=
  let lanes : Int := request.ffnConcurrency
  let signatures := localSignatures layers
  let probes := (localPairs layers).map ExecutionSignature.controlCaptureProbeStorageBytes
  let storage :=
    probes.flatten ++ (List.replicate request.ffnConcurrency (signatures.flatMap ExecutionSignature.storageBytes)).flatten
  let resources := laneResources request.workspace contract signatures
  { weightBytes := (layers.flatMap PreparedLayer.weightAllocationBytes).sum
    weightAllocations := (layers.flatMap PreparedLayer.weightAllocationBytes).length
    weightAllowance :=
      (layers.map fun layer => reservation layer.weightAllocationBytes - layer.weightAllocationBytes.sum).sum
    layerCount := layers.length
    capacityCount := (layers.map fun layer => (layer.executionSignatures.length : Int)).sum
    signatureCount := signatures.length
    captureBytes := storage.sum
    captureAllocations := storage.length
    captureAllowance :=
      (signatures.map ExecutionSignature.allowance).sum * lanes + (probes.map fun group => reservation group - group.sum).sum
    poolBytes := lanes * poolReservation resources
    resourceBytes := (resources.map fun group => lanes * group.requirement.logicalExtentBoundBytes).sum
    resourceAllocations := (resources.map fun group => lanes * (group.requirement.requestBytes.length : Int)).sum
    denseCaptureCount := ((signatures.filter ExecutionSignature.isDense).length : Int) * lanes
    moeCaptureCount := ((signatures.length : Int) - (signatures.filter ExecutionSignature.isDense).length) * lanes }

/-- The amounts of the solver are those of the estimator. -/
theorem Settled.amounts (settled : Settled request contract placement agent assigned values) :
    request.amounts contract assigned values = request.localAmounts contract (request.localLayers placement agent) := by
  have rows := overRows_eq settled.placed settled.counts
  have signatures := settled.signatures
  have pairs := settled.pairs
  have resources := settled.resources
  rw [Request.amounts, Request.localAmounts]
  simp only [rows, signatures, pairs, resources, PreparedLayer.row]
  have lanes (items : List (ExecutionSignature ι)) (cost : ExecutionSignature ι → Int) :=
    List.sum_map_mul_left items cost (request.ffnConcurrency : Int)
  congr 1
  · exact (List.sum_flatten.trans (congrArg List.sum (List.map_map ..))).symm
  · exact (Lib.length_flatMap _ _).symm
  · simp
  · simp
  · rw [lanes, List.sum_append, Lib.sum_flatten_replicate, List.sum_flatten, List.map_map, List.flatMap, List.sum_flatten,
      List.map_map]
    exact Int.add_comm _ _
  · have probes := Lib.length_flatMap (localPairs (request.localLayers placement agent))
      ExecutionSignature.controlCaptureProbeStorageBytes
    have storage := Lib.length_flatMap (localSignatures (request.localLayers placement agent)) ExecutionSignature.storageBytes
    rw [lanes, List.length_append, Nat.cast_add, Lib.length_flatten_replicate, Nat.cast_mul, ← storage, ← probes]
    exact Int.add_comm _ _
  · rw [lanes, List.map_map, Int.mul_comm]
    rfl
  · exact List.sum_map_mul_left ..
  · rw [(sum_dense _).1, Int.mul_comm]
  · rw [(sum_dense _).2, Int.mul_comm]

theorem Settled.densePresent (settled : Settled request contract placement agent assigned values) :
    values.densePresent =
      decide ((((localSignatures (request.localLayers placement agent)).filter ExecutionSignature.isDense).length : Int) ≠
        0) := by
  rw [settled.defined.dense]
  refine (settled.any ExecutionSignature.isDense).trans ?_
  rw [Bool.eq_iff_iff, List.any_eq_true, decide_eq_true_eq, ne_eq, Int.natCast_eq_zero, List.length_eq_zero_iff,
    List.filter_eq_nil_iff]
  simp only [not_forall, not_not, exists_prop]

theorem Settled.moePresent (settled : Settled request contract placement agent assigned values) :
    values.moePresent =
      decide (((localSignatures (request.localLayers placement agent)).length : Int) -
        ((localSignatures (request.localLayers placement agent)).filter ExecutionSignature.isDense).length ≠ 0) := by
  rw [settled.defined.moe]
  refine (settled.any fun signature => !signature.isDense).trans ?_
  have split := List.length_eq_length_filter_add (l := localSignatures (request.localLayers placement agent))
    ExecutionSignature.isDense
  rw [Bool.eq_iff_iff, List.any_eq_true, decide_eq_true_eq, split, Nat.cast_add, add_sub_cancel_left, ne_eq,
    Int.natCast_eq_zero, List.length_eq_zero_iff, List.filter_eq_nil_iff]
  simp only [not_forall, not_not, exists_prop]

/-- The number that covers is the rounded quotient. -/
theorem coversMib_eq {bytes mibs : Int} (covers : Request.CoversMib bytes mibs) :
    mibs = (bytes + mib - 1) / mib * mib / mib := by
  obtain ⟨lower, upper⟩ := covers
  rw [Int.mul_ediv_cancel _ (by decide)]
  simp only [mib] at lower upper ⊢
  omega

/-- The routing records are sized for the widest local router. -/
theorem Settled.routing (settled : Settled request contract placement agent assigned values) :
    (if request.observesRouting then values.routingRecordBufferBytes else 0) =
      request.routingBytes ((((localSignatures (request.localLayers placement agent)).filter ExecutionSignature.routes).map
        ExecutionSignature.routingElements).max?.getD 0) := by
  generalize same : (((localSignatures (request.localLayers placement agent)).filter ExecutionSignature.routes).map
    ExecutionSignature.routingElements) = widths
  have members : ∀ width, width ∈ widths ↔ ∃ signature ∈ localSignatures (request.localLayers placement agent),
      signature.routes = true ∧ signature.routingElements = width := by
    intro width
    rw [← same, List.mem_map]
    simp only [List.mem_filter, and_assoc]
  split
  · next observes =>
    obtain ⟨widest, table⟩ := settled.defined.routing observes
    obtain ⟨entry, -, here⟩ := List.mem_map.mp table
    obtain ⟨elements, bytes⟩ := Prod.mk.inj here
    rw [← bytes, elements]
    apply congrArg
    obtain ⟨member, most⟩ := List.max?_eq_some_iff.mp widest
    have wide : ∀ width ∈ widths, width ≤ values.routingElements := by
      intro width listed
      obtain ⟨signature, there, routes, rfl⟩ := (members width).mp listed
      obtain ⟨index, listed'⟩ := List.mem_iff_getElem?.mp (settled.listed there)
      have present : values.signaturePresent index = true := by
        rw [settled.present listed', decide_eq_true there]
      apply most
      apply List.mem_cons_of_mem
      refine List.mem_map.mpr ⟨(signature, index), List.mem_filter.mpr ⟨?_, routes⟩, ?_⟩
      · exact List.mem_zipIdx_iff_getElem?.mpr listed'
      · simp [present]
    rcases List.mem_cons.mp member with zero | member
    · rw [zero]
      cases found : widths.max? with
      | none => rfl
      | some width =>
        have small := wide width (List.max?_mem found)
        rw [Option.getD_some]
        omega
    · obtain ⟨⟨signature, index⟩, listed, width⟩ := List.mem_map.mp member
      obtain ⟨listed, routes⟩ := List.mem_filter.mp listed
      have present := settled.present (List.mem_zipIdx_iff_getElem?.mp listed)
      change signature.routingElements * (values.signaturePresent index).toNat = _ at width
      dsimp only at present
      rw [present] at width
      by_cases there : signature ∈ localSignatures (request.localLayers placement agent)
      · have own : values.routingElements ∈ widths := by
          refine (members _).mpr ⟨signature, there, routes, ?_⟩
          simpa [there] using width
        rw [List.max?_eq_some_iff.mpr ⟨own, wide⟩, Option.getD_some]
      · have zero : values.routingElements = 0 := by simpa [there] using width.symm
        cases found : widths.max? with
        | none => exact zero
        | some other =>
          have small := wide other (List.max?_mem found)
          rw [Option.getD_some]
          omega
  · next silent =>
    rw [Request.routingBytes]
    by_cases observer : request.routingObserver
    · have none : request.routerSignatures = [] := by
        simpa [Request.observesRouting, observer] using silent
      have empty : widths = [] := by
        apply List.eq_nil_iff_forall_not_mem.mpr
        intro width listed
        obtain ⟨signature, there, routes, -⟩ := (members width).mp listed
        have member : signature ∈ request.routerSignatures := List.mem_filter.mpr ⟨settled.listed there, routes⟩
        rw [none] at member
        cases member
      simp [empty]
    · simp [observer]

end Layers

end CrossPool.Placement
