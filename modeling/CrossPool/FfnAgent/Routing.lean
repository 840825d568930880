import CrossPool.Lib.Lanes
import Mathlib.Data.List.GetD
import Mathlib.Data.List.Sort
import Mathlib.Data.Nat.Log
import Mathlib.Data.Rat.Defs
import Mathlib.Algebra.Order.Monoid.Unbundled.WithTop
import Mathlib.Algebra.Order.Ring.Unbundled.Rat
import Mathlib.Tactic.NormNum

/-!
# Routing Metadata

The Router selects experts by an iterated masked maximum over a padded block of lanes,
and the routed entries are then laid out again with the shared experts and an invalid
tail. Scores are of any linear order with a least value, which is the `-inf` of padding
lanes and of experts selected before. Offsets are int32, which reaches all of a tensor
only up to a size.
-/

namespace CrossPool.FfnAgent

open CrossPool.Lib

/-! ## Data -/

/-- The element types of Router tensors. -/
inductive Dtype where
  | bfloat16
  | float16
  | float32
deriving DecidableEq, Repr

inductive RouterAlgorithm where
  | softmax
  | sigmoid
deriving DecidableEq, Repr

inductive RouterProjectionPrecision where
  | payload
  | fp32
  | fp32Logits
deriving DecidableEq, Repr

inductive TopKWeightRounding where
  | none
  | logitsDtype
deriving DecidableEq, Repr

/-- The operations on single-precision values. `stored` is a value written to memory of
a type and read back, which loses nothing in memory of its own type, and `reciprocal` is
the constant `1.0 / factor` of a kernel. -/
structure Float32 (S : Type) where
  exp : S → S
  sigmoid : S → S
  sub : S → S → S
  div : S → S → S
  one : S
  reciprocal : ℚ → S
  stored : Dtype → S → S
  stored_float32 : ∀ x, stored .float32 x = x

/-- The Router part of `MoeFfnSpec`, as `validate_routing` lets it through. -/
structure RouterSpec where
  algorithm : RouterAlgorithm
  projectionPrecision : RouterProjectionPrecision
  weightRounding : TopKWeightRounding
  routedExpertCount : Nat
  sharedExpertCount : Nat
  routedTopk : Nat
  renormalize : Bool
  routedScalingFactor : ℚ
  routedTopk_le : routedTopk ≤ routedExpertCount
  sigmoid_fp32 : algorithm = .sigmoid → projectionPrecision = .fp32
  routedScalingFactor_pos : 0 < routedScalingFactor

/-- `triton.next_power_of_2` -/
def nextPowerOf2 (n : Nat) : Nat :=
  2 ^ Nat.clog 2 n

theorem le_nextPowerOf2 (n : Nat) : n ≤ nextPowerOf2 n :=
  Nat.le_pow_clog (by decide) n

/-- The value an int32 element takes: program ids, lanes and what is computed from them
are int32. -/
def int32 (value : Int) : Int :=
  value.bmod (2 ^ 32)

/-- The constants that `router_topk_kernel` is compiled with, and the element type of
its logits. -/
structure TopkConstants where
  expertCount : Nat
  topk : Nat
  expertBlockSize : Nat
  topkBlockSize : Nat
  softmax : Bool
  correctionBiasPresent : Bool
  renormalize : Bool
  roundToLogitsDtype : Bool
  logitsDtype : Dtype

/-- The element type of the logits in the Router's workspace. -/
def RouterSpec.logitsDtype (spec : RouterSpec) (payloadDtype : Dtype) : Dtype :=
  match spec.projectionPrecision with
  | .payload => payloadDtype
  | .fp32 | .fp32Logits => .float32

/-- The launch arguments of `compute_routed_topk`. -/
def RouterSpec.topkConstants (spec : RouterSpec) (payloadDtype : Dtype) (biased : Bool) : TopkConstants where
  expertCount := spec.routedExpertCount
  topk := spec.routedTopk
  expertBlockSize := nextPowerOf2 spec.routedExpertCount
  topkBlockSize := nextPowerOf2 spec.routedTopk
  softmax := spec.algorithm = .softmax
  correctionBiasPresent := biased
  renormalize := spec.renormalize
  roundToLogitsDtype := spec.weightRounding = .logitsDtype
  logitsDtype := spec.logitsDtype payloadDtype

/-- The memory that the Router kernel works on, by elements from each pointer. What is not
an element of the tensor there is other memory. -/
structure RouterTensors (S : Type) where
  logits : Int → S
  routedIds : Int → Int
  routedWeights : Int → S

/-- The selection loop of one program. -/
structure RouteLoop (S : Type) where
  selection : Nat → S
  normalizer : S
  routedIds : Int → Int
  routedWeights : Int → S

/-! ## The kernels -/

section kernels

variable {S : Type} [LinearOrder S] [OrderBot S] [AddZeroClass S] (F : Float32 S)

namespace TopkConstants

variable (K : TopkConstants)

def logitsOffset (row expert : Nat) : Int :=
  int32 (row * K.expertCount + expert)

/-- Where the selection loop stores: the slot is added to the pointer. -/
def slotOffset (row slot : Nat) : Int :=
  int32 (row * K.topk) + slot

def outputOffset (row slot : Nat) : Int :=
  int32 (row * K.topk + slot)

/-- The logits of a row, padded. -/
def rowLogits (logits : Int → S) (row expert : Nat) : S :=
  if expert < K.expertCount then logits (K.logitsOffset row expert) else ⊥

/-- The activated scores of a row. -/
def scores (logits : Nat → S) (expert : Nat) : S :=
  if K.softmax then
    let exponentials := fun expert => F.exp (F.sub (logits expert) (reduce max K.expertBlockSize logits))
    F.div (exponentials expert) (reduce (· + ·) K.expertBlockSize exponentials)
  else F.sigmoid (logits expert)

/-- The scores that experts are selected by. -/
def corrected (bias logits : Nat → S) (expert : Nat) : S :=
  if K.correctionBiasPresent then
    K.scores F logits expert + if expert < K.expertCount then bias expert else 0
  else K.scores F logits expert

/-- One round of the selection loop. -/
def routeSlot (row : Nat) (scores : Nat → S) (loop : RouteLoop S) (slot : Nat) : RouteLoop S :=
  let maximum := reduce max K.expertBlockSize loop.selection
  let expert : Int :=
    if K.softmax then
      reduce min K.expertBlockSize fun lane =>
        if lane < K.expertCount ∧ loop.selection lane = maximum then (lane : Int) else K.expertCount
    else
      reduce max K.expertBlockSize fun lane =>
        if lane < K.expertCount ∧ loop.selection lane = maximum then (lane : Int) else -1
  let weight :=
    if K.softmax ∧ ¬ K.correctionBiasPresent then maximum
    else reduce (· + ·) K.expertBlockSize fun lane => if (lane : Int) = expert then scores lane else 0
  { selection := fun lane => if (lane : Int) = expert then ⊥ else loop.selection lane
    normalizer := loop.normalizer + weight
    routedIds := Function.update loop.routedIds (K.slotOffset row slot) expert
    routedWeights := Function.update loop.routedWeights (K.slotOffset row slot) weight }

/-- What becomes of a selected weight once all of them are known. -/
def finishWeight (normalizer weight : S) : S :=
  let weight := if K.renormalize then F.div weight (if 0 < normalizer then normalizer else F.one) else weight
  if K.roundToLogitsDtype then F.stored K.logitsDtype weight else weight

/-- The second pass over the weights of a row. -/
def finishWeights (row : Nat) (normalizer : S) (routedWeights : Int → S) : Int → S :=
  if K.renormalize || K.roundToLogitsDtype then
    storeLanes K.topkBlockSize (fun slot => slot < K.topk) (K.outputOffset row)
      (fun slot => K.finishWeight F normalizer (if slot < K.topk then routedWeights (K.outputOffset row slot) else 0)) routedWeights
  else routedWeights

/-- The logits after a Sigmoid program has stored its selection in their place. -/
def storeSelection (bias : Nat → S) (row : Nat) (logits : Int → S) : Int → S :=
  if K.softmax then logits
  else
    storeLanes K.expertBlockSize (fun expert => expert < K.expertCount) (K.logitsOffset row)
      (fun expert => F.stored K.logitsDtype (K.corrected F bias (K.rowLogits logits row) expert)) logits

/-- What the selection loop of a row starts from. -/
def selection (bias : Nat → S) (row : Nat) (logits : Int → S) (expert : Nat) : S :=
  if K.softmax then
    if expert < K.expertCount then K.corrected F bias (K.rowLogits logits row) expert else ⊥
  else K.rowLogits (K.storeSelection F bias row logits) row expert

/-- The selection loop of a row, run to its end. -/
def routed (bias : Nat → S) (row : Nat) (tensors : RouterTensors S) : RouteLoop S :=
  (List.range K.topk).foldl (K.routeSlot row (K.scores F (K.rowLogits tensors.logits row)))
    ⟨K.selection F bias row tensors.logits, 0, tensors.routedIds, tensors.routedWeights⟩

/-- `router_topk_kernel` -/
def routerTopkKernel (bias : Nat → S) (row : Nat) (tensors : RouterTensors S) : RouterTensors S :=
  let loop := K.routed F bias row tensors
  { logits := K.storeSelection F bias row tensors.logits
    routedIds := loop.routedIds
    routedWeights := K.finishWeights F row loop.normalizer loop.routedWeights }

end TopkConstants

/-- The constants that `finalize_moe_routing_kernel` is compiled with. -/
structure FinalizeConstants where
  rowCapacity : Nat
  routedTopk : Nat
  effectiveTopk : Nat
  routedExpertCount : Nat
  routedScalingFactor : ℚ
  blockSize : Nat

/-- Final Routing Metadata, by elements from each pointer. -/
structure RoutingMetadata (S : Type) where
  finalIds : Int → Int
  finalWeights : Int → S

namespace FinalizeConstants

variable (K : FinalizeConstants)

def elementCount : Nat :=
  K.rowCapacity * K.effectiveTopk

/-- The element that a lane of a program writes. -/
def offset (program lane : Nat) : Int :=
  int32 (program * K.blockSize + lane)

/-- The id for an element. -/
def finalId (payloadRows : Int) (routedIds : Int → Int) (offset : Int) : Int :=
  let row := offset.tdiv K.effectiveTopk
  let slot := offset.tmod K.effectiveTopk
  let routedId := if offset < K.elementCount ∧ row < payloadRows ∧ slot < K.routedTopk then
    routedIds (int32 (row * K.routedTopk + slot)) else -1
  if row < payloadRows then
    if slot < K.routedTopk then routedId else int32 (K.routedExpertCount + slot - K.routedTopk)
  else -1

/-- The weight for an element. -/
def finalWeight (payloadRows : Int) (routedWeights : Int → S) (offset : Int) : S :=
  let row := offset.tdiv K.effectiveTopk
  let slot := offset.tmod K.effectiveTopk
  let routedWeight := if offset < K.elementCount ∧ row < payloadRows ∧ slot < K.routedTopk then
    routedWeights (int32 (row * K.routedTopk + slot)) else 0
  if row < payloadRows then
    if slot < K.routedTopk then routedWeight else F.reciprocal K.routedScalingFactor
  else 0

/-- The elements that a program writes. -/
def writes (program : Nat) : List Int :=
  storedOffsets K.blockSize (fun lane => K.offset program lane < K.elementCount) (K.offset program)

/-- `finalize_moe_routing_kernel` -/
def finalizeMoeRoutingKernel (payloadRows : Int) (routed : RouterTensors S) (program : Nat) (final : RoutingMetadata S) :
    RoutingMetadata S where
  finalIds := storeLanes K.blockSize (fun lane => K.offset program lane < K.elementCount) (K.offset program)
    (fun lane => K.finalId payloadRows routed.routedIds (K.offset program lane)) final.finalIds
  finalWeights := storeLanes K.blockSize (fun lane => K.offset program lane < K.elementCount) (K.offset program)
    (fun lane => K.finalWeight F payloadRows routed.routedWeights (K.offset program lane)) final.finalWeights

/-- The programs of a launch: `triton.cdiv(element_count, ROUTING_FINALIZATION_BLOCK_SIZE)`. -/
def grid : Nat :=
  (K.elementCount + K.blockSize - 1) / K.blockSize

end FinalizeConstants

/-- `ROUTING_FINALIZATION_BLOCK_SIZE` -/
def routingFinalizationBlockSize : Nat := 256

/-- The launch arguments of `finalize_moe_routing`. -/
def RouterSpec.finalizeConstants (spec : RouterSpec) (rowCapacity : Nat) : FinalizeConstants where
  rowCapacity := rowCapacity
  routedTopk := spec.routedTopk
  effectiveTopk := spec.routedTopk + spec.sharedExpertCount
  routedExpertCount := spec.routedExpertCount
  routedScalingFactor := spec.routedScalingFactor
  blockSize := routingFinalizationBlockSize

/-- The shapes that `finalize_moe_routing` is called with. -/
structure RoutingShapes where
  routedIds : Nat × Nat
  routedWeights : Nat × Nat
  finalIds : Nat × Nat
  finalWeights : Nat × Nat
  payloadRows : Nat

/-- The shapes of a layer's views. -/
def RouterSpec.shapes (spec : RouterSpec) (rowCapacity : Nat) : RoutingShapes where
  routedIds := (rowCapacity, spec.routedTopk)
  routedWeights := (rowCapacity, spec.routedTopk)
  finalIds := (rowCapacity, spec.routedTopk + spec.sharedExpertCount)
  finalWeights := (rowCapacity, spec.routedTopk + spec.sharedExpertCount)
  payloadRows := 1

/-- `finalize_moe_routing`, with the programs of its launch in some order. The live row
count is read on the host only when no Graph is being captured. -/
def finalizeMoeRouting (spec : RouterSpec) (shapes : RoutingShapes) (capturing : Bool) (payloadRows : Int)
    (programs : List Nat) (routed : RouterTensors S) (final : RoutingMetadata S) : Except String (RoutingMetadata S) := do
  let (rowCapacity, routedTopk) := shapes.routedIds
  let effectiveTopk := routedTopk + spec.sharedExpertCount
  unless shapes.routedWeights = shapes.routedIds do
    throw "routed Expert id and weight dimensions disagree"
  unless shapes.finalIds = (rowCapacity, effectiveTopk) ∧ shapes.finalWeights = shapes.finalIds do
    throw "final Routing Metadata dimensions disagree"
  unless shapes.payloadRows = 1 do
    throw "payload rows must contain exactly one element"
  unless routedTopk ≤ spec.routedExpertCount do
    throw "Routing Metadata Expert counts are inconsistent"
  unless 0 < spec.routedScalingFactor do
    throw "routed scaling factor must be finite and positive"
  unless capturing ∨ 0 < payloadRows ∧ payloadRows ≤ rowCapacity do
    throw "payload rows must be positive and no greater than Capacity"
  -- the kernel compares offsets with a constant that has to be int32
  unless rowCapacity * effectiveTopk < 2 ^ 31 do
    throw "Scalar is out of range for type int32"
  return launch ({ spec.finalizeConstants rowCapacity with
    routedTopk := routedTopk, effectiveTopk := effectiveTopk }.finalizeMoeRoutingKernel F payloadRows routed) programs final

/-- `TRITON_MAX_TENSOR_NUMEL` -/
def tritonMaxTensorNumel : Nat := 2 ^ 20

/-- The two operations of a layer, their programs in some order. -/
def RouterSpec.routeLayer (spec : RouterSpec) (payloadDtype : Dtype) (bias : Option (Nat → S)) (rowCapacity : Nat)
    (capturing : Bool) (payloadRows : Int) (rows programs : List Nat) (tensors : RouterTensors S)
    (final : RoutingMetadata S) : Except String (RoutingMetadata S) := do
  let constants := spec.topkConstants payloadDtype bias.isSome
  unless constants.expertBlockSize ≤ tritonMaxTensorNumel do
    throw "numel exceeds triton maximum tensor numel"
  let routed := launch (constants.routerTopkKernel F (bias.getD fun _ => 0)) rows tensors
  finalizeMoeRouting F spec (spec.shapes rowCapacity) capturing payloadRows programs routed final

end kernels

/-! ## The ranking of experts -/

section ranking

variable {S : Type} [LinearOrder S] {lowerFirst : Bool} {score : Nat → S} {count : Nat}

/-- Decreasing score, with ties by lower id or by higher id. -/
def precedes (lowerFirst : Bool) (score : Nat → S) (i j : Nat) : Prop :=
  score j < score i ∨ score i = score j ∧ if lowerFirst then i ≤ j else j ≤ i

instance : DecidableRel (precedes lowerFirst score) := fun _ _ => inferInstanceAs (Decidable (_ ∨ _ ∧ _))

instance : Std.Total (precedes lowerFirst score) where
  total i j := by
    rcases lt_trichotomy (score i) (score j) with less | same | more
    · exact .inr (.inl less)
    · cases lowerFirst with
      | true => exact (Nat.le_total i j).imp (fun le => .inr ⟨same, le⟩) fun le => .inr ⟨same.symm, le⟩
      | false => exact (Nat.le_total j i).imp (fun le => .inr ⟨same, le⟩) fun le => .inr ⟨same.symm, le⟩
    · exact .inl (.inl more)

instance : IsTrans Nat (precedes lowerFirst score) where
  trans i j k ij jk := by
    rcases ij with less | ⟨same, le⟩ <;> rcases jk with less' | ⟨same', le'⟩
    · exact .inl (less'.trans less)
    · exact .inl (same' ▸ less)
    · exact .inl (same ▸ less')
    · refine .inr ⟨same.trans same', ?_⟩
      cases lowerFirst with
      | true => exact Nat.le_trans le le'
      | false => exact Nat.le_trans le' le

/-- The experts of a row, first to last. -/
def ranking (lowerFirst : Bool) (score : Nat → S) (count : Nat) : List Nat :=
  (List.range count).insertionSort (precedes lowerFirst score)

theorem mem_ranking {expert : Nat} : expert ∈ ranking lowerFirst score count ↔ expert < count := by
  simp [ranking]

theorem ranking_length : (ranking lowerFirst score count).length = count := by
  simp [ranking]

theorem ranking_nodup : (ranking lowerFirst score count).Nodup :=
  (List.perm_insertionSort _ _).nodup_iff.mpr List.nodup_range

/-- An expert that is not among the first `slot` comes no earlier than the next. -/
theorem precedes_of_not_mem {slot expert : Nat} (bound : slot < (ranking lowerFirst score count).length)
    (inside : expert < count) (unselected : expert ∉ (ranking lowerFirst score count).take slot) :
    expert = (ranking lowerFirst score count)[slot] ∨ precedes lowerFirst score (ranking lowerFirst score count)[slot] expert := by
  have listed : expert ∈ ranking lowerFirst score count := mem_ranking.mpr inside
  rw [← List.take_append_drop slot (ranking lowerFirst score count)] at listed
  have later := (List.mem_append.mp listed).resolve_left unselected
  rw [List.drop_eq_getElem_cons bound] at later
  refine (List.mem_cons.mp later).imp_right fun after => ?_
  have sorted : (ranking lowerFirst score count).Pairwise (precedes lowerFirst score) := List.pairwise_insertionSort _ _
  have rest := sorted.sublist (List.drop_sublist slot _)
  rw [List.drop_eq_getElem_cons bound] at rest
  exact List.rel_of_pairwise_cons rest after

/-- The next expert is none of those before. -/
theorem ranking_fresh {slot : Nat} (bound : slot < (ranking lowerFirst score count).length) :
    (ranking lowerFirst score count)[slot] ∉ (ranking lowerFirst score count).take slot := by
  intro earlier
  obtain ⟨place, less, same⟩ := List.mem_take_iff_getElem.mp earlier
  have := (ranking_nodup.getElem_inj_iff).mp same
  omega

end ranking

/-! ## Offsets -/

section offsets

variable {K : TopkConstants} {row : Nat}

theorem int32_of_lt {value : Nat} (small : value < 2 ^ 31) : int32 value = value := by
  rw [int32, Int.bmod_eq_of_le]
  · omega
  · omega

/-- Values closer than the words are many are kept apart. -/
theorem int32_inj {x y : Int} (above : x < y + 2 ^ 32) (below : y < x + 2 ^ 32) (same : int32 x = int32 y) : x = y := by
  simp only [int32, Int.bmod] at same
  split at same <;> split at same <;> omega

theorem TopkConstants.logitsOffset_eq (fits : (row + 1) * K.expertCount ≤ 2 ^ 31) {expert : Nat}
    (inside : expert < K.expertCount) : K.logitsOffset row expert = (row * K.expertCount + expert : Nat) := by
  rw [Nat.succ_mul] at fits
  have small := int32_of_lt (show row * K.expertCount + expert < 2 ^ 31 by omega)
  push_cast at small ⊢
  exact small

theorem TopkConstants.slotOffset_eq (fits : (row + 1) * K.topk ≤ 2 ^ 31) {slot : Nat} (inside : slot < K.topk) :
    K.slotOffset row slot = (row * K.topk + slot : Nat) := by
  rw [Nat.succ_mul] at fits
  have small := int32_of_lt (show row * K.topk < 2 ^ 31 by omega)
  push_cast at small ⊢
  rw [slotOffset, small]

theorem TopkConstants.outputOffset_eq (fits : (row + 1) * K.topk ≤ 2 ^ 31) {slot : Nat} (inside : slot < K.topk) :
    K.outputOffset row slot = (row * K.topk + slot : Nat) := by
  rw [Nat.succ_mul] at fits
  have small := int32_of_lt (show row * K.topk + slot < 2 ^ 31 by omega)
  push_cast at small ⊢
  exact small

/-- The lanes of a block have offsets of their own. -/
theorem int32_lane_inj {block : Nat} (narrow : block ≤ tritonMaxTensorNumel) (base : Int) {i j : Nat} (first : i < block)
    (second : j < block) (same : int32 (base + i) = int32 (base + j)) : i = j := by
  have small : block ≤ 2 ^ 20 := narrow
  have := int32_inj (by omega) (by omega) same
  omega

end offsets

/-! ## The selection loop -/

section loop

variable {S : Type} [LinearOrder S] [OrderBot S] [AddZeroClass S] {K : TopkConstants} {row : Nat}
  {scores corrected : Nat → S} {start : RouteLoop S}

/-- The scores and constants of a row: the experts fit the block, which Triton accepts,
none has the score of padding, and without a correction the scores select. -/
structure TopkConstants.Row (K : TopkConstants) (scores corrected : Nat → S) : Prop where
  topk : K.topk ≤ K.expertCount
  expertBlock : K.expertCount ≤ K.expertBlockSize
  topkBlock : K.topk ≤ K.topkBlockSize
  narrow : K.expertBlockSize ≤ tritonMaxTensorNumel
  topkNarrow : K.topkBlockSize ≤ tritonMaxTensorNumel
  finite : ∀ expert < K.expertCount, ⊥ < corrected expert
  uncorrected : K.correctionBiasPresent = false → corrected = scores

/-- The selection loop when some slots are filled: the first experts of the ranking are
in them, with their scores, and are out of the selection. -/
structure Filled (K : TopkConstants) (row : Nat) (scores corrected : Nat → S) (slots : Nat) (loop : RouteLoop S) :
    Prop where
  selection : ∀ lane, loop.selection lane =
    if lane < K.expertCount ∧ lane ∉ (ranking K.softmax corrected K.expertCount).take slots then corrected lane else ⊥
  normalizer : loop.normalizer = (((ranking K.softmax corrected K.expertCount).take slots).map scores).foldl (· + ·) 0
  ids : ∀ slot < slots, loop.routedIds (K.slotOffset row slot) = (ranking K.softmax corrected K.expertCount).getD slot 0
  weights : ∀ slot < slots, loop.routedWeights (K.slotOffset row slot) =
    scores ((ranking K.softmax corrected K.expertCount).getD slot 0)

/-- One round fills one slot. -/
theorem routeSlot_filled (own : K.Row scores corrected) {slot : Nat} {loop : RouteLoop S} (bound : slot < K.topk)
    (filled : Filled K row scores corrected slot loop) :
    Filled K row scores corrected (slot + 1) (K.routeSlot row scores loop slot) := by
  have long : slot < (ranking K.softmax corrected K.expertCount).length := by
    rw [ranking_length]
    exact Nat.lt_of_lt_of_le bound own.topk
  have next : ∀ lane < K.expertCount, lane ∉ (ranking K.softmax corrected K.expertCount).take slot →
      lane = (ranking K.softmax corrected K.expertCount)[slot] ∨
        precedes K.softmax corrected (ranking K.softmax corrected K.expertCount)[slot] lane :=
    fun _ => precedes_of_not_mem long
  have fresh := ranking_fresh long
  have grown : (ranking K.softmax corrected K.expertCount).take (slot + 1) =
      (ranking K.softmax corrected K.expertCount).take slot ++ [(ranking K.softmax corrected K.expertCount)[slot]] :=
    (List.take_append_getElem long).symm
  have stands : (ranking K.softmax corrected K.expertCount).getD slot 0 = (ranking K.softmax corrected K.expertCount)[slot] :=
    List.getD_eq_getElem _ _ long
  have member : (ranking K.softmax corrected K.expertCount)[slot] < K.expertCount := mem_ranking.mp (List.getElem_mem long)
  generalize (ranking K.softmax corrected K.expertCount)[slot] = chosen at *
  have inside : chosen < K.expertBlockSize := Nat.lt_of_lt_of_le member own.expertBlock
  have here : loop.selection chosen = corrected chosen := by rw [filled.selection, if_pos ⟨member, fresh⟩]
  have maximum : reduce max K.expertBlockSize loop.selection = corrected chosen := by
    refine reduce_max_eq (fun lane _ => ?_) ⟨chosen, inside, here⟩
    rw [filled.selection]
    split
    · next remains =>
      rcases next lane remains.1 remains.2 with rfl | less | ⟨same, -⟩
      · exact le_rfl
      · exact le_of_lt less
      · exact le_of_eq same.symm
    · exact bot_le
  -- the lanes with the maximum are unselected experts of the same score
  have tied : ∀ lane, lane < K.expertCount ∧ loop.selection lane = corrected chosen →
      lane = chosen ∨ if K.softmax then chosen ≤ lane else lane ≤ chosen := by
    rintro lane ⟨real, equal⟩
    rw [filled.selection] at equal
    split at equal
    · next remains =>
      rcases next lane remains.1 remains.2 with same | less | ⟨-, order⟩
      · exact .inl same
      · exact absurd equal (ne_of_lt less)
      · exact .inr order
    · exact absurd equal (ne_of_lt (own.finite chosen member))
  have expert : (if K.softmax then
      reduce min K.expertBlockSize fun lane =>
        if lane < K.expertCount ∧ loop.selection lane = reduce max K.expertBlockSize loop.selection then (lane : Int)
        else K.expertCount
    else
      reduce max K.expertBlockSize fun lane =>
        if lane < K.expertCount ∧ loop.selection lane = reduce max K.expertBlockSize loop.selection then (lane : Int)
        else -1) = (chosen : Int) := by
    rw [maximum]
    split
    · next lower =>
      refine reduce_min_eq (fun lane _ => ?_) ⟨chosen, inside, by rw [if_pos ⟨member, here⟩]⟩
      split
      · next ties =>
        have order := tied lane ties
        rw [if_pos lower] at order
        omega
      · omega
    · next higher =>
      refine reduce_max_eq (fun lane _ => ?_) ⟨chosen, inside, by rw [if_pos ⟨member, here⟩]⟩
      split
      · next ties =>
        have order := tied lane ties
        rw [if_neg higher] at order
        omega
      · omega
  have weight : (if K.softmax ∧ ¬ K.correctionBiasPresent then reduce max K.expertBlockSize loop.selection
      else reduce (· + ·) K.expertBlockSize fun lane => if (lane : Int) = (chosen : Int) then scores lane else 0) =
      scores chosen := by
    split
    · next plain =>
      rw [maximum, own.uncorrected (by simpa using plain.2)]
    · rw [reduce_add_single inside fun lane _ other => if_neg (by omega), if_pos rfl]
  have apart : ∀ other < slot, K.slotOffset row other ≠ K.slotOffset row slot := by
    intro other earlier
    simp only [TopkConstants.slotOffset]
    omega
  unfold TopkConstants.routeSlot
  simp only [expert, weight]
  refine ⟨fun lane => ?_, ?_, fun other within => ?_, fun other within => ?_⟩
  · show (if (lane : Int) = (chosen : Int) then ⊥ else loop.selection lane) = _
    rw [grown, filled.selection]
    by_cases same : lane = chosen
    · simp [same]
    · rw [if_neg (by omega)]
      simp [same]
  · show loop.normalizer + scores chosen = _
    rw [grown, filled.normalizer]
    simp
  · dsimp only
    rcases Nat.lt_succ_iff_lt_or_eq.mp within with earlier | rfl
    · rw [Function.update_of_ne (apart other earlier), filled.ids other earlier]
    · rw [Function.update_self, stands]
  · dsimp only
    rcases Nat.lt_succ_iff_lt_or_eq.mp within with earlier | rfl
    · rw [Function.update_of_ne (apart other earlier), filled.weights other earlier]
    · rw [Function.update_self, stands]

/-- The loop fills as many slots as it has rounds. -/
theorem routeSlots_filled (own : K.Row scores corrected) {slots : Nat} (bound : slots ≤ K.topk)
    (fresh : ∀ lane, start.selection lane = if lane < K.expertCount then corrected lane else ⊥) (zero : start.normalizer = 0) :
    Filled K row scores corrected slots ((List.range slots).foldl (K.routeSlot row scores) start) := by
  induction slots with
  | zero =>
    refine ⟨fun lane => ?_, by simpa using zero, by simp, by simp⟩
    simpa using fresh lane
  | succ slots ih =>
    rw [List.range_succ, List.foldl_append]
    exact routeSlot_filled own (by omega) (ih (by omega))

/-- The loop writes nothing but its slots. -/
theorem routeSlots_elsewhere {slots : Nat} {offset : Int} (away : ∀ slot < slots, offset ≠ K.slotOffset row slot) :
    ((List.range slots).foldl (K.routeSlot row scores) start).routedIds offset = start.routedIds offset ∧
      ((List.range slots).foldl (K.routeSlot row scores) start).routedWeights offset = start.routedWeights offset := by
  induction slots with
  | zero => exact ⟨rfl, rfl⟩
  | succ slots ih =>
    obtain ⟨ids, weights⟩ := ih fun slot earlier => away slot (by omega)
    have missed := away slots (by omega)
    rw [List.range_succ, List.foldl_append, List.foldl_cons, List.foldl_nil, TopkConstants.routeSlot]
    dsimp only
    rw [Function.update_of_ne missed, Function.update_of_ne missed]
    exact ⟨ids, weights⟩

end loop

/-! ## One row -/

section row

variable {S : Type} [LinearOrder S] [OrderBot S] [AddZeroClass S] {F : Float32 S} {K : TopkConstants} {bias : Nat → S}
  {row : Nat} {tensors : RouterTensors S}

/-- The place of an element in its row says which row it is in. -/
theorem row_of_offset {width i j other : Nat} (first : i < width) (second : j < width)
    (same : row * width + i = other * width + j) : row = other ∧ i = j := by
  have rows := congrArg (· / width) same
  simp only [Nat.mul_comm _ width, Nat.mul_add_div (Nat.zero_lt_of_lt first), Nat.div_eq_of_lt first,
    Nat.div_eq_of_lt second] at rows
  obtain rfl : row = other := by omega
  omega

/-- What selects in a row, from the logits it reads. -/
theorem selection_eq (exact : K.softmax = false → K.logitsDtype = .float32) (wide : K.expertCount ≤ K.expertBlockSize)
    (narrow : K.expertBlockSize ≤ tritonMaxTensorNumel) (logits : Int → S) (lane : Nat) : K.selection F bias row logits lane =
      if lane < K.expertCount then K.corrected F bias (K.rowLogits logits row) lane else ⊥ := by
  unfold TopkConstants.selection
  cases algorithm : K.softmax with
  | true => simp
  | false =>
    by_cases inside : lane < K.expertCount
    · have stored : storeLanes K.expertBlockSize (fun expert => expert < K.expertCount) (K.logitsOffset row)
          (fun expert => F.stored K.logitsDtype (K.corrected F bias (K.rowLogits logits row) expert)) logits
          (K.logitsOffset row lane) = F.stored K.logitsDtype (K.corrected F bias (K.rowLogits logits row) lane) :=
        storeLanes_hit (fun i first j second same => int32_lane_inj narrow _ first second same) (by omega)
          (by simpa using inside)
      have kept : F.stored K.logitsDtype (K.corrected F bias (K.rowLogits logits row) lane) =
          K.corrected F bias (K.rowLogits logits row) lane := by
        rw [exact algorithm, F.stored_float32]
      simp only [Bool.false_eq_true, if_false, if_pos inside]
      rw [TopkConstants.rowLogits, if_pos inside]
      unfold TopkConstants.storeSelection
      rw [if_neg (by simp [algorithm])]
      exact stored.trans kept
    · simp [TopkConstants.rowLogits, inside]

/-- The sum of the selected scores, in order of their slots. -/
def scoreSum (scores : Nat → S) (selected : List Nat) : S :=
  (selected.map scores).foldl (· + ·) 0

/-- The routed entries that a row of logits asks for. -/
structure Routed (F : Float32 S) (K : TopkConstants) (bias logits : Nat → S) (entries : Nat → Option (Int × S)) : Prop where
  entry : ∀ slot < K.topk, entries slot =
    some (((ranking K.softmax (K.corrected F bias logits) K.expertCount).getD slot 0 : Int),
      K.finishWeight F
        (scoreSum (K.scores F logits) ((ranking K.softmax (K.corrected F bias logits) K.expertCount).take K.topk))
        (K.scores F logits ((ranking K.softmax (K.corrected F bias logits) K.expertCount).getD slot 0)))

/-- The routed entries of a row. -/
def TopkConstants.entries (K : TopkConstants) (row : Nat) (tensors : RouterTensors S) (slot : Nat) : Option (Int × S) :=
  if slot < K.topk then
    some (tensors.routedIds (row * K.topk + slot : Nat), tensors.routedWeights (row * K.topk + slot : Nat))
  else none

omit [OrderBot S] in
/-- The weights of a row after the second pass. -/
theorem finishWeights_eq (wide : K.topk ≤ K.topkBlockSize) (narrow : K.topkBlockSize ≤ tritonMaxTensorNumel) (normalizer : S)
    (weights : Int → S) {slot : Nat} (inside : slot < K.topk) :
    K.finishWeights F row normalizer weights (K.outputOffset row slot) =
      K.finishWeight F normalizer (weights (K.outputOffset row slot)) := by
  unfold TopkConstants.finishWeights
  split
  · have stored : storeLanes K.topkBlockSize (fun slot => slot < K.topk) (K.outputOffset row)
        (fun slot => K.finishWeight F normalizer (if slot < K.topk then weights (K.outputOffset row slot) else 0)) weights
        (K.outputOffset row slot) =
          K.finishWeight F normalizer (if slot < K.topk then weights (K.outputOffset row slot) else 0) :=
      storeLanes_hit (fun i first j second same => int32_lane_inj narrow _ first second same) (by omega)
        (by simpa using inside)
    rwa [if_pos inside] at stored
  · next none =>
    simp only [Bool.or_eq_true, not_or, Bool.not_eq_true] at none
    simp [TopkConstants.finishWeight, none.1, none.2]

/-- A program writes the routed entries of its row, as far as its logits are those that it
reads. -/
theorem routerTopkKernel_routed (fits : (row + 1) * K.topk ≤ 2 ^ 31) (exact : K.softmax = false → K.logitsDtype = .float32)
    (own : K.Row (K.scores F (K.rowLogits tensors.logits row)) (K.corrected F bias (K.rowLogits tensors.logits row))) :
    Routed F K bias (K.rowLogits tensors.logits row) (K.entries row (K.routerTopkKernel F bias row tensors)) := by
  have filled : Filled K row (K.scores F (K.rowLogits tensors.logits row)) (K.corrected F bias (K.rowLogits tensors.logits row))
      K.topk (K.routed F bias row tensors) :=
    routeSlots_filled own (le_refl K.topk) (selection_eq exact own.expertBlock own.narrow tensors.logits) rfl
  refine ⟨fun slot inside => ?_⟩
  unfold TopkConstants.entries
  rw [if_pos inside]
  have weight : (K.routerTopkKernel F bias row tensors).routedWeights (K.outputOffset row slot) =
      K.finishWeight F (K.routed F bias row tensors).normalizer
        ((K.routed F bias row tensors).routedWeights (K.outputOffset row slot)) :=
    finishWeights_eq own.topkBlock own.topkNarrow _ _ inside
  have ids := filled.ids slot inside
  have weights := filled.weights slot inside
  rw [TopkConstants.slotOffset_eq fits inside] at ids weights
  rw [TopkConstants.outputOffset_eq fits inside, weights, filled.normalizer] at weight
  exact congrArg some (Prod.ext ids weight)

/-- A program leaves the rows of the others, as long as no offset wraps; the logits are stored to
under Sigmoid only. -/
theorem routerTopkKernel_apart {other : Nat} (logits : K.softmax = false →
      (row + 1) * K.expertCount ≤ 2 ^ 31 ∧ (other + 1) * K.expertCount ≤ 2 ^ 31)
    (fits : (row + 1) * K.topk ≤ 2 ^ 31) (apart : row ≠ other) :
    K.rowLogits (K.routerTopkKernel F bias row tensors).logits other = K.rowLogits tensors.logits other ∧
      K.entries other (K.routerTopkKernel F bias row tensors) = K.entries other tensors := by
  constructor
  · funext lane
    unfold TopkConstants.rowLogits
    split
    · next inside =>
      simp only [TopkConstants.routerTopkKernel, TopkConstants.storeSelection]
      split
      · rfl
      · next sigmoid =>
        apply storeLanes_miss
        intro written _ masked same
        obtain ⟨here, there⟩ := logits (by simpa using sigmoid)
        have masked' : written < K.expertCount := by simpa using masked
        rw [TopkConstants.logitsOffset_eq here masked', TopkConstants.logitsOffset_eq there inside, Nat.cast_inj] at same
        exact apart (row_of_offset masked' inside same).1
    · rfl
  · funext slot
    unfold TopkConstants.entries
    split
    · next inside =>
      have elsewhere : (K.routed F bias row tensors).routedIds (other * K.topk + slot : Nat) =
            tensors.routedIds (other * K.topk + slot : Nat) ∧
          (K.routed F bias row tensors).routedWeights (other * K.topk + slot : Nat) =
            tensors.routedWeights (other * K.topk + slot : Nat) := by
        refine routeSlots_elsewhere fun written earlier same => ?_
        rw [TopkConstants.slotOffset_eq fits earlier, Nat.cast_inj] at same
        exact apart (row_of_offset inside earlier same).1.symm
      refine congrArg some (Prod.ext elsewhere.1 (Eq.trans ?_ elsewhere.2))
      simp only [TopkConstants.routerTopkKernel, TopkConstants.finishWeights]
      split
      · apply storeLanes_miss
        intro written _ masked same
        have masked' : written < K.topk := by simpa using masked
        rw [TopkConstants.outputOffset_eq fits masked', Nat.cast_inj] at same
        exact apart (row_of_offset masked' inside same).1
      · rfl
    · rfl

end row

/-! ## Final metadata -/

section finalization

variable {S : Type} [AddZeroClass S] {F : Float32 S} {K : FinalizeConstants} {payloadRows : Int}
  {routed : RouterTensors S} {program : Nat} {final : RoutingMetadata S} {programs : List Nat} {element : Nat}

/-- What a program has in the elements of its lanes. -/
def FinalizeConstants.elements (K : FinalizeConstants) (program : Nat) (final : RoutingMetadata S) (lane : Nat) :
    Option (Int × S) :=
  if lane < K.blockSize ∧ K.offset program lane < K.elementCount then
    some (final.finalIds (K.offset program lane), final.finalWeights (K.offset program lane))
  else none

/-- The constants of a launch: blocks are not empty, and the elements are int32 many. -/
structure FinalizeConstants.Launched (K : FinalizeConstants) : Prop where
  filled : 0 < K.blockSize
  narrow : K.blockSize ≤ tritonMaxTensorNumel
  small : K.elementCount < 2 ^ 31
  whole : K.blockSize ∣ 2 ^ 31

variable (launched : K.Launched)

include launched

/-- No offset of a launch wraps. -/
theorem offset_eq (listed : program < K.grid) {lane : Nat} (inside : lane < K.blockSize) :
    K.offset program lane = (program * K.blockSize + lane : Nat) := by
  obtain ⟨blocks, whole⟩ := launched.whole
  have filled := launched.filled
  have small := launched.small
  have covered : K.grid ≤ blocks := by
    rw [FinalizeConstants.grid, Nat.div_le_iff_le_mul_add_pred filled, ← whole]
    omega
  have last := Nat.mul_le_mul_right K.blockSize (listed.trans_le covered : program + 1 ≤ blocks)
  rw [Nat.succ_mul, Nat.mul_comm blocks, ← whole] at last
  have fits := int32_of_lt (show program * K.blockSize + lane < 2 ^ 31 by omega)
  push_cast at fits ⊢
  exact fits

omit launched in
/-- A program writes the entries of its elements. -/
theorem finalizeMoeRoutingKernel_elements (narrow : K.blockSize ≤ tritonMaxTensorNumel) {lane : Nat} (inside : lane < K.blockSize)
    (valid : K.offset program lane < K.elementCount) :
    K.elements program (K.finalizeMoeRoutingKernel F payloadRows routed program final) lane =
      some (K.finalId payloadRows routed.routedIds (K.offset program lane),
        K.finalWeight F payloadRows routed.routedWeights (K.offset program lane)) := by
  unfold FinalizeConstants.elements
  rw [if_pos ⟨inside, valid⟩]
  have apart : ∀ i < K.blockSize, ∀ j < K.blockSize, K.offset program i = K.offset program j → i = j :=
    fun i first j second same => int32_lane_inj narrow _ first second same
  exact congrArg some (Prod.ext (storeLanes_hit apart inside (by simpa using valid))
    (storeLanes_hit apart inside (by simpa using valid)))

/-- A program leaves the elements of the others. -/
theorem finalizeMoeRoutingKernel_apart {other : Nat} (listed : program < K.grid) (listed' : other < K.grid)
    (apart : program ≠ other) :
    K.elements other (K.finalizeMoeRoutingKernel F payloadRows routed program final) = K.elements other final := by
  funext lane
  unfold FinalizeConstants.elements
  split
  · next valid =>
    have missed : ∀ written < K.blockSize, decide (K.offset program written < K.elementCount) = true →
        K.offset program written ≠ K.offset other lane := by
      intro written inside _ same
      rw [offset_eq launched listed inside, offset_eq launched listed' valid.1, Nat.cast_inj] at same
      exact apart (row_of_offset inside valid.1 same).1
    refine congrArg some (Prod.ext ?_ ?_)
    · exact storeLanes_miss missed
    · exact storeLanes_miss missed
  · rfl

theorem div_lt_grid (inside : element < K.elementCount) : element / K.blockSize < K.grid := by
  have filled := launched.filled
  unfold FinalizeConstants.grid
  rw [Nat.div_lt_iff_lt_mul filled]
  have rounded := Nat.div_add_mod (K.elementCount + K.blockSize - 1) K.blockSize
  have low := Nat.mod_lt (K.elementCount + K.blockSize - 1) filled
  rw [Nat.mul_comm] at rounded
  omega

/-- The program and the lane that an element belongs to. -/
theorem offset_div_mod (inside : element < K.elementCount) :
    K.offset (element / K.blockSize) (element % K.blockSize) = element ∧ element % K.blockSize < K.blockSize := by
  have low := Nat.mod_lt element launched.filled
  refine ⟨?_, low⟩
  rw [offset_eq launched (div_lt_grid launched inside) low, Nat.mul_comm, Nat.div_add_mod]

/-- What the launch leaves in an element. -/
theorem finalized (all : programs.Perm (List.range K.grid)) (payloadRows : Int) (routed : RouterTensors S)
    (final : RoutingMetadata S) (inside : element < K.elementCount) :
    (launch (K.finalizeMoeRoutingKernel F payloadRows routed) programs final).finalIds element =
        K.finalId payloadRows routed.routedIds element ∧
      (launch (K.finalizeMoeRoutingKernel F payloadRows routed) programs final).finalWeights element =
        K.finalWeight F payloadRows routed.routedWeights element := by
  obtain ⟨same, lane⟩ := offset_div_mod launched inside
  have grid (program : Nat) : program ∈ programs ↔ program < K.grid := all.mem_iff.trans List.mem_range
  have inside' : (element : Int) < K.elementCount := by exact_mod_cast inside
  have each := launch_result (fun _ _ => ()) K.elements
    (fun program _ elements => ∀ lane < K.blockSize, K.offset program lane < K.elementCount →
      elements lane = some (K.finalId payloadRows routed.routedIds (K.offset program lane),
        K.finalWeight F payloadRows routed.routedWeights (K.offset program lane)))
    (fun _ _ _ _ => finalizeMoeRoutingKernel_elements launched.narrow)
    (fun program listed other listed' _ apart =>
      ⟨rfl, finalizeMoeRoutingKernel_apart launched ((grid program).mp listed) ((grid other).mp listed') apart⟩)
    (all.nodup_iff.mpr List.nodup_range) ((grid _).mpr (div_lt_grid launched inside)) final (element % K.blockSize) lane
    (by rwa [same])
  rw [same, FinalizeConstants.elements, same, if_pos ⟨lane, inside'⟩] at each
  exact Prod.ext_iff.mp (Option.some.inj each)

/-- A program writes the elements of its block that exist. -/
theorem mem_writes (listed : program < K.grid) {place : Int} :
    place ∈ K.writes program ↔ ∃ element : Nat, place = element ∧ program = element / K.blockSize ∧ element < K.elementCount := by
  simp only [FinalizeConstants.writes, storedOffsets, List.mem_map, List.mem_filter, List.mem_range, decide_eq_true_eq]
  constructor
  · rintro ⟨lane, ⟨inside, valid⟩, rfl⟩
    rw [offset_eq launched listed inside, Nat.cast_lt] at valid
    refine ⟨_, offset_eq launched listed inside, ?_, valid⟩
    obtain ⟨same, low⟩ := offset_div_mod launched valid
    rw [offset_eq launched (div_lt_grid launched valid) low, Nat.cast_inj] at same
    exact (row_of_offset low inside same).1.symm
  · rintro ⟨element, rfl, rfl, inside⟩
    obtain ⟨same, low⟩ := offset_div_mod launched inside
    exact ⟨element % K.blockSize, ⟨low, by rw [same]; exact_mod_cast inside⟩, same⟩

/-- The writes of a launch are each element once. -/
theorem writes_once (all : programs.Perm (List.range K.grid)) :
    (programs.flatMap K.writes).Nodup ∧
      ∀ place, place ∈ programs.flatMap K.writes ↔ ∃ element : Nat, place = element ∧ element < K.elementCount := by
  have grid (program : Nat) : program ∈ programs ↔ program < K.grid := all.mem_iff.trans List.mem_range
  constructor
  · rw [List.nodup_flatMap]
    constructor
    · intro program _
      refine (List.nodup_range.filter _).map_on ?_
      intro i first j second same
      exact int32_lane_inj launched.narrow _ (List.mem_range.mp (List.mem_of_mem_filter first))
        (List.mem_range.mp (List.mem_of_mem_filter second)) same
    · apply List.Nodup.pairwise_of_forall_ne (all.nodup_iff.mpr List.nodup_range)
      intro first listed second listed' other place one two
      obtain ⟨element, rfl, rfl, -⟩ := (mem_writes launched ((grid first).mp listed)).mp one
      obtain ⟨element', same, rfl, -⟩ := (mem_writes launched ((grid second).mp listed')).mp two
      obtain rfl : element = element' := by exact_mod_cast same
      exact other rfl
  · intro place
    rw [List.mem_flatMap]
    constructor
    · rintro ⟨program, listed, written⟩
      obtain ⟨element, same, -, inside⟩ := (mem_writes launched ((grid program).mp listed)).mp written
      exact ⟨element, same, inside⟩
    · rintro ⟨element, same, inside⟩
      have listed := div_lt_grid launched inside
      exact ⟨_, (grid _).mpr listed, (mem_writes launched listed).mpr ⟨element, same, rfl, inside⟩⟩

omit launched in
/-- The entry at a slot of a row. -/
theorem final_entry {row slot : Nat} (low : row < K.rowCapacity) (inside : slot < K.effectiveTopk) :
    row * K.effectiveTopk + slot < K.elementCount ∧ (row * K.effectiveTopk + slot) / K.effectiveTopk = row ∧
      (row * K.effectiveTopk + slot) % K.effectiveTopk = slot := by
  refine ⟨?_, ?_, ?_⟩
  · calc
      row * K.effectiveTopk + slot < (row + 1) * K.effectiveTopk := by rw [Nat.add_mul]; omega
      _ ≤ K.rowCapacity * K.effectiveTopk := Nat.mul_le_mul_right _ low
  · rw [Nat.mul_comm, Nat.mul_add_div (Nat.zero_lt_of_lt inside), Nat.div_eq_of_lt inside, Nat.add_zero]
  · rw [Nat.mul_comm, Nat.mul_add_mod, Nat.mod_eq_of_lt inside]

end finalization

/-! ## The metadata of a layer -/

section metadata

variable {S : Type} [LinearOrder S] [OrderBot S] [AddZeroClass S] (F : Float32 S) (spec : RouterSpec) (payloadDtype : Dtype)
  (bias : Option (Nat → S))

/-- The activated scores of a row of logits. -/
def RouterSpec.scores (logits : Nat → S) : Nat → S :=
  (spec.topkConstants payloadDtype bias.isSome).scores F logits

/-- The scores of a row with the correction. -/
def RouterSpec.corrected (logits : Nat → S) : Nat → S :=
  (spec.topkConstants payloadDtype bias.isSome).corrected F (bias.getD fun _ => 0) logits

/-- The logits of a row, with `-inf` in padding lanes. -/
def RouterSpec.rowLogits (logits : Int → S) (row expert : Nat) : S :=
  if expert < spec.routedExpertCount then logits (row * spec.routedExpertCount + expert : Nat) else ⊥

/-- The first experts of a row by corrected score: ties go to the lower id under Softmax
and to the higher id under Sigmoid. -/
def RouterSpec.selected (logits : Nat → S) : List Nat :=
  (ranking (spec.algorithm = .softmax) (spec.corrected F payloadDtype bias logits) spec.routedExpertCount).take spec.routedTopk

/-- The Routing Metadata that a layer owes for its logits. -/
structure MetadataExact (rowCapacity : Nat) (payloadRows : Int) (logits : Int → S) (metadata : RoutingMetadata S) : Prop where
  selected : ∀ row < rowCapacity, (row : Int) < payloadRows → ∀ slot < spec.routedTopk, ∃ expert < spec.routedExpertCount,
    (spec.selected F payloadDtype bias (spec.rowLogits logits row))[slot]? = some expert ∧
      metadata.finalIds (row * (spec.routedTopk + spec.sharedExpertCount) + slot : Nat) = expert ∧
      metadata.finalWeights (row * (spec.routedTopk + spec.sharedExpertCount) + slot : Nat) =
        (spec.topkConstants payloadDtype bias.isSome).finishWeight F
          (scoreSum (spec.scores F payloadDtype bias (spec.rowLogits logits row))
            (spec.selected F payloadDtype bias (spec.rowLogits logits row)))
          (spec.scores F payloadDtype bias (spec.rowLogits logits row) expert)
  distinct : ∀ row, (spec.selected F payloadDtype bias (spec.rowLogits logits row)).Nodup
  shared : ∀ row < rowCapacity, (row : Int) < payloadRows → ∀ ordinal < spec.sharedExpertCount,
    metadata.finalIds (row * (spec.routedTopk + spec.sharedExpertCount) + (spec.routedTopk + ordinal) : Nat) =
        spec.routedExpertCount + ordinal ∧
      metadata.finalWeights (row * (spec.routedTopk + spec.sharedExpertCount) + (spec.routedTopk + ordinal) : Nat) =
        F.reciprocal spec.routedScalingFactor
  tail : ∀ row < rowCapacity, ¬ (row : Int) < payloadRows → ∀ slot < spec.routedTopk + spec.sharedExpertCount,
    metadata.finalIds (row * (spec.routedTopk + spec.sharedExpertCount) + slot : Nat) = -1 ∧
      metadata.finalWeights (row * (spec.routedTopk + spec.sharedExpertCount) + slot : Nat) = 0

/-- What the kernels can address: a block holds the experts, and offsets and ids are int32. -/
structure RouterSpec.Addressable (spec : RouterSpec) (rowCapacity : Nat) : Prop where
  experts : spec.routedExpertCount ≤ tritonMaxTensorNumel
  logits : rowCapacity * spec.routedExpertCount ≤ 2 ^ 31
  elements : rowCapacity * (spec.routedTopk + spec.sharedExpertCount) < 2 ^ 31
  ids : spec.routedExpertCount + spec.sharedExpertCount ≤ 2 ^ 31

variable {F spec payloadDtype bias} {rowCapacity : Nat} {capturing : Bool} {payloadRows : Int} {rows programs : List Nat}
  {tensors : RouterTensors S} {final : RoutingMetadata S}

theorem nextPowerOf2_narrow {n : Nat} (narrow : n ≤ tritonMaxTensorNumel) : nextPowerOf2 n ≤ tritonMaxTensorNumel :=
  Nat.pow_le_pow_right (by decide) (Nat.clog_le_of_le_pow narrow)

omit [LinearOrder S] [OrderBot S] in
/-- What the host checks holds of a layer's own shapes. -/
theorem finalizeMoeRouting_eq (elements : rowCapacity * (spec.routedTopk + spec.sharedExpertCount) < 2 ^ 31)
    (served : capturing ∨ 0 < payloadRows ∧ payloadRows ≤ rowCapacity) (routed : RouterTensors S) :
    finalizeMoeRouting F spec (spec.shapes rowCapacity) capturing payloadRows programs routed final =
      .ok (launch ((spec.finalizeConstants rowCapacity).finalizeMoeRoutingKernel F payloadRows routed) programs final) := by
  have small : rowCapacity * (spec.routedTopk + spec.sharedExpertCount) < 2147483648 := elements
  simp [finalizeMoeRouting, RouterSpec.shapes, spec.routedTopk_le, spec.routedScalingFactor_pos, served, small]
  rfl

theorem routeLayer_eq (experts : spec.routedExpertCount ≤ tritonMaxTensorNumel) :
    spec.routeLayer F payloadDtype bias rowCapacity capturing payloadRows rows programs tensors final =
      finalizeMoeRouting F spec (spec.shapes rowCapacity) capturing payloadRows programs
        (launch ((spec.topkConstants payloadDtype bias.isSome).routerTopkKernel F (bias.getD fun _ => 0)) rows tensors)
        final := by
  have block : (spec.topkConstants payloadDtype bias.isSome).expertBlockSize ≤ tritonMaxTensorNumel :=
    nextPowerOf2_narrow experts
  rw [RouterSpec.routeLayer]
  dsimp only
  rw [if_pos block]

/-- A row whose experts have finite scores. -/
theorem topkConstants_row (experts : spec.routedExpertCount ≤ tritonMaxTensorNumel) (logits : Nat → S)
    (finite : ∀ expert < spec.routedExpertCount, ⊥ < spec.corrected F payloadDtype bias logits expert) :
    (spec.topkConstants payloadDtype bias.isSome).Row (spec.scores F payloadDtype bias logits)
      (spec.corrected F payloadDtype bias logits) where
  topk := spec.routedTopk_le
  expertBlock := le_nextPowerOf2 _
  topkBlock := le_nextPowerOf2 _
  narrow := nextPowerOf2_narrow experts
  topkNarrow := nextPowerOf2_narrow (spec.routedTopk_le.trans experts)
  finite := finite
  uncorrected plain := by
    funext expert
    simp only [RouterSpec.corrected, TopkConstants.corrected, plain]
    rfl

omit [LinearOrder S] [OrderBot S] [AddZeroClass S] in
/-- The logits of Sigmoid selection are stored in their own precision. -/
theorem topkConstants_exact (sigmoid : (spec.topkConstants payloadDtype bias.isSome).softmax = false) :
    (spec.topkConstants payloadDtype bias.isSome).logitsDtype = .float32 := by
  have algorithm : spec.algorithm = .sigmoid := by
    cases kind : spec.algorithm with
    | softmax => simp [RouterSpec.topkConstants, kind] at sigmoid
    | sigmoid => rfl
  simp [RouterSpec.topkConstants, RouterSpec.logitsDtype, spec.sigmoid_fp32 algorithm]

/-- The Router's launch writes what each row asks for that it reads. -/
theorem routed_row (experts : spec.routedExpertCount ≤ tritonMaxTensorNumel) (slots : rowCapacity * spec.routedTopk ≤ 2 ^ 31)
    (logits : spec.algorithm = .sigmoid → rowCapacity * spec.routedExpertCount ≤ 2 ^ 31)
    (all : rows.Perm (List.range rowCapacity)) {row : Nat} (low : row < rowCapacity)
    (finite : ∀ expert < spec.routedExpertCount, ⊥ < spec.corrected F payloadDtype bias
      ((spec.topkConstants payloadDtype bias.isSome).rowLogits tensors.logits row) expert) :
    Routed F (spec.topkConstants payloadDtype bias.isSome) (bias.getD fun _ => 0)
      ((spec.topkConstants payloadDtype bias.isSome).rowLogits tensors.logits row)
      ((spec.topkConstants payloadDtype bias.isSome).entries row
        (launch ((spec.topkConstants payloadDtype bias.isSome).routerTopkKernel F (bias.getD fun _ => 0)) rows tensors)) := by
  have within (other : Nat) (listed : other ∈ rows) : other + 1 ≤ rowCapacity := List.mem_range.mp (all.mem_iff.mp listed)
  have slots' (other : Nat) (listed : other ∈ rows) : (other + 1) * spec.routedTopk ≤ 2 ^ 31 :=
    (Nat.mul_le_mul_right _ (within other listed)).trans slots
  refine launch_result
    (fun row (tensors : RouterTensors S) => (spec.topkConstants payloadDtype bias.isSome).rowLogits tensors.logits row)
    (spec.topkConstants payloadDtype bias.isSome).entries
    (fun _ logits entries => (∀ expert < spec.routedExpertCount, ⊥ < spec.corrected F payloadDtype bias logits expert) →
      Routed F (spec.topkConstants payloadDtype bias.isSome) (bias.getD fun _ => 0) logits entries)
    (fun row listed tensors finite => ?_) (fun row listed other listed' tensors apart => ?_)
    (all.nodup_iff.mpr List.nodup_range) (all.mem_iff.mpr (List.mem_range.mpr low)) tensors finite
  · exact routerTopkKernel_routed (slots' row listed) topkConstants_exact (topkConstants_row experts _ finite)
  · refine routerTopkKernel_apart (fun sigmoid => ?_) (slots' row listed) apart
    have bounded := logits (by
      cases kind : spec.algorithm with
      | softmax => simp [RouterSpec.topkConstants, kind] at sigmoid
      | sigmoid => rfl)
    exact ⟨(Nat.mul_le_mul_right _ (within row listed)).trans bounded,
      (Nat.mul_le_mul_right _ (within other listed')).trans bounded⟩

omit [AddZeroClass S] in
/-- Where no offset wraps the kernel reads the logits of the row. -/
theorem rowLogits_eq (logits : rowCapacity * spec.routedExpertCount ≤ 2 ^ 31) {row : Nat} (low : row < rowCapacity)
    (memory : Int → S) : (spec.topkConstants payloadDtype bias.isSome).rowLogits memory row = spec.rowLogits memory row := by
  funext expert
  by_cases inside : expert < spec.routedExpertCount
  · have here : expert < (spec.topkConstants payloadDtype bias.isSome).expertCount := inside
    have place := TopkConstants.logitsOffset_eq ((Nat.mul_le_mul_right _ (Nat.succ_le_of_lt low)).trans logits) here
    rw [TopkConstants.rowLogits, if_pos here, place, RouterSpec.rowLogits, if_pos inside]
    rfl
  · have beyond : ¬expert < (spec.topkConstants payloadDtype bias.isSome).expertCount := inside
    rw [TopkConstants.rowLogits, if_neg beyond, RouterSpec.rowLogits, if_neg inside]

omit [LinearOrder S] [OrderBot S] [AddZeroClass S] in
theorem finalizeConstants_launched (elements : rowCapacity * (spec.routedTopk + spec.sharedExpertCount) < 2 ^ 31) :
    (spec.finalizeConstants rowCapacity).Launched where
  filled := Nat.succ_pos 255
  narrow := show 256 ≤ 2 ^ 20 from by decide
  small := elements
  whole := show 256 ∣ 2 ^ 31 from ⟨2 ^ 23, by decide⟩

omit [LinearOrder S] [OrderBot S] in
/-- The element at a slot of a row, once both launches are over. -/
theorem finalized_entry (elements : rowCapacity * (spec.routedTopk + spec.sharedExpertCount) < 2 ^ 31)
    (all : programs.Perm (List.range (spec.finalizeConstants rowCapacity).grid)) (payloadRows : Int)
    (routed : RouterTensors S) (final : RoutingMetadata S) {row slot : Nat} (low : row < rowCapacity)
    (inside : slot < spec.routedTopk + spec.sharedExpertCount) :
    (launch ((spec.finalizeConstants rowCapacity).finalizeMoeRoutingKernel F payloadRows routed) programs final).finalIds
          (row * (spec.routedTopk + spec.sharedExpertCount) + slot : Nat) =
        (if (row : Int) < payloadRows then
          if slot < spec.routedTopk then routed.routedIds (row * spec.routedTopk + slot : Nat)
          else int32 (spec.routedExpertCount + slot - spec.routedTopk)
        else -1) ∧
      (launch ((spec.finalizeConstants rowCapacity).finalizeMoeRoutingKernel F payloadRows routed) programs final).finalWeights
          (row * (spec.routedTopk + spec.sharedExpertCount) + slot : Nat) =
        if (row : Int) < payloadRows then
          if slot < spec.routedTopk then routed.routedWeights (row * spec.routedTopk + slot : Nat)
          else F.reciprocal spec.routedScalingFactor
        else 0 := by
  obtain ⟨valid, rowOf, slotOf⟩ := final_entry (K := spec.finalizeConstants rowCapacity) low inside
  obtain ⟨ids, weights⟩ := finalized (F := F) (finalizeConstants_launched elements) all payloadRows routed final valid
  have rowOf' : Int.tdiv (row * (spec.finalizeConstants rowCapacity).effectiveTopk + slot : Nat)
      (spec.finalizeConstants rowCapacity).effectiveTopk = row := by
    rw [← Int.ofNat_tdiv, rowOf]
  have slotOf' : Int.tmod (row * (spec.finalizeConstants rowCapacity).effectiveTopk + slot : Nat)
      (spec.finalizeConstants rowCapacity).effectiveTopk = slot := by
    rw [← Int.ofNat_tmod, slotOf]
  have valid' : ((row * (spec.finalizeConstants rowCapacity).effectiveTopk + slot : Nat) : Int) <
      (spec.finalizeConstants rowCapacity).elementCount := by exact_mod_cast valid
  simp only [FinalizeConstants.finalId, FinalizeConstants.finalWeight, rowOf', slotOf', valid', true_and] at ids weights
  have place (first : slot < spec.routedTopk) : int32 (row * spec.routedTopk + slot) = (row * spec.routedTopk + slot : Nat) := by
    have bounded : (row + 1) * (spec.routedTopk + spec.sharedExpertCount) < 2 ^ 31 :=
      (Nat.mul_le_mul_right _ (Nat.succ_le_of_lt low)).trans_lt elements
    have fewer := Nat.mul_le_mul_left (row + 1) (Nat.le_add_right spec.routedTopk spec.sharedExpertCount)
    rw [Nat.succ_mul] at fewer
    have reached := int32_of_lt (show row * spec.routedTopk + slot < 2 ^ 31 by omega)
    push_cast at reached ⊢
    exact reached
  refine ⟨ids.trans ?_, weights.trans ?_⟩
  · by_cases live : (row : Int) < payloadRows
    · by_cases first : slot < spec.routedTopk
      · simp [RouterSpec.finalizeConstants, live, first, place first]
      · simp [RouterSpec.finalizeConstants, live, first]
    · simp [live]
  · by_cases live : (row : Int) < payloadRows
    · by_cases first : slot < spec.routedTopk
      · simp [RouterSpec.finalizeConstants, live, first, place first]
      · simp [RouterSpec.finalizeConstants, live, first]
    · simp [live]

variable (spec payloadDtype bias tensors final) in
/-- A routed entry of a live row, by what the Router read of the row. -/
theorem live_entry (experts : spec.routedExpertCount ≤ tritonMaxTensorNumel)
    (elements : rowCapacity * (spec.routedTopk + spec.sharedExpertCount) < 2 ^ 31)
    (logits : spec.algorithm = .sigmoid → rowCapacity * spec.routedExpertCount ≤ 2 ^ 31)
    (allRows : rows.Perm (List.range rowCapacity))
    (allPrograms : programs.Perm (List.range (spec.finalizeConstants rowCapacity).grid)) {row slot : Nat}
    (low : row < rowCapacity) (live : (row : Int) < payloadRows) (inside : slot < spec.routedTopk) {read : Nat → S}
    (reads : (spec.topkConstants payloadDtype bias.isSome).rowLogits tensors.logits row = read)
    (finite : ∀ expert < spec.routedExpertCount, ⊥ < spec.corrected F payloadDtype bias read expert) :
    (launch ((spec.finalizeConstants rowCapacity).finalizeMoeRoutingKernel F payloadRows
        (launch ((spec.topkConstants payloadDtype bias.isSome).routerTopkKernel F (bias.getD fun _ => 0)) rows tensors))
      programs final).finalIds (row * (spec.routedTopk + spec.sharedExpertCount) + slot : Nat) =
        (ranking (spec.algorithm = .softmax) (spec.corrected F payloadDtype bias read) spec.routedExpertCount).getD slot 0 ∧
      (launch ((spec.finalizeConstants rowCapacity).finalizeMoeRoutingKernel F payloadRows
          (launch ((spec.topkConstants payloadDtype bias.isSome).routerTopkKernel F (bias.getD fun _ => 0)) rows tensors))
        programs final).finalWeights (row * (spec.routedTopk + spec.sharedExpertCount) + slot : Nat) =
          (spec.topkConstants payloadDtype bias.isSome).finishWeight F
            (scoreSum (spec.scores F payloadDtype bias read) (spec.selected F payloadDtype bias read))
            (spec.scores F payloadDtype bias read
              ((ranking (spec.algorithm = .softmax) (spec.corrected F payloadDtype bias read) spec.routedExpertCount).getD
                slot 0)) := by
  subst reads
  obtain ⟨ids, weights⟩ := finalized_entry (F := F) elements allPrograms payloadRows
    (launch ((spec.topkConstants payloadDtype bias.isSome).routerTopkKernel F (bias.getD fun _ => 0)) rows tensors) final low
    (show slot < spec.routedTopk + spec.sharedExpertCount by omega)
  have slots : rowCapacity * spec.routedTopk ≤ 2 ^ 31 :=
    (Nat.mul_le_mul_left rowCapacity (Nat.le_add_right _ _)).trans elements.le
  have entry := (routed_row experts slots logits allRows low finite).entry slot inside
  rw [TopkConstants.entries, if_pos (show slot < (spec.topkConstants payloadDtype bias.isSome).topk from inside)] at entry
  obtain ⟨id, weight⟩ := Prod.ext_iff.mp (Option.some.inj entry)
  rw [if_pos live, if_pos inside] at ids weights
  exact ⟨ids.trans id, weights.trans weight⟩

/-- The Routing Metadata of a layer that the kernels can address is the exact top-k of every
live row with the shared experts, in whatever order the programs run, and each element is
written once. -/
theorem routing_metadata_exact (addressable : spec.Addressable rowCapacity) (allRows : rows.Perm (List.range rowCapacity))
    (allPrograms : programs.Perm (List.range (spec.finalizeConstants rowCapacity).grid))
    (served : capturing ∨ 0 < payloadRows ∧ payloadRows ≤ rowCapacity)
    (finite : ∀ row < rowCapacity, (row : Int) < payloadRows → ∀ expert < spec.routedExpertCount,
      ⊥ < spec.corrected F payloadDtype bias (spec.rowLogits tensors.logits row) expert) :
    (∃ metadata, spec.routeLayer F payloadDtype bias rowCapacity capturing payloadRows rows programs tensors final =
        .ok metadata ∧ MetadataExact F spec payloadDtype bias rowCapacity payloadRows tensors.logits metadata) ∧
      (programs.flatMap (spec.finalizeConstants rowCapacity).writes).Nodup ∧
      (∀ place, place ∈ programs.flatMap (spec.finalizeConstants rowCapacity).writes ↔
        ∃ element : Nat, place = element ∧ element < rowCapacity * (spec.routedTopk + spec.sharedExpertCount)) ∧
      ∀ first ∈ programs, ∀ second ∈ programs, ∀ place, place ∈ (spec.finalizeConstants rowCapacity).writes first →
        place ∈ (spec.finalizeConstants rowCapacity).writes second → first = second := by
  obtain ⟨experts, logits, elements, small⟩ := addressable
  have launched := finalizeConstants_launched elements
  have grid (program : Nat) : program ∈ programs ↔ program < (spec.finalizeConstants rowCapacity).grid :=
    allPrograms.mem_iff.trans List.mem_range
  refine ⟨⟨_, (routeLayer_eq experts).trans (finalizeMoeRouting_eq elements served _), ?_, fun row => ?_, ?_, ?_⟩,
    (writes_once launched allPrograms).1, (writes_once launched allPrograms).2, ?_⟩
  · intro row low live slot inside
    obtain ⟨id, weight⟩ := live_entry spec payloadDtype bias tensors final experts elements (fun _ => logits) allRows
      allPrograms low live inside (rowLogits_eq logits low tensors.logits) (finite row low live)
    have long : slot < (ranking (spec.algorithm = .softmax)
        (spec.corrected F payloadDtype bias (spec.rowLogits tensors.logits row)) spec.routedExpertCount).length := by
      rw [ranking_length]
      exact Nat.lt_of_lt_of_le inside spec.routedTopk_le
    rw [List.getD_eq_getElem _ 0 long] at id weight
    refine ⟨_, mem_ranking.mp (List.getElem_mem long), ?_, id, weight⟩
    rw [RouterSpec.selected, List.getElem?_take_of_lt inside]
    exact List.getElem?_eq_getElem long
  · exact ranking_nodup.sublist (List.take_sublist _ _)
  · intro row low live ordinal inside
    obtain ⟨ids, weights⟩ := finalized_entry (F := F) elements allPrograms payloadRows
      (launch ((spec.topkConstants payloadDtype bias.isSome).routerTopkKernel F (bias.getD fun _ => 0)) rows tensors) final low
      (show spec.routedTopk + ordinal < spec.routedTopk + spec.sharedExpertCount by omega)
    rw [if_pos live, if_neg (by omega)] at ids weights
    refine ⟨?_, weights⟩
    have value : (spec.routedExpertCount : Int) + (spec.routedTopk + ordinal : Nat) - spec.routedTopk =
        (spec.routedExpertCount + ordinal : Nat) := by
      push_cast
      omega
    rw [ids, value, int32_of_lt (by omega)]
    push_cast
    rfl
  · intro row low dead slot inside
    obtain ⟨ids, weights⟩ := finalized_entry (F := F) elements allPrograms payloadRows
      (launch ((spec.topkConstants payloadDtype bias.isSome).routerTopkKernel F (bias.getD fun _ => 0)) rows tensors) final low inside
    rw [if_neg dead] at ids weights
    exact ⟨ids, weights⟩
  · intro first listed second listed' place one two
    obtain ⟨element, same, owner, -⟩ := (mem_writes launched ((grid first).mp listed)).mp one
    obtain ⟨element', same', owner', -⟩ := (mem_writes launched ((grid second).mp listed')).mp two
    obtain rfl : element = element' := by exact_mod_cast same.symm.trans same'
    exact owner.trans owner'.symm

end metadata

/-- Single precision at a few values: logits are zero or one, or padding. -/
def coarse : Float32 (WithBot ℚ) where
  exp x := if x = ⊥ then 0 else if x = 0 then 1 else (1 / 2 : ℚ)
  sigmoid x := if x = ⊥ then 0 else (1 / 2 : ℚ)
  sub := WithBot.map₂ (· - ·)
  div := WithBot.map₂ (· / ·)
  one := 1
  reciprocal factor := (1 / factor : ℚ)
  stored _ x := x
  stored_float32 _ := rfl

/-- Two of three routed experts and a shared one. -/
def twoOfThree : RouterSpec where
  algorithm := .sigmoid
  projectionPrecision := .fp32
  weightRounding := .none
  routedExpertCount := 3
  sharedExpertCount := 1
  routedTopk := 2
  renormalize := true
  routedScalingFactor := 2
  routedTopk_le := by decide
  sigmoid_fp32 _ := rfl
  routedScalingFactor_pos := by norm_num

theorem routing_metadata_exact_undecided :
    (∃ metadata, twoOfThree.routeLayer coarse .bfloat16 none 2 false 1 [1, 0] [0] ⟨fun _ => 0, fun _ => 0, fun _ => 0⟩
        ⟨fun _ => 0, fun _ => 0⟩ = .ok metadata ∧ MetadataExact coarse twoOfThree .bfloat16 none 2 1 (fun _ => 0) metadata) ∧
      ([0].flatMap (twoOfThree.finalizeConstants 2).writes).Nodup ∧
      (∀ place, place ∈ [0].flatMap (twoOfThree.finalizeConstants 2).writes ↔
        ∃ element : Nat, place = element ∧ element < 2 * (2 + 1)) ∧
      ∀ first ∈ [0], ∀ second ∈ [0], ∀ place, place ∈ (twoOfThree.finalizeConstants 2).writes first →
        place ∈ (twoOfThree.finalizeConstants 2).writes second → first = second :=
  routing_metadata_exact ⟨by decide, by decide, by decide, by decide⟩ (by decide) (by decide) (by decide) (by
    have positive : ∀ expert < 3, ⊥ < twoOfThree.corrected coarse .bfloat16 none
        (twoOfThree.rowLogits (fun _ => (0 : WithBot ℚ)) 0) expert := by decide +kernel
    intro row low live
    obtain rfl : row = 0 := by omega
    exact positive)

/-- The better of some experts. -/
def oneOf (experts : Nat) (some' : 1 ≤ experts) : RouterSpec where
  algorithm := .softmax
  projectionPrecision := .payload
  weightRounding := .none
  routedExpertCount := experts
  sharedExpertCount := 0
  routedTopk := 1
  renormalize := false
  routedScalingFactor := 1
  routedTopk_le := some'
  sigmoid_fp32 := by
    intro impossible
    cases impossible
  routedScalingFactor_pos := by norm_num

/-- The first expert of row `2 ^ 30` has a logit of one, and so has what lies as far before the
logits as its offset wraps to, but for one place. -/
def stray (place : Int) : WithBot ℚ :=
  if place = 2 ^ 31 ∨ place = 1 - 2 ^ 31 then 1 else 0

theorem stray_finite (row : Nat) : ∀ expert < 2,
    ⊥ < (oneOf 2 one_le_two).corrected coarse .bfloat16 none ((oneOf 2 one_le_two).rowLogits stray row) expert := by
  by_cases last : row = 2 ^ 30
  · subst last
    decide +kernel
  · have plain : (oneOf 2 one_le_two).rowLogits stray row = fun expert => if expert < 2 then 0 else ⊥ := by
      funext expert
      change (if expert < 2 then if ((row * 2 + expert : Nat) : Int) = 2 ^ 31 ∨ ((row * 2 + expert : Nat) : Int) = 1 - 2 ^ 31
        then (1 : WithBot ℚ) else 0 else ⊥) = _
      by_cases inside : expert < 2
      · have elsewhere : ¬(((row * 2 + expert : Nat) : Int) = 2 ^ 31 ∨ ((row * 2 + expert : Nat) : Int) = 1 - 2 ^ 31) := by
          omega
        simp only [inside, elsewhere, if_true, if_false]
      · simp only [inside, if_false]
    rw [plain]
    decide +kernel

/-- With two experts and more than `2 ^ 30` rows the last row selects by what lies before the logits.
Element counts that are not int32 and blocks that are too wide are refused, and ids wrap. -/
theorem routing_metadata_wraps :
    ((∀ row < 2 ^ 30 + 1, ∀ expert < 2,
        ⊥ < (oneOf 2 one_le_two).corrected coarse .bfloat16 none ((oneOf 2 one_le_two).rowLogits stray row) expert) ∧
      ∃ metadata, (oneOf 2 one_le_two).routeLayer coarse .bfloat16 none (2 ^ 30 + 1) false (2 ^ 30 + 1)
          (List.range (2 ^ 30 + 1)) (List.range ((oneOf 2 one_le_two).finalizeConstants (2 ^ 30 + 1)).grid)
          ⟨stray, fun _ => 0, fun _ => 0⟩ ⟨fun _ => 0, fun _ => 0⟩ = .ok metadata ∧
        ¬MetadataExact coarse (oneOf 2 one_le_two) .bfloat16 none (2 ^ 30 + 1) (2 ^ 30 + 1) stray metadata) ∧
      (∀ rows programs, (oneOf 2 one_le_two).routeLayer coarse .bfloat16 none (2 ^ 31) true 1 rows programs
        ⟨stray, fun _ => 0, fun _ => 0⟩ ⟨fun _ => 0, fun _ => 0⟩ = .error "Scalar is out of range for type int32") ∧
      (∀ rows programs, (oneOf (2 ^ 20 + 1) (Nat.le_add_left 1 _)).routeLayer coarse .bfloat16 none 1 true 1 rows programs
        ⟨stray, fun _ => 0, fun _ => 0⟩ ⟨fun _ => 0, fun _ => 0⟩ =
          .error "numel exceeds triton maximum tensor numel") ∧
      (FinalizeConstants.mk 1 1 (2 ^ 31 - 1) 3 1 256).finalId 1 (fun _ => 0) (2 ^ 31 - 2) = -2 ^ 31 := by
  refine ⟨⟨fun row _ => stray_finite row, _,
    (routeLayer_eq (by decide)).trans (finalizeMoeRouting_eq (by decide) (.inr ⟨by decide, by decide⟩) _), ?_⟩, ?_, ?_, ?_⟩
  · intro claimed
    obtain ⟨expert, -, best, id, -⟩ := claimed.selected (2 ^ 30) (by decide) (by decide) 0 (by decide)
    have chosen : (oneOf 2 one_le_two).selected coarse .bfloat16 none ((oneOf 2 one_le_two).rowLogits stray (2 ^ 30)) = [0] := by
      decide +kernel
    rw [chosen] at best
    obtain rfl : 0 = expert := Option.some.inj best
    obtain ⟨misled, -⟩ := live_entry (F := coarse) (oneOf 2 one_le_two) .bfloat16 none
      ⟨stray, fun _ => 0, fun _ => 0⟩ ⟨fun _ => 0, fun _ => 0⟩ (by decide)
      (by decide : (2 ^ 30 + 1) * 1 < 2 ^ 31) (fun impossible => by cases impossible) (List.Perm.refl _) (List.Perm.refl _)
      (by decide : 2 ^ 30 < 2 ^ 30 + 1) (by decide : ((2 ^ 30 : Nat) : Int) < 2 ^ 30 + 1) (by decide : 0 < 1) rfl
      (by decide +kernel)
    have second : (ranking ((oneOf 2 one_le_two).algorithm = .softmax)
        ((oneOf 2 one_le_two).corrected coarse .bfloat16 none
          (((oneOf 2 one_le_two).topkConstants .bfloat16 false).rowLogits stray (2 ^ 30))) 2).getD 0 0 = 1 := by
      decide +kernel
    exact absurd (id.symm.trans (misled.trans (congrArg Nat.cast second))) (by decide)
  · intro rows programs
    rw [routeLayer_eq (by decide)]
    simp [finalizeMoeRouting, RouterSpec.shapes, oneOf]
    rfl
  · intro rows programs
    have wide : ¬((oneOf (2 ^ 20 + 1) (Nat.le_add_left 1 _)).topkConstants .bfloat16 (none : Option (Nat → WithBot ℚ)).isSome).expertBlockSize ≤
        tritonMaxTensorNumel := fun narrow => absurd ((le_nextPowerOf2 _).trans narrow) (by decide)
    rw [RouterSpec.routeLayer]
    dsimp only
    rw [if_neg wide]
    rfl
  · decide +kernel

end CrossPool.FfnAgent
