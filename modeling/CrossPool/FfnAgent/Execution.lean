import CrossPool.Lib.Layout
import CrossPool.Lib.Procedure

/-!
# Execution descriptors

What an FfnAgent is given to install once: for every lane the captured signatures, and
for every local layer the signatures that can execute it. Installation validates each
capture on its own, the layers against the signatures of the first lane, and the other
lanes against the first.
-/

namespace CrossPool.FfnAgent

open CrossPool.Lib

/-! ## Checks -/

/-- `TORCH_CHECK` -/
def torchCheck (passes : Bool) (message : String) : Except String Unit :=
  if passes then .ok () else .error message

/-- `checked::sum` -/
def sum (first value : Nat) : Except String Nat :=
  (checkedSum first [value]).elim (.error "xpool checked integer sum overflows result type") .ok

/-- `checked::prod` -/
def prod (values : List Nat) : Except String Nat :=
  (checkedProd values).elim (.error "xpool checked integer product overflows result type") .ok

theorem torchCheck_eq_ok {passes : Bool} {message : String} {u : Unit} :
    torchCheck passes message = .ok u ↔ passes = true := by
  cases passes with
  | true => simp [torchCheck]
  | false => simp [torchCheck]

/-! ## Weight bindings -/

/-- Encoded values, optional scales and optional additive bias of one projection. -/
structure ProjectionBindingView where
  values : Nat
  valuesBytes : Nat
  scales : Option Nat
  scalesBytes : Nat
  bias : Option Nat
  biasBytes : Nat
deriving DecidableEq, Repr

/-- An optional address with the bytes behind it. -/
def presentWithBytes (address : Option Nat) (bytes : Nat) : Bool :=
  match address with
  | some address => address ≠ 0 && bytes ≠ 0
  | none => bytes = 0

def ProjectionBindingView.validate (projection : ProjectionBindingView) : Except String Unit := do
  torchCheck (projection.values ≠ 0 && projection.valuesBytes ≠ 0)
    "xpool projection values require a nonnull address and positive extent"
  torchCheck (presentWithBytes projection.scales projection.scalesBytes)
    "xpool projection scale presence and byte extent disagree"
  torchCheck (presentWithBytes projection.bias projection.biasBytes)
    "xpool projection bias presence and byte extent disagree"

def ProjectionBindingView.schemaMatches (projection other : ProjectionBindingView) : Bool :=
  projection.valuesBytes = other.valuesBytes && projection.scales.isSome = other.scales.isSome &&
    projection.scalesBytes = other.scalesBytes && projection.bias.isSome = other.bias.isSome &&
    projection.biasBytes = other.biasBytes

structure MoeRouterBindingView where
  projection : ProjectionBindingView
  correctionBiasAddress : Option Nat
  correctionBiasBytes : Nat
deriving DecidableEq, Repr

def MoeRouterBindingView.validate (router : MoeRouterBindingView) : Except String Unit := do
  router.projection.validate
  torchCheck (presentWithBytes router.correctionBiasAddress router.correctionBiasBytes)
    "xpool Router correction-bias presence and byte extent disagree"

def MoeRouterBindingView.schemaMatches (router other : MoeRouterBindingView) : Bool :=
  router.projection.schemaMatches other.projection &&
    router.correctionBiasAddress.isSome = other.correctionBiasAddress.isSome &&
    router.correctionBiasBytes = other.correctionBiasBytes

structure DenseBindingView where
  gateUp : ProjectionBindingView
  down : ProjectionBindingView
deriving DecidableEq, Repr

structure MoeBindingView where
  gateUp : ProjectionBindingView
  down : ProjectionBindingView
  router : Option MoeRouterBindingView
deriving DecidableEq, Repr

inductive BindingView where
  | dense (view : DenseBindingView)
  | moe (view : MoeBindingView)
deriving DecidableEq, Repr

namespace BindingView

def gateUp : BindingView → ProjectionBindingView
  | dense view => view.gateUp
  | moe view => view.gateUp

def down : BindingView → ProjectionBindingView
  | dense view => view.down
  | moe view => view.down

def router : BindingView → Option MoeRouterBindingView
  | dense _ => none
  | moe view => view.router

/-- The checks of one layer's target resources. -/
def validate (view : BindingView) : Except String Unit := do
  view.gateUp.validate
  view.down.validate
  (view.router.toList).forM MoeRouterBindingView.validate

/-- Same kind, and the same schema of each resource. -/
def schemaMatches : BindingView → BindingView → Bool
  | dense view, dense other => view.gateUp.schemaMatches other.gateUp && view.down.schemaMatches other.down
  | moe view, moe other =>
    view.gateUp.schemaMatches other.gateUp && view.down.schemaMatches other.down &&
      match view.router, other.router with
      | none, none => true
      | some router, some other => router.schemaMatches other
      | _, _ => false
  | _, _ => false

end BindingView

/-! ## Captures -/

/-- `c10::ScalarType`; a type that payloads cannot have keeps its number and size. -/
inductive ScalarType where
  | bFloat16
  | half
  | other (number elementSize : Nat)
deriving DecidableEq, Repr

/-- `c10::elementSize` -/
def ScalarType.elementSize : ScalarType → Nat
  | bFloat16 => 2
  | half => 2
  | other _ elementSize => elementSize

/-- `is_supported_payload_dtype` -/
def ScalarType.isSupportedPayload (type : ScalarType) : Bool :=
  type = bFloat16 || type = half

structure CapturedResourceRange where
  key : String
  primaryAddress : Nat
  controlAddress : Nat
  bytes : Nat
  sharedReadOnly : Bool
deriving DecidableEq, Repr

structure DenseCaptureDescriptor where
  payloadDtype : ScalarType
  payloadRowCapacity : Nat
  hiddenSize : Nat
  localIntermediateSize : Nat
  primaryGraphAddress : Nat
  controlGraphAddress : Nat
  captureInputAddress : Nat
  capturePartialAddress : Nat
  captureRanges : List CapturedResourceRange
  primaryWeightBindings : DenseBindingView
  controlWeightBindings : DenseBindingView
deriving DecidableEq, Repr

structure MoeCaptureDescriptor where
  payloadDtype : ScalarType
  payloadRowCapacity : Nat
  hiddenSize : Nat
  localIntermediateSize : Nat
  expertCount : Nat
  effectiveTopk : Nat
  routedExpertCount : Option Nat
  primaryGraphAddress : Nat
  controlGraphAddress : Nat
  captureInputAddress : Nat
  capturePartialAddress : Nat
  captureRanges : List CapturedResourceRange
  captureRoutingMetadataAddress : Nat
  capturePayloadRowsAddress : Option Nat
  primaryWeightBindings : MoeBindingView
  controlWeightBindings : MoeBindingView
deriving DecidableEq, Repr

inductive CaptureDescriptor where
  | dense (capture : DenseCaptureDescriptor)
  | moe (capture : MoeCaptureDescriptor)
deriving DecidableEq, Repr

namespace CaptureDescriptor

def payloadDtype : CaptureDescriptor → ScalarType
  | dense capture => capture.payloadDtype
  | moe capture => capture.payloadDtype

def payloadRowCapacity : CaptureDescriptor → Nat
  | dense capture => capture.payloadRowCapacity
  | moe capture => capture.payloadRowCapacity

def hiddenSize : CaptureDescriptor → Nat
  | dense capture => capture.hiddenSize
  | moe capture => capture.hiddenSize

def primaryGraphAddress : CaptureDescriptor → Nat
  | dense capture => capture.primaryGraphAddress
  | moe capture => capture.primaryGraphAddress

def controlGraphAddress : CaptureDescriptor → Nat
  | dense capture => capture.controlGraphAddress
  | moe capture => capture.controlGraphAddress

def captureInputAddress : CaptureDescriptor → Nat
  | dense capture => capture.captureInputAddress
  | moe capture => capture.captureInputAddress

def capturePartialAddress : CaptureDescriptor → Nat
  | dense capture => capture.capturePartialAddress
  | moe capture => capture.capturePartialAddress

def captureRanges : CaptureDescriptor → List CapturedResourceRange
  | dense capture => capture.captureRanges
  | moe capture => capture.captureRanges

def primaryWeightBindings : CaptureDescriptor → BindingView
  | dense capture => .dense capture.primaryWeightBindings
  | moe capture => .moe capture.primaryWeightBindings

def controlWeightBindings : CaptureDescriptor → BindingView
  | dense capture => .dense capture.controlWeightBindings
  | moe capture => .moe capture.controlWeightBindings

end CaptureDescriptor

/-! ## One capture -/

/-- A resource in memory: its address and the first address behind it. -/
abbrev Interval := Nat × Nat

def interval (address bytes : Nat) : Except String Interval := do
  pure (address, ← sum address bytes)

/-- `append_projection_intervals` -/
def projectionIntervals (projection : ProjectionBindingView) : Except String (List Interval) := do
  let values ← interval projection.values projection.valuesBytes
  let scales ← projection.scales.toList.mapM fun scales => interval scales projection.scalesBytes
  let bias ← projection.bias.toList.mapM fun bias => interval bias projection.biasBytes
  pure (values :: scales ++ bias)

/-- `append_resources` -/
def resourceIntervals (view : BindingView) : Except String (List Interval) := do
  let gateUp ← projectionIntervals view.gateUp
  let down ← projectionIntervals view.down
  let router ← view.router.toList.mapM fun router => do
    let projection ← projectionIntervals router.projection
    let bias ← router.correctionBiasAddress.toList.mapM fun bias => interval bias router.correctionBiasBytes
    pure (projection ++ bias)
  pure (gateUp ++ down ++ router.flatten)

/-- Bytes of one routed expert: its identifier and its weight. -/
def routeBytes : Nat :=
  8

/-- The bindings that both captures share. -/
def sharedIntervals (signature : CaptureDescriptor) : Except String (List Interval) := do
  let ioBytes ← prod [signature.payloadRowCapacity, signature.hiddenSize, signature.payloadDtype.elementSize]
  let input ← interval signature.captureInputAddress ioBytes
  let output ← interval signature.capturePartialAddress ioBytes
  match signature with
  | .dense _ => pure [input, output]
  | .moe capture => do
    let routing ← prod [capture.payloadRowCapacity, capture.effectiveTopk, routeBytes]
    let metadata ← interval capture.captureRoutingMetadataAddress routing
    let rows ← capture.capturePayloadRowsAddress.toList.mapM fun rows => interval rows 8
    pure (input :: output :: metadata :: rows)

/-- `append_region` -/
def appendRegion (region : CapturedResourceRange) (intervals : List Interval) (address : Nat) :
    Except String (List Interval) := do
  torchCheck (address ≠ 0) "xpool captured resource requires a nonnull address"
  let last ← sum address region.bytes
  intervals.forM fun other =>
    torchCheck (other.2 ≤ address || last ≤ other.1) "xpool captured resource overlaps another declared resource"
  pure (intervals ++ [(address, last)])

/-- What the loop over captured resources carries. -/
structure ResourceScan where
  keys : List String
  primary : List Interval
  control : List Interval

def inspectRegion (scan : ResourceScan) (region : CapturedResourceRange) : Except String ResourceScan := do
  torchCheck (region.key ≠ "" && region.key ∉ scan.keys) "xpool captured resource identities must be nonempty and unique"
  torchCheck (region.bytes ≠ 0) "xpool captured resource requires a positive logical extent"
  let primary ← appendRegion region scan.primary region.primaryAddress
  let control ← appendRegion region scan.control region.controlAddress
  pure ⟨region.key :: scan.keys, primary, control⟩

/-- `validate_resources` -/
def validateResources (signature : CaptureDescriptor) : Except String Unit := do
  let shared ← sharedIntervals signature
  shared.forM fun binding => torchCheck (binding.1 ≠ 0) "xpool capture bindings require nonnull addresses"
  let primary ← resourceIntervals signature.primaryWeightBindings
  let control ← resourceIntervals signature.controlWeightBindings
  let _ ← signature.captureRanges.foldlM inspectRegion ⟨[], shared ++ primary, shared ++ control⟩
  pure ()

/-- `validate_distinct_capture_addresses` -/
def validateDistinctCaptureAddresses (primary control : ProjectionBindingView) : Except String Unit :=
  torchCheck
    (primary.values ≠ control.values && (primary.scales.isNone || primary.scales ≠ control.scales) &&
      (primary.bias.isNone || primary.bias ≠ control.bias))
    "xpool Primary and Control projection resources must use distinct corresponding addresses"

/-- `validate_capture_pair` -/
def validateCapturePair (primary control : ProjectionBindingView) : Except String Unit := do
  primary.validate
  control.validate
  torchCheck (primary.schemaMatches control) "xpool Primary and Control projection schemas disagree"
  validateDistinctCaptureAddresses primary control

/-- `validate_common` -/
def validateCommon (payloadDtype : ScalarType)
    (payloadRowCapacity hiddenSize localIntermediateSize primaryGraphAddress controlGraphAddress : Nat) :
    Except String Unit := do
  torchCheck payloadDtype.isSupportedPayload "xpool ffn capture descriptor requires BF16 or FP16 execution"
  torchCheck (payloadRowCapacity ≠ 0 && hiddenSize ≠ 0 && localIntermediateSize ≠ 0)
    "xpool ffn capture descriptor contains zero execution geometry"
  torchCheck (primaryGraphAddress ≠ 0 && controlGraphAddress ≠ 0 && primaryGraphAddress ≠ controlGraphAddress)
    "xpool ffn capture descriptor primary and control graphs must be nonnull and distinct"

def DenseCaptureDescriptor.validate (capture : DenseCaptureDescriptor) : Except String Unit := do
  validateCommon capture.payloadDtype capture.payloadRowCapacity capture.hiddenSize capture.localIntermediateSize
    capture.primaryGraphAddress capture.controlGraphAddress
  validateCapturePair capture.primaryWeightBindings.gateUp capture.controlWeightBindings.gateUp
  validateCapturePair capture.primaryWeightBindings.down capture.controlWeightBindings.down
  validateResources (.dense capture)

/-- The router checks of a capture that owns one. -/
def validateRouters (routedExpertCount expertCount : Nat) (primary control : MoeRouterBindingView) : Except String Unit := do
  torchCheck (routedExpertCount ≠ 0 && routedExpertCount ≤ expertCount)
    "xpool moe capture descriptor contains invalid routed expert geometry"
  primary.validate
  control.validate
  torchCheck (primary.schemaMatches control) "xpool moe capture descriptor primary and control router schemas disagree"
  validateDistinctCaptureAddresses primary.projection control.projection
  torchCheck (primary.correctionBiasAddress.isNone || primary.correctionBiasAddress ≠ control.correctionBiasAddress)
    "xpool moe capture descriptor primary and control router resources must use distinct corresponding addresses"

def MoeCaptureDescriptor.validate (capture : MoeCaptureDescriptor) : Except String Unit := do
  validateCommon capture.payloadDtype capture.payloadRowCapacity capture.hiddenSize capture.localIntermediateSize
    capture.primaryGraphAddress capture.controlGraphAddress
  torchCheck (capture.expertCount ≠ 0 && capture.effectiveTopk ≠ 0 && capture.effectiveTopk ≤ capture.expertCount)
    "xpool moe capture descriptor contains invalid expert geometry"
  let routerOwner := capture.routedExpertCount.isSome
  torchCheck
    (capture.capturePayloadRowsAddress.isSome = routerOwner && capture.primaryWeightBindings.router.isSome = routerOwner &&
      capture.controlWeightBindings.router.isSome = routerOwner)
    "xpool moe capture descriptor router ownership and capture resources disagree"
  validateCapturePair capture.primaryWeightBindings.gateUp capture.controlWeightBindings.gateUp
  validateCapturePair capture.primaryWeightBindings.down capture.controlWeightBindings.down
  validateResources (.moe capture)
  match capture.routedExpertCount, capture.primaryWeightBindings.router, capture.controlWeightBindings.router with
  | some routedExpertCount, some primary, some control =>
    validateRouters routedExpertCount capture.expertCount primary control
  | _, _, _ => pure ()

def CaptureDescriptor.validate : CaptureDescriptor → Except String Unit
  | dense capture => capture.validate
  | moe capture => capture.validate

/-! ## Layers -/

/-- `weight_geometry_matches` -/
def weightGeometryMatches : CaptureDescriptor → CaptureDescriptor → Bool
  | .dense left, .dense right =>
    left.payloadDtype = right.payloadDtype && left.hiddenSize = right.hiddenSize &&
      left.localIntermediateSize = right.localIntermediateSize &&
      (BindingView.dense left.primaryWeightBindings).schemaMatches (.dense right.primaryWeightBindings)
  | .moe left, .moe right =>
    left.payloadDtype = right.payloadDtype && left.hiddenSize = right.hiddenSize &&
      left.localIntermediateSize = right.localIntermediateSize && left.expertCount = right.expertCount &&
      left.routedExpertCount = right.routedExpertCount &&
      (BindingView.moe left.primaryWeightBindings).schemaMatches (.moe right.primaryWeightBindings)
  | _, _ => false

/-- One local layer and its signatures by increasing capacity. -/
structure LayerExecutionDescriptor where
  instanceIndex : Nat
  layerOrdinal : Nat
  executionSignatureIndices : List Nat
  layerResourceTargets : BindingView
deriving DecidableEq, Repr

structure LaneCaptureDescriptor where
  signatures : List CaptureDescriptor
deriving DecidableEq, Repr

structure ExecutionInstallDescriptor where
  lanes : List LaneCaptureDescriptor
  layers : List LayerExecutionDescriptor
deriving DecidableEq, Repr

/-- What the loop over the signatures of one layer carries. -/
structure SignatureScan where
  previousCapacity : Option Nat
  representative : Option CaptureDescriptor
  nextFirstUse : Nat

def inspectSignature (signatures : List CaptureDescriptor) (layer : LayerExecutionDescriptor) (scan : SignatureScan)
    (signatureIndex : Nat) : Except String SignatureScan :=
  match signatures[signatureIndex]? with
  | none => .error "xpool ffn installation descriptor contains an out-of-range execution signature index"
  | some signature => do
    torchCheck (scan.previousCapacity.all (· < signature.payloadRowCapacity))
      "xpool ffn installation descriptor layer execution signatures are not in increasing capacity order"
    torchCheck (signature.primaryWeightBindings.schemaMatches layer.layerResourceTargets)
      "xpool ffn installation descriptor layer target resources disagree with its execution signature"
    torchCheck (scan.representative.all (weightGeometryMatches · signature))
      "xpool ffn installation descriptor layer execution signatures disagree on weight geometry"
    torchCheck (signatureIndex ≤ scan.nextFirstUse)
      "xpool ffn installation descriptor execution signatures do not follow first-use plan order"
    pure
      { previousCapacity := some signature.payloadRowCapacity
        representative := scan.representative.or (some signature)
        nextFirstUse := if signatureIndex = scan.nextFirstUse then scan.nextFirstUse + 1 else scan.nextFirstUse }

/-- What the loop over the layers carries. -/
structure LayerScan where
  previous : Option (Nat × Nat)
  nextFirstUse : Nat

def inspectLayer (signatures : List CaptureDescriptor) (scan : LayerScan) (layer : LayerExecutionDescriptor) :
    Except String LayerScan := do
  layer.layerResourceTargets.validate
  torchCheck
    (scan.previous.all fun previous =>
      previous.1 < layer.instanceIndex || (layer.instanceIndex = previous.1 && previous.2 < layer.layerOrdinal))
    "xpool ffn installation descriptor layers are not in strict instance/layer order"
  torchCheck (layer.executionSignatureIndices ≠ [])
    "xpool ffn installation descriptor contains a layer with no execution signature"
  let inspected ← layer.executionSignatureIndices.foldlM (inspectSignature signatures layer) ⟨none, none, scan.nextFirstUse⟩
  pure ⟨some (layer.instanceIndex, layer.layerOrdinal), inspected.nextFirstUse⟩

/-- `validate_layers` -/
def validateLayers (signatures : List CaptureDescriptor) (layers : List LayerExecutionDescriptor) : Except String Unit := do
  torchCheck (signatures.isEmpty = layers.isEmpty)
    "xpool ffn installation descriptor must contain both local signatures and layers, or neither"
  let scan ← layers.foldlM (inspectLayer signatures) ⟨none, 0⟩
  torchCheck (scan.nextFirstUse = signatures.length)
    "xpool ffn installation descriptor contains an unreferenced execution signature"

/-! ## Lanes -/

/-- Two captures of one signature, the first of them on the first lane. -/
def compareCaptures (left right : CaptureDescriptor) : Except String Unit := do
  torchCheck (weightGeometryMatches left right) "xpool captured Lanes disagree on weight geometry"
  torchCheck (left.payloadRowCapacity = right.payloadRowCapacity) "xpool captured Lanes disagree on Capacity order"
  match left, right with
  | .moe capture, .moe other =>
    torchCheck (capture.effectiveTopk = other.effectiveTopk) "xpool captured Lanes disagree on routing geometry"
  | _, _ => pure ()
  torchCheck (left.captureRanges.length = right.captureRanges.length) "xpool captured Lanes disagree on resource schema"
  (left.captureRanges.zip right.captureRanges).forM fun resource =>
    torchCheck
      (resource.1.key = resource.2.key && resource.1.bytes = resource.2.bytes &&
        resource.1.sharedReadOnly = resource.2.sharedReadOnly)
      "xpool captured Lanes disagree on resource schema"

/-- One address of a range on one lane and one of a range on another; the additions wrap. -/
def validateSeparate (a b : CapturedResourceRange) (aAddress bAddress : Nat) : Except String Unit :=
  let overlap := aAddress < wrap (bAddress + b.bytes) && bAddress < wrap (aAddress + a.bytes)
  torchCheck
    (!overlap ||
      (a.sharedReadOnly && b.sharedReadOnly && a.key = b.key && aAddress = bAddress && a.bytes = b.bytes))
    "xpool writable capture resources overlap across Lanes"

/-- Captures of different lanes. -/
def separateCaptures (left right : CaptureDescriptor) : Except String Unit := do
  torchCheck
    (left.primaryGraphAddress ≠ right.primaryGraphAddress && left.primaryGraphAddress ≠ right.controlGraphAddress &&
      left.controlGraphAddress ≠ right.primaryGraphAddress && left.controlGraphAddress ≠ right.controlGraphAddress)
    "xpool Lanes must own distinct capture graphs"
  left.captureRanges.forM fun a =>
    right.captureRanges.forM fun b =>
      [a.primaryAddress, a.controlAddress].forM fun aAddress =>
        [b.primaryAddress, b.controlAddress].forM fun bAddress => validateSeparate a b aAddress bAddress

/-- A later lane against the first and against every lane before it. -/
def compareLane (reference : List CaptureDescriptor) (earlier : List LaneCaptureDescriptor) (lane : LaneCaptureDescriptor) :
    Except String Unit := do
  torchCheck (lane.signatures.length = reference.length) "xpool captured Lanes disagree on Signature count"
  (reference.zip lane.signatures).forM fun captures => compareCaptures captures.1 captures.2
  earlier.forM fun previous =>
    lane.signatures.forM fun current => previous.signatures.forM fun other => separateCaptures current other

namespace ExecutionInstallDescriptor

/-- The signatures of the first lane. -/
def reference (descriptor : ExecutionInstallDescriptor) : List CaptureDescriptor :=
  (descriptor.lanes.headD ⟨[]⟩).signatures

def validate (descriptor : ExecutionInstallDescriptor) : Except String Unit := do
  torchCheck (descriptor.lanes ≠ []) "xpool execution installation requires its Fabric Lane inventory"
  descriptor.lanes.forM fun lane => lane.signatures.forM CaptureDescriptor.validate
  validateLayers descriptor.reference descriptor.layers
  descriptor.lanes.zipIdx.tail.forM fun lane =>
    compareLane descriptor.reference (descriptor.lanes.take lane.2) lane.1

end ExecutionInstallDescriptor

/-! ## Accepted descriptors -/

section Accepted

variable {signatures : List CaptureDescriptor} {layers : List LayerExecutionDescriptor} {layer : LayerExecutionDescriptor}

/-- The capacity of one signature. -/
def capacityAt (signatures : List CaptureDescriptor) (signatureIndex : Nat) : Nat :=
  (signatures[signatureIndex]?.map CaptureDescriptor.payloadRowCapacity).getD 0

/-- The signatures of a layer exist, and their capacities increase. -/
structure LayerAccepted (signatures : List CaptureDescriptor) (layer : LayerExecutionDescriptor) : Prop where
  nonempty : layer.executionSignatureIndices ≠ []
  exist : ∀ index ∈ layer.executionSignatureIndices, index < signatures.length
  increasing : (layer.executionSignatureIndices.map (capacityAt signatures)).Pairwise (· < ·)

/-- What the loop over signatures knows of those gone through. -/
structure SignaturesSeen (signatures : List CaptureDescriptor) (seen : List Nat) (scan : SignatureScan) : Prop where
  exist : ∀ index ∈ seen, index < signatures.length
  increasing : (seen.map (capacityAt signatures)).Pairwise (· < ·)
  last : scan.previousCapacity = (seen.map (capacityAt signatures)).getLast?

theorem inspectSignature_seen {seen : List Nat} {scan next : SignatureScan} {index : Nat}
    (before : SignaturesSeen signatures seen scan) (inspected : inspectSignature signatures layer scan index = .ok next) :
    SignaturesSeen signatures (seen ++ [index]) next := by
  rw [inspectSignature] at inspected
  split at inspected
  · cases inspected
  · rename_i signature found
    simp only [bind_eq_ok, torchCheck_eq_ok, exists_const] at inspected
    obtain ⟨above, -, -, -, made⟩ := inspected
    obtain rfl := Except.ok.inj made
    have capacity : capacityAt signatures index = signature.payloadRowCapacity := by simp [capacityAt, found]
    have inside : index < signatures.length := (List.getElem?_eq_some_iff.mp found).1
    constructor
    · intro other member
      rcases List.mem_append.mp member with earlier | here
      · exact before.exist other earlier
      · rwa [List.mem_singleton.mp here]
    · rw [List.map_append, List.pairwise_append]
      refine ⟨before.increasing, List.pairwise_singleton _ _, ?_⟩
      intro earlier member later here
      obtain rfl : later = capacityAt signatures index := by simpa using here
      rw [capacity]
      have ends : earlier = (seen.map (capacityAt signatures)).getLast (List.ne_nil_of_mem member) ∨
          earlier < (seen.map (capacityAt signatures)).getLast (List.ne_nil_of_mem member) := by
        have parts := List.dropLast_append_getLast (List.ne_nil_of_mem member)
        have ordered := before.increasing
        rw [← parts] at member ordered
        rcases List.mem_append.mp member with inner | final
        · exact .inr ((List.pairwise_append.mp ordered).2.2 earlier inner _ (by simp))
        · exact .inl (by simpa using final)
      rw [before.last, List.getLast?_eq_getLast_of_ne_nil (List.ne_nil_of_mem member), Option.all_some,
        decide_eq_true_eq] at above
      omega
    · simp [capacity]

theorem inspectLayer_accepted {scan next : LayerScan} (inspected : inspectLayer signatures scan layer = .ok next) :
    LayerAccepted signatures layer := by
  simp only [inspectLayer, bind_eq_ok, torchCheck_eq_ok, exists_const] at inspected
  obtain ⟨-, -, -, nonempty, last, folded, -⟩ := inspected
  have seen : SignaturesSeen signatures layer.executionSignatureIndices last := by
    refine foldlM_eq_ok (R := SignaturesSeen signatures) ?_ ?_ folded
    · exact ⟨by simp, by simp, by simp⟩
    · intro done index before after _ known stepped
      exact inspectSignature_seen known stepped
  exact ⟨by simpa using nonempty, seen.exist, seen.increasing⟩

theorem validateLayers_accepted (validated : validateLayers signatures layers = .ok ()) (member : layer ∈ layers) :
    LayerAccepted signatures layer := by
  simp only [validateLayers, bind_eq_ok, torchCheck_eq_ok, exists_const] at validated
  obtain ⟨-, last, folded, -⟩ := validated
  have all : ∀ item ∈ layers, LayerAccepted signatures item := by
    refine foldlM_eq_ok (R := fun seen _ => ∀ item ∈ seen, LayerAccepted signatures item) ?_ ?_ folded
    · simp
    · intro seen item before after _ known stepped other here
      rcases List.mem_append.mp here with earlier | last
      · exact known other earlier
      · rw [List.mem_singleton.mp last]
        exact inspectLayer_accepted stepped
  exact all layer member

namespace ExecutionInstallDescriptor

variable {descriptor : ExecutionInstallDescriptor}

theorem accepted_of_validate (validated : descriptor.validate = .ok ()) (member : layer ∈ descriptor.layers) :
    LayerAccepted descriptor.reference layer := by
  simp only [validate, bind_eq_ok, torchCheck_eq_ok, exists_const] at validated
  obtain ⟨-, ⟨⟩, -, ⟨⟩, checked, -⟩ := validated
  exact validateLayers_accepted checked member

/-- Every lane has captured as many signatures as the first. -/
theorem signatures_length_of_validate (validated : descriptor.validate = .ok ()) {lane : LaneCaptureDescriptor}
    (member : lane ∈ descriptor.lanes) : lane.signatures.length = descriptor.reference.length := by
  simp only [validate, bind_eq_ok, torchCheck_eq_ok, exists_const, forM_eq_ok] at validated
  obtain ⟨-, -, -, -, -, lanes⟩ := validated
  obtain ⟨index, inside, rfl⟩ := List.getElem_of_mem member
  cases index with
  | zero =>
    rw [reference, List.headD_eq_head?_getD, List.head?_eq_getElem?, List.getElem?_eq_getElem inside]
    rfl
  | succ index =>
    have later : (descriptor.lanes[index + 1], index + 1) ∈ descriptor.lanes.zipIdx.tail := by
      apply List.mem_of_getElem? (i := index)
      rw [List.getElem?_tail, List.getElem?_zipIdx, List.getElem?_eq_getElem inside]
      simp
    have compared := lanes _ later
    simp only [compareLane, bind_eq_ok, torchCheck_eq_ok, exists_const] at compared
    obtain ⟨count, -⟩ := compared
    simpa using count

end ExecutionInstallDescriptor

end Accepted

end CrossPool.FfnAgent
