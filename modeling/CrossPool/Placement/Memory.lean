import CrossPool.FfnAgent.Calibration
import CrossPool.Placement.Exact

/-!
# Memory of a placement

What a placement costs an FfnAgent at each startup point is written down twice. The
estimator walks the layers that the agent holds; the solver adds up its counts of layers,
and charges what the layers share once, by presences. The constraints that define the
presences and roundings are those of the solver's model.
-/

namespace CrossPool.Placement

open FfnAgent (mib ensureSint64Nonnegative DeviceMemoryFeatures DeviceMemoryPoint FfnMemoryCalibrationCoefficients)

/-! ## Reservations -/

def alignUp (value alignment : Int) : Int :=
  (value + alignment - 1) / alignment * alignment

/-- The new segments of a nonempty group of requests. -/
def segmentBytes (storageBytes : List Int) : Int :=
  let rounded := storageBytes.map fun value => alignUp (max value 512) 512
  if (∀ value ∈ rounded, value ≤ mib) ∧ rounded.sum ≤ 2 * mib then 2 * mib
  else if (∀ value ∈ rounded, mib < value ∧ value < 10 * mib) ∧ rounded.sum ≤ 20 * mib then 20 * mib
  else
    (rounded.map fun value =>
      if value ≤ mib then 2 * mib else if value < 10 * mib then 20 * mib else alignUp value (2 * mib)).sum

/-- What `allocator_reservation_bytes` returns where it does not raise. -/
def reservation (storageBytes : List Int) : Int :=
  if storageBytes.isEmpty then 0 else segmentBytes storageBytes

def allocatorReservationBytes (storageBytes : List Int) : Except String Int := do
  ensureSint64Nonnegative storageBytes
  if storageBytes.isEmpty then return 0
  if 0 ∈ storageBytes then throw "allocator reservation requires positive Tensor storage byte counts"
  ensureSint64Nonnegative [segmentBytes storageBytes]
  return segmentBytes storageBytes

/-- What a group reserves beyond its requests. -/
def reservationAllowance (storageBytes : List Int) : Except String Int := do
  return (← allocatorReservationBytes storageBytes) - storageBytes.sum

/-! ## Execution signatures -/

/-- The router of a signature, with the fields that nothing here reads in `identity`. -/
structure MoeRouterExecutionSignature (ι : Type) where
  projectionBytes : List Int
  correctionBytes : Option Int
  routerWorkspaceBytes : Int
  identity : ι
deriving DecidableEq

/-- A signature by its payload, with the bytes of its two projections. -/
inductive ExecutionSignature (ι : Type) where
  | dense (itemsize payloadRowCapacity hiddenSize : Nat) (weightBytes : List Int) (identity : ι)
  | moe (itemsize payloadRowCapacity hiddenSize effectiveTopk : Nat) (router : Option (MoeRouterExecutionSignature ι))
      (weightBytes : List Int) (identity : ι)
deriving DecidableEq

namespace ExecutionSignature

variable {ι : Type}

def isDense : ExecutionSignature ι → Bool
  | .dense .. => true
  | .moe .. => false

/-- The signature is a router owner's. -/
def routes : ExecutionSignature ι → Bool
  | .dense .. => false
  | .moe _ _ _ _ router _ _ => router.isSome

/-- `capture_placeholder_layout().allocation_bytes()`, and the requests of the graph's
random number state. -/
def storageBytes : ExecutionSignature ι → List Int
  | .dense itemsize rows hidden _ _ => [↑(rows * hidden * itemsize), ↑(rows * hidden * itemsize)] ++ [8, 8, 8, 8]
  | .moe itemsize rows hidden topk router _ _ =>
    [↑(rows * hidden * itemsize), ↑(rows * hidden * itemsize)] ++ (if router.isSome then [8] else []) ++
      [↑(rows * topk * 8)] ++ [8, 8, 8, 8]

/-- `graph_capture_initialization_storage_bytes` -/
def initializationBytes : ExecutionSignature ι → List Int
  | .dense .. => []
  | .moe _ _ _ topk _ _ _ => [↑(4 * topk), ↑(4 * topk)]

def captureWeightPairKey : ExecutionSignature ι → ExecutionSignature ι
  | .dense itemsize _ hidden weights identity => .dense itemsize 1 hidden weights identity
  | .moe itemsize _ hidden topk router weights identity =>
    .moe itemsize 1 hidden topk (router.map fun router => { router with routerWorkspaceBytes := 0 }) weights identity

def controlCaptureProbeStorageBytes : ExecutionSignature ι → List Int
  | .dense _ _ _ weights _ => weights
  | .moe _ _ _ _ router weights _ =>
    match router with
    | none => weights
    | some router => weights ++ router.projectionBytes ++ router.correctionBytes.toList

/-- `payload_row_capacity * effective_topk` -/
def routingElements : ExecutionSignature ι → Nat
  | .dense .. => 0
  | .moe _ rows _ topk _ _ _ => rows * topk

/-- What `graph_capture_allocator_allowance_bytes` returns where it does not raise. -/
def allowance (signature : ExecutionSignature ι) : Int :=
  (if signature.isDense then reservation signature.storageBytes
    else ((signature.storageBytes ++ signature.initializationBytes).map fun value => reservation [value]).sum) -
    signature.storageBytes.sum

/-- Dense placeholders are one group; the requests of a mixture of experts are reserved
one by one, with the temporary route IDs. -/
def graphCaptureReservedBytes (signature : ExecutionSignature ι) : Except String Int :=
  if signature.isDense then allocatorReservationBytes signature.storageBytes
  else do
    let reserved ← (signature.storageBytes ++ signature.initializationBytes).mapM fun value =>
      allocatorReservationBytes [value]
    return reserved.sum

def graphCaptureAllocatorAllowanceBytes (signature : ExecutionSignature ι) : Except String Int := do
  let reserved ← signature.graphCaptureReservedBytes
  ensureSint64Nonnegative [reserved - signature.storageBytes.sum]
  return reserved - signature.storageBytes.sum

end ExecutionSignature

/-! ## Execution resources -/

/-- Where a computation may refer to a resource. -/
inductive UseSite where
  | dense
  | moeRouter
deriving DecidableEq

structure ExecutionResourceRequirement where
  key : String
  requestBytes : List Int
  logicalExtentBoundBytes : Int
  exactLogicalBytes : Option Int
deriving DecidableEq

structure ExecutionResourceDeclaration where
  requirement : ExecutionResourceRequirement
  uses : List UseSite

structure FfnExecutionContract where
  laneResources : List ExecutionResourceDeclaration
  sharedResources : List ExecutionResourceDeclaration

structure ExecutionResourceGroup where
  requirement : ExecutionResourceRequirement
  signatureIndices : List Nat

section Resources

variable {ι : Type}

def ExecutionResourceDeclaration.isUsed (declaration : ExecutionResourceDeclaration) (signature : ExecutionSignature ι) :
    Bool :=
  (signature.isDense && decide (.dense ∈ declaration.uses)) ||
    (signature.routes && decide (.moeRouter ∈ declaration.uses))

/-- `source_users` -/
def ExecutionResourceDeclaration.users (declaration : ExecutionResourceDeclaration)
    (signatures : List (ExecutionSignature ι)) : List Nat :=
  (signatures.zipIdx.filter fun (signature, _) => declaration.isUsed signature).map Prod.snd

/-- The computation of one signature. -/
def computeGroup (workspaceBytes : Int) (index : Nat) : ExecutionResourceGroup :=
  ⟨⟨"compute", [workspaceBytes], workspaceBytes, some workspaceBytes⟩, [index]⟩

/-- The declarations that some signature uses. -/
def declaredGroups (declarations : List ExecutionResourceDeclaration) (signatures : List (ExecutionSignature ι)) :
    List ExecutionResourceGroup :=
  (declarations.filter fun declaration => !(declaration.users signatures).isEmpty).map fun declaration =>
    ⟨declaration.requirement, declaration.users signatures⟩

/-- `ExecutionResourcePlan.from_signatures(..).lane_resources`, where it does not raise. -/
def laneResources (workspace : ExecutionSignature ι → Int) (contract : FfnExecutionContract)
    (signatures : List (ExecutionSignature ι)) : List ExecutionResourceGroup :=
  (signatures.zipIdx.map fun (signature, index) => computeGroup (workspace signature) index) ++
    declaredGroups contract.laneResources signatures

/-- `ExecutionResourcePlan.from_signatures`, of which only the lane resources are read. -/
def resourcePlan (workspace : ExecutionSignature ι → Int) (contract : FfnExecutionContract)
    (signatures : List (ExecutionSignature ι)) : Except String (List ExecutionResourceGroup) := do
  signatures.forM fun signature => do
    ensureSint64Nonnegative [workspace signature, 256, workspace signature]
    if workspace signature = 0 then throw "execution resource needs an identity and positive logical extent"
  (declaredGroups contract.laneResources signatures ++ declaredGroups contract.sharedResources signatures).forM fun group => do
    if group.requirement.key = "compute" then throw "execution resource identities overlap within a Signature"
  return laneResources workspace contract signatures

/-- What `capture_pool_reservation_bytes` returns where it does not raise. -/
def poolReservation (groups : List ExecutionResourceGroup) : Int :=
  (groups.map fun group => reservation group.requirement.requestBytes).sum

def capturePoolReservationBytes (groups : List ExecutionResourceGroup) : Except String Int := do
  let reserved ← groups.mapM fun group => allocatorReservationBytes group.requirement.requestBytes
  ensureSint64Nonnegative [reserved.sum]
  return reserved.sum

end Resources

/-! ## Layers -/

/-- What a TP rank prepares for a layer. -/
structure PreparedLayer (ι : Type) where
  weightAllocationBytes : List Int
  executionSignatures : List (ExecutionSignature ι)
deriving DecidableEq

/-- A rank's row of a layer class. -/
structure RankRow (ι : Type) where
  weightBytes : Int
  allocationCount : Int
  allowance : Int
  signatures : List (ExecutionSignature ι)
deriving DecidableEq

/-- The row, where the reservation does not raise. -/
def PreparedLayer.row {ι : Type} (layer : PreparedLayer ι) : RankRow ι where
  weightBytes := layer.weightAllocationBytes.sum
  allocationCount := layer.weightAllocationBytes.length
  allowance := reservation layer.weightAllocationBytes - layer.weightAllocationBytes.sum
  signatures := layer.executionSignatures

section Map

variable {ρ τ : Type}

def ModelLayers.map (f : ρ → τ) (model : ModelLayers ρ) : ModelLayers τ where
  tpSize := model.tpSize
  layers := model.layers.map (List.map f)
  ranked := model.ranked
  rows := by
    intro layer member
    obtain ⟨rows, listed, rfl⟩ := List.mem_map.mp member
    rw [List.length_map, model.rows rows listed]

def Problem.map (f : ρ → τ) (problem : Problem ρ) : Problem τ where
  ffnagentCount := problem.ffnagentCount
  models := problem.models.map (ModelLayers.map f)
  fits := by
    intro model member
    obtain ⟨first, listed, rfl⟩ := List.mem_map.mp member
    exact problem.fits first listed

end Map

/-! ## The request -/

/-- What a placement is asked for: the configuration, what the ranks prepare for every
layer, and the sizes of what the native library and the computations allocate. -/
structure Request (ι : Type) where
  prepared : Problem (PreparedLayer ι)
  contracts : List FfnExecutionContract
  ffnConcurrency : Nat
  routingObserver : Bool
  fabricArenaBytes : Nat
  fabricObserverBytes : Nat
  coordinatorControlBytes : Nat
  layerEntryBytes : Nat
  capacityEntryBytes : Nat
  bindingSchemaBytes : Nat
  laneStateBytes : Nat
  routingLayoutBytes : Nat → Nat
  workspace : ExecutionSignature ι → Int
  coefficients : Option FfnMemoryCalibrationCoefficients
  freeMemoryBytes : List Int
  extraMarginBytes : Int
  concurrent : 0 < ffnConcurrency

inductive StartupPoint where
  | weightMaterialization
  | fabricJoin
  | graphCapture
  | executionInstallation
  | retained
deriving DecidableEq

def StartupPoint.all : List StartupPoint :=
  [.weightMaterialization, .fabricJoin, .graphCapture, .executionInstallation, .retained]

namespace Request

variable {ι : Type} (request : Request ι)

/-- `execution_state_allocation_bytes` -/
def executionStateAllocationBytes (layerCount capacityCount signatureCount laneCount : Int) : Int :=
  layerCount * request.layerEntryBytes + capacityCount * request.capacityEntryBytes +
    laneCount * signatureCount * request.bindingSchemaBytes + laneCount * request.laneStateBytes

/-- `ffnagent_control_allocation_bytes` -/
def controlAllocationBytes (coordinator : Bool) : Int :=
  if coordinator then request.coordinatorControlBytes else 4

/-- `execution_runtime_bytes`, where the counts do not raise. -/
def runtimeBytes (layerCount capacityCount signatureCount : Int) (coordinator : Bool) : Int :=
  request.controlAllocationBytes coordinator +
    request.executionStateAllocationBytes layerCount capacityCount signatureCount request.ffnConcurrency

/-- `routing_record_buffer_bytes`, where the capacity does not raise. -/
def routingBytes (elementCapacity : Nat) : Int :=
  if !request.routingObserver || elementCapacity = 0 then 0 else request.routingLayoutBytes elementCapacity

def fabricJoinBytes : Int :=
  request.fabricArenaBytes + request.fabricObserverBytes

/-! ## The estimator -/

/-- What the ranks of a placement prepare on an FfnAgent, in the order of models and layers. -/
def localLayers (placement : Nat → Nat → List Nat) (agent : Nat) : List (PreparedLayer ι) :=
  request.prepared.models.zipIdx.flatMap fun (model, modelIndex) =>
    model.layers.zipIdx.filterMap fun (ranks, layer) =>
      if agent ∈ placement modelIndex layer then ranks[(placement modelIndex layer).idxOf agent]? else none

end Request

/-- Features of a point, which are checked. -/
def featuresOf (storageBytes allocationCount denseCount moeCount laneCount branchCount : Int)
    (densePresent moePresent joined : Bool) : Except String DeviceMemoryFeatures :=
  match checked : ensureSint64Nonnegative [storageBytes, allocationCount, denseCount, moeCount, laneCount, branchCount] with
  | .ok () =>
    .ok ⟨storageBytes, allocationCount, denseCount, moeCount, laneCount, branchCount, densePresent, moePresent, joined, checked⟩
  | .error error => .error error

/-- A point with charges by exact and estimated bytes, which are checked. -/
def pointOf (charges : List (Int × Int)) (features : DeviceMemoryFeatures) : Except String DeviceMemoryPoint := do
  ensureSint64Nonnegative (charges.map Prod.fst)
  match checked : ensureSint64Nonnegative (charges.map Prod.snd) with
  | .ok () => .ok ⟨charges.map Prod.snd, features, checked⟩
  | .error error => .error error

namespace Request

variable {ι : Type} [DecidableEq ι] (request : Request ι)

/-- `allocation_ledger_for_model_plans` over the layers that the FfnAgent holds. -/
def allocationLedger (contract : FfnExecutionContract) (layers : List (PreparedLayer ι)) (coordinator : Bool) :
    Except String (List (StartupPoint × DeviceMemoryPoint)) := do
  let signatures := (layers.flatMap PreparedLayer.executionSignatures).eraseDups
  let capacityCount := (layers.map fun layer => (layer.executionSignatures.length : Int)).sum
  let weights := layers.flatMap PreparedLayer.weightAllocationBytes
  let weightAllowances ← layers.mapM fun layer => reservationAllowance layer.weightAllocationBytes
  let lanes : Int := request.ffnConcurrency
  let probeGroups :=
    (signatures.map ExecutionSignature.captureWeightPairKey).eraseDups.map ExecutionSignature.controlCaptureProbeStorageBytes
  let captureStorage :=
    probeGroups.flatten ++ (List.replicate request.ffnConcurrency (signatures.flatMap ExecutionSignature.storageBytes)).flatten
  let allowances ← signatures.mapM ExecutionSignature.graphCaptureAllocatorAllowanceBytes
  let probeAllowances ← probeGroups.mapM reservationAllowance
  let captureAllowance := allowances.sum * lanes + probeAllowances.sum
  let resources ← resourcePlan request.workspace contract signatures
  let pool := lanes * (← capturePoolReservationBytes resources)
  let denseCount : Int := (signatures.filter ExecutionSignature.isDense).length
  let moeCount : Int := signatures.length - denseCount
  ensureSint64Nonnegative [layers.length, capacityCount, signatures.length]
  let runtime := request.runtimeBytes layers.length capacityCount signatures.length coordinator
  let routing := ((signatures.filter ExecutionSignature.routes).map ExecutionSignature.routingElements).max?.getD 0
  ensureSint64Nonnegative [routing]
  let installed := runtime + request.routingBytes routing
  let exact :=
    (resources.map fun group => match group.requirement.exactLogicalBytes with
      | some bytes => lanes * bytes
      | none => 0).sum
  let extents := (resources.map fun group => lanes * group.requirement.logicalExtentBoundBytes).sum
  let requests := (resources.map fun group => lanes * (group.requirement.requestBytes.length : Int)).sum
  let weightsCharge := (weights.sum, weights.sum + weightAllowances.sum)
  let fabricCharge := (request.fabricJoinBytes, request.fabricJoinBytes)
  let nativeCharge := (installed, installed)
  let privateCharge := (exact, pool)
  let constructionCharge := (captureStorage.sum, captureStorage.sum + captureAllowance)
  let weightFeatures ← featuresOf weights.sum weights.length 0 0 0 0 false false false
  let joinedFeatures ← featuresOf weights.sum weights.length 0 0 0 0 false false true
  let captureFeatures ←
    featuresOf (weights.sum + captureStorage.sum + extents) (weights.length + captureStorage.length + requests)
      (denseCount * lanes) (moeCount * lanes) lanes (lanes * signatures.length) (denseCount ≠ 0) (moeCount ≠ 0) true
  let retainedFeatures ←
    featuresOf (weights.sum + extents) (weights.length + requests) 0 0 lanes (lanes * signatures.length) (denseCount ≠ 0)
      (moeCount ≠ 0) true
  return [(.weightMaterialization, ← pointOf [weightsCharge] weightFeatures),
    (.fabricJoin, ← pointOf [weightsCharge, fabricCharge, (0, 0)] joinedFeatures),
    (.graphCapture,
      ← pointOf [weightsCharge, fabricCharge, (0, 0), privateCharge, (0, 0), constructionCharge] captureFeatures),
    (.executionInstallation,
      ← pointOf [weightsCharge, fabricCharge, nativeCharge, privateCharge, (0, 0), constructionCharge, (0, 0)]
        captureFeatures),
    (.retained,
      ← pointOf [weightsCharge, fabricCharge, nativeCharge, privateCharge, (0, 0), (0, 0)] retainedFeatures)]

/-- The calibrated overhead of a point. -/
def pointOverhead (features : DeviceMemoryFeatures) : Except String Int :=
  match request.coefficients with
  | none => .ok 0
  | some coefficients => coefficients.evaluate features

/-- One stage of `estimate_points`. -/
def estimatePoint (point : DeviceMemoryPoint) : Except String Int := do
  let overhead ← request.pointOverhead point.features
  return (← point.analyticEstimateBytes) + overhead

/-- The stage estimates of a placement on an FfnAgent. -/
def stageEstimates (placement : Nat → Nat → List Nat) (agent : Nat) : Except String (List (StartupPoint × Int)) := do
  match request.contracts[agent]? with
  | none => throw "device-memory FfnAgent index is outside the configured Fleet"
  | some contract =>
    let points ← request.allocationLedger contract (request.localLayers placement agent) (agent = 0)
    let estimates ← points.mapM fun (point, ledger) => return (point, ← request.estimatePoint ledger)
    ensureSint64Nonnegative (estimates.map Prod.snd)
    return estimates

/-- `estimate_model_plans`, as retained and peak bytes. -/
def estimateModelPlans (placement : Nat → Nat → List Nat) (agent : Nat) : Except String (Int × Int) := do
  let estimates ← request.stageEstimates placement agent
  match estimates.find? (·.1 = .retained), (estimates.map Prod.snd).max? with
  | some (_, retained), some peak => return (retained, peak)
  | _, _ => throw "max() arg is an empty sequence"

/-! ## The solver -/

/-- The layer classes of the solver. -/
def classes : List (LayerClass (RankRow ι)) :=
  (request.prepared.map PreparedLayer.row).classes

def allSignatures : List (ExecutionSignature ι) :=
  (request.classes.flatMap fun layerClass => layerClass.rankRows.flatMap RankRow.signatures).eraseDups

def captureWeightPairKeys : List (ExecutionSignature ι) :=
  (request.allSignatures.map ExecutionSignature.captureWeightPairKey).eraseDups

def routerSignatures : List (ExecutionSignature ι) :=
  request.allSignatures.filter ExecutionSignature.routes

/-- `routing_bytes_table`, of which the solver's constraint reads the entries only. -/
def routingBytesTable : List (Nat × Int) :=
  (0 :: request.routerSignatures.map ExecutionSignature.routingElements).map fun capacity =>
    (capacity, request.routingBytes capacity)

/-- The routing records of an FfnAgent are charged. -/
def observesRouting : Bool :=
  request.routingObserver && !request.routerSignatures.isEmpty

def resources (contract : FfnExecutionContract) : List ExecutionResourceGroup :=
  laneResources request.workspace contract request.allSignatures

end Request

/-- The values of the solver's variables of one FfnAgent: presences by the index of what
they are about, roundings, stages. -/
structure StageValues where
  signaturePresent : Nat → Bool
  weightPairPresent : Nat → Bool
  resourcePresent : Nat → Bool
  densePresent : Bool
  moePresent : Bool
  routingElements : Nat
  routingRecordBufferBytes : Int
  packedMib : Int
  retainedMib : Int
  graphCaptureMib : Int
  stage : StartupPoint → Int
  peak : Int
  headroom : Int

/-- A resource of one signature is present with it. -/
def StageValues.groupPresent (values : StageValues) (group : ExecutionResourceGroup) (index : Nat) : Bool :=
  match group.signatureIndices with
  | [only] => values.signaturePresent only
  | _ => values.resourcePresent index

/-- The sum of `cost` over the items that are present. -/
def overPresent {α : Type} (items : List α) (present : Nat → Bool) (cost : α → Int) : Int :=
  (items.zipIdx.map fun (item, index) => cost item * (present index).toInt).sum

/-- The sum of `cost` over the rows of all classes, as often as they are assigned. -/
def overRows {ι : Type} (classes : List (LayerClass (RankRow ι))) (assigned : Nat → Nat → Int) (cost : RankRow ι → Int) :
    Int :=
  (classes.zipIdx.map fun (layerClass, classIndex) =>
    (layerClass.rankRows.zipIdx.map fun (row, rank) => cost row * assigned classIndex rank).sum).sum

/-- The sum of `cost` over the resources that are present. -/
def overGroups (groups : List ExecutionResourceGroup) (values : StageValues) (cost : ExecutionResourceRequirement → Int) :
    Int :=
  (groups.zipIdx.map fun (group, index) => cost group.requirement * (values.groupPresent group index).toInt).sum

/-- The linear expressions of one FfnAgent. -/
structure StageAmounts where
  weightBytes : Int
  weightAllocations : Int
  weightAllowance : Int
  layerCount : Int
  capacityCount : Int
  signatureCount : Int
  captureBytes : Int
  captureAllocations : Int
  captureAllowance : Int
  poolBytes : Int
  resourceBytes : Int
  resourceAllocations : Int
  denseCaptureCount : Int
  moeCaptureCount : Int

namespace Request

variable {ι : Type} [DecidableEq ι] (request : Request ι) (contract : FfnExecutionContract) (assigned : Nat → Nat → Int)
  (values : StageValues)

def amounts : StageAmounts :=
  let lanes : Int := request.ffnConcurrency
  let signatures := overPresent request.allSignatures values.signaturePresent
  let pairs := overPresent request.captureWeightPairKeys values.weightPairPresent
  let rows := overRows request.classes assigned
  let groups := overGroups (request.resources contract) values
  { weightBytes := rows fun row => row.weightBytes
    weightAllocations := rows fun row => row.allocationCount
    weightAllowance := rows fun row => row.allowance
    layerCount := rows fun _ => 1
    capacityCount := rows fun row => row.signatures.length
    signatureCount := signatures fun _ => 1
    captureBytes :=
      signatures (fun signature => lanes * signature.storageBytes.sum) +
        pairs fun key => key.controlCaptureProbeStorageBytes.sum
    captureAllocations :=
      signatures (fun signature => lanes * signature.storageBytes.length) +
        pairs fun key => key.controlCaptureProbeStorageBytes.length
    captureAllowance :=
      signatures (fun signature => lanes * signature.allowance) +
        pairs fun key => reservation key.controlCaptureProbeStorageBytes - key.controlCaptureProbeStorageBytes.sum
    poolBytes := groups fun requirement => lanes * reservation requirement.requestBytes
    resourceBytes := groups fun requirement => lanes * requirement.logicalExtentBoundBytes
    resourceAllocations := groups fun requirement => lanes * requirement.requestBytes.length
    denseCaptureCount := lanes * signatures fun signature => signature.isDense.toInt
    moeCaptureCount := lanes * signatures fun signature => (!signature.isDense).toInt }

/-- `execution_runtime_bytes` of the counts, by what one of each adds. -/
def runtimeExpression (amounts : StageAmounts) (coordinator : Bool) : Int :=
  let base := request.runtimeBytes 0 0 0 coordinator
  base + (request.runtimeBytes 1 0 0 coordinator - base) * amounts.layerCount +
    (request.runtimeBytes 0 1 0 coordinator - base) * amounts.capacityCount +
      (request.runtimeBytes 0 0 1 coordinator - base) * amounts.signatureCount

/-- `calibrated_overhead` -/
def calibratedOverhead (storageMib allocationCount denseCount moeCount laneCount branchCount joined : Int) : Int :=
  match request.coefficients with
  | none => 0
  | some coefficients =>
    coefficients.baseBytes + coefficients.bytesPerTensorStorageMib * storageMib +
      coefficients.bytesPerTensorStorageAllocation * allocationCount +
      coefficients.bytesPerDenseGraphCapture * denseCount + coefficients.bytesPerMoeGraphCapture * moeCount +
      coefficients.bytesPerExecutorLane * laneCount + coefficients.bytesPerComputeBranch * branchCount +
      coefficients.denseImplementationBytes * (if laneCount ≠ 0 then values.densePresent.toInt else 0) +
      coefficients.moeImplementationBytes * (if laneCount ≠ 0 then values.moePresent.toInt else 0) +
      coefficients.joinedFfnagentBytes * joined

/-- The physical cost of a stage. -/
def physicalCost (coordinator : Bool) (point : StartupPoint) : Int :=
  let amounts := request.amounts contract assigned values
  let weight := amounts.weightBytes + amounts.weightAllowance
  let joined := weight + request.fabricJoinBytes
  let captured := joined + amounts.poolBytes + amounts.captureBytes + amounts.captureAllowance
  let installed :=
    request.runtimeExpression amounts coordinator +
      if request.observesRouting then values.routingRecordBufferBytes else 0
  match point with
  | .weightMaterialization => weight
  | .fabricJoin => joined
  | .graphCapture => captured
  | .executionInstallation => captured + installed
  | .retained => joined + amounts.poolBytes + installed

/-- The calibrated overhead of a stage. -/
def overheadCost (point : StartupPoint) : Int :=
  let amounts := request.amounts contract assigned values
  let lanes : Int := request.ffnConcurrency
  match point with
  | .weightMaterialization => request.calibratedOverhead values values.packedMib amounts.weightAllocations 0 0 0 0 0
  | .fabricJoin => request.calibratedOverhead values values.packedMib amounts.weightAllocations 0 0 0 0 1
  | .graphCapture | .executionInstallation =>
    request.calibratedOverhead values values.graphCaptureMib
      (amounts.weightAllocations + amounts.captureAllocations + amounts.resourceAllocations) amounts.denseCaptureCount
      amounts.moeCaptureCount lanes (lanes * amounts.signatureCount) 1
  | .retained =>
    request.calibratedOverhead values values.retainedMib (amounts.weightAllocations + amounts.resourceAllocations) 0 0 lanes
      (lanes * amounts.signatureCount) 1

/-- The stage expression. -/
def stageExpression (coordinator : Bool) (point : StartupPoint) : Int :=
  request.physicalCost contract assigned values coordinator point + request.overheadCost contract assigned values point

/-- The layers of an FfnAgent that use a signature, as the solver counts them. -/
def users (signature : ExecutionSignature ι) : Int :=
  overRows request.classes assigned fun row => (decide (signature ∈ row.signatures)).toInt

/-- A number of MiB that covers the bytes and no more. -/
def CoversMib (bytes mibs : Int) : Prop :=
  bytes ≤ mib * mibs ∧ mib * mibs ≤ bytes + mib - 1

/-- The constraints that define the stage variables of an FfnAgent. -/
structure StageDefined (agent : Nat) : Prop where
  present : ∀ index signature, request.allSignatures[index]? = some signature → values.signaturePresent index = true →
    1 ≤ request.users assigned signature
  absent : ∀ index signature, request.allSignatures[index]? = some signature → values.signaturePresent index = false →
    request.users assigned signature = 0
  pairs : ∀ index key, request.captureWeightPairKeys[index]? = some key →
    values.weightPairPresent index =
      request.allSignatures.zipIdx.any fun (signature, user) =>
        signature.captureWeightPairKey = key && values.signaturePresent user
  groups : ∀ index group, (request.resources contract)[index]? = some group → group.signatureIndices.length ≠ 1 →
    values.resourcePresent index = group.signatureIndices.any values.signaturePresent
  dense : values.densePresent =
    request.allSignatures.zipIdx.any fun (signature, index) => signature.isDense && values.signaturePresent index
  moe : values.moePresent =
    request.allSignatures.zipIdx.any fun (signature, index) => !signature.isDense && values.signaturePresent index
  routing : request.observesRouting = true →
    (0 :: (request.allSignatures.zipIdx.filter fun entry => entry.1.routes).map fun (signature, index) =>
      signature.routingElements * (values.signaturePresent index).toNat).max? = some values.routingElements ∧
    (values.routingElements, values.routingRecordBufferBytes) ∈ request.routingBytesTable
  packed : CoversMib (request.amounts contract assigned values).weightBytes values.packedMib
  retained : CoversMib
    ((request.amounts contract assigned values).weightBytes + (request.amounts contract assigned values).resourceBytes)
    values.retainedMib
  captured : CoversMib
    ((request.amounts contract assigned values).weightBytes + (request.amounts contract assigned values).resourceBytes +
      (request.amounts contract assigned values).captureBytes) values.graphCaptureMib
  stage : ∀ point, values.stage point = request.stageExpression contract assigned values (agent = 0) point
  peak : (StartupPoint.all.map values.stage).max? = some values.peak
  headroom : values.headroom = request.freeMemoryBytes.getD agent 0 - request.extraMarginBytes - values.peak

/-! ## The audit -/

/-- What ends the placement after the solve. -/
inductive PlacementError where
  | daemon (code message : String)
  | runtime (message : String)

/-- The memory audit of one FfnAgent. -/
def auditMemory (placement : Nat → Nat → List Nat) (agent : Nat) : Except PlacementError (Int × Int) := do
  let estimate ← match request.estimateModelPlans placement agent with
    | .ok estimate => pure estimate
    | .error message => throw (.daemon "not_ready" message)
  if estimate.1 ≠ values.stage .retained ∨ estimate.2 ≠ values.peak then
    throw (.runtime s!"FFN Placement memory mismatch for FfnAgent {agent}")
  return estimate

end Request

end CrossPool.Placement
