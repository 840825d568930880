import CrossPool.Lib.Procedure
import CrossPool.Placement.Induced

/-!
# Two accountings of a placement

At the counts of a concrete placement the solver's stage expressions are the estimator's
stage estimates. What is charged by layer is a sum over classes and ranks in the one and
over the layers in the other; what layers share is charged where it is present, which is
where some layer of the FfnAgent has it.
-/

namespace CrossPool.Placement

open FfnAgent (mib ensureSint64Nonnegative DeviceMemoryFeatures DeviceMemoryPoint FfnMemoryCalibrationCoefficients)
open Lib (bind_eq_ok)

/-! ## The ledger -/

section Ledger

variable {ι : Type} {layers : List (PreparedLayer ι)}

theorem allocatorReservationBytes_ok {storage : List Int} {reserved : Int}
    (returned : allocatorReservationBytes storage = .ok reserved) : reserved = reservation storage := by
  simp only [allocatorReservationBytes, bind_eq_ok] at returned
  obtain ⟨-, -, returned⟩ := returned
  rw [reservation]
  split at returned
  · next empty =>
    rw [if_pos empty]
    exact (Except.ok.inj returned).symm
  · next some' =>
    rw [if_neg some']
    split at returned
    · cases returned
    · obtain ⟨-, -, returned⟩ := bind_eq_ok.mp returned
      exact (Except.ok.inj returned).symm

theorem reservationAllowance_ok {storage : List Int} {allowance : Int}
    (returned : reservationAllowance storage = .ok allowance) : allowance = reservation storage - storage.sum := by
  obtain ⟨reserved, asked, returned⟩ := bind_eq_ok.mp returned
  rw [← allocatorReservationBytes_ok asked]
  exact (Except.ok.inj returned).symm

theorem graphCaptureAllocatorAllowanceBytes_ok {signature : ExecutionSignature ι} {allowance : Int}
    (returned : signature.graphCaptureAllocatorAllowanceBytes = .ok allowance) : allowance = signature.allowance := by
  obtain ⟨reserved, asked, returned⟩ := bind_eq_ok.mp returned
  obtain ⟨-, -, returned⟩ := bind_eq_ok.mp returned
  rw [ExecutionSignature.allowance, ← Except.ok.inj returned]
  apply congrArg (· - signature.storageBytes.sum)
  rw [ExecutionSignature.graphCaptureReservedBytes] at asked
  split at asked
  · next dense =>
    rw [if_pos dense]
    exact allocatorReservationBytes_ok asked
  · next moe =>
    rw [if_neg moe]
    obtain ⟨each, asked, same⟩ := bind_eq_ok.mp asked
    rw [← Except.ok.inj same, Lib.mapM_eq_ok (fun _ _ _ answered => allocatorReservationBytes_ok answered) asked]

theorem resourcePlan_ok {workspace : ExecutionSignature ι → Int} {contract : FfnExecutionContract}
    {signatures : List (ExecutionSignature ι)} {groups : List ExecutionResourceGroup}
    (returned : resourcePlan workspace contract signatures = .ok groups) :
    groups = laneResources workspace contract signatures := by
  simp only [resourcePlan, bind_eq_ok] at returned
  obtain ⟨-, -, -, -, returned⟩ := returned
  exact (Except.ok.inj returned).symm

theorem capturePoolReservationBytes_ok {groups : List ExecutionResourceGroup} {reserved : Int}
    (returned : capturePoolReservationBytes groups = .ok reserved) : reserved = poolReservation groups := by
  simp only [capturePoolReservationBytes, bind_eq_ok] at returned
  obtain ⟨each, asked, -, -, returned⟩ := returned
  rw [← Except.ok.inj returned, Lib.mapM_eq_ok (fun _ _ _ answered => allocatorReservationBytes_ok answered) asked,
    poolReservation]

theorem featuresOf_ok {storage allocations dense moe lanes branches : Int} {densePresent moePresent joined : Bool}
    {features : DeviceMemoryFeatures}
    (returned : featuresOf storage allocations dense moe lanes branches densePresent moePresent joined = .ok features) :
    features.calibrationValues =
      ![1, (storage + mib - 1) / mib * mib / mib, allocations, dense, moe, lanes, branches, densePresent.toInt,
        moePresent.toInt, joined.toInt] := by
  rw [featuresOf] at returned
  split at returned
  · obtain rfl := Except.ok.inj returned
    cases densePresent <;> cases moePresent <;> cases joined <;> rfl
  · cases returned

theorem pointOf_ok {charges : List (Int × Int)} {features : DeviceMemoryFeatures} {point : DeviceMemoryPoint}
    (returned : pointOf charges features = .ok point) :
    point.estimatedPhysicalBytes = charges.map Prod.snd ∧ point.features = features := by
  obtain ⟨-, -, returned⟩ := bind_eq_ok.mp returned
  split at returned
  · obtain rfl := Except.ok.inj returned
    exact ⟨rfl, rfl⟩
  · cases returned

/-- The overhead of calibration values. -/
def Request.overheadOf (request : Request ι) (values : Fin 10 → Int) : Int :=
  match request.coefficients with
  | none => 0
  | some coefficients => ∑ i, coefficients.values i * values i

theorem estimatePoint_ok {request : Request ι} {point : DeviceMemoryPoint} {estimate : Int}
    (returned : request.estimatePoint point = .ok estimate) :
    estimate = point.estimatedPhysicalBytes.sum + request.overheadOf point.features.calibrationValues := by
  rw [Request.estimatePoint] at returned
  obtain ⟨overhead, asked, returned⟩ := bind_eq_ok.mp returned
  obtain ⟨analytic, summed, returned⟩ := bind_eq_ok.mp returned
  obtain ⟨-, -, summed⟩ := bind_eq_ok.mp summed
  rw [← Except.ok.inj returned, ← Except.ok.inj summed, Request.overheadOf]
  apply congrArg (point.estimatedPhysicalBytes.sum + ·)
  rw [Request.pointOverhead] at asked
  cases calibrated : request.coefficients with
  | none =>
    rw [calibrated] at asked
    exact (Except.ok.inj asked).symm
  | some coefficients =>
    rw [calibrated] at asked
    obtain ⟨-, -, asked⟩ := bind_eq_ok.mp asked
    exact (Except.ok.inj asked).symm

variable [DecidableEq ι]

/-- The physical bytes that the ledger charges at a point. -/
def Request.ledgerBytes (request : Request ι) (contract : FfnExecutionContract) (layers : List (PreparedLayer ι))
    (coordinator : Bool) (point : StartupPoint) : Int :=
  let amounts := request.localAmounts contract layers
  let joined := amounts.weightBytes + amounts.weightAllowance + request.fabricJoinBytes
  let captured := joined + amounts.poolBytes + (amounts.captureBytes + amounts.captureAllowance)
  let installed :=
    request.runtimeBytes amounts.layerCount amounts.capacityCount amounts.signatureCount coordinator +
      request.routingBytes
        ((((localSignatures layers).filter ExecutionSignature.routes).map ExecutionSignature.routingElements).max?.getD 0)
  match point with
  | .weightMaterialization => amounts.weightBytes + amounts.weightAllowance
  | .fabricJoin => joined
  | .graphCapture => captured
  | .executionInstallation => captured + installed
  | .retained => joined + amounts.poolBytes + installed

/-- The calibration values of the ledger at a point. -/
def Request.ledgerFeatures (request : Request ι) (contract : FfnExecutionContract) (layers : List (PreparedLayer ι))
    (point : StartupPoint) : Fin 10 → Int :=
  let amounts := request.localAmounts contract layers
  let lanes : Int := request.ffnConcurrency
  let mibs (bytes : Int) := (bytes + mib - 1) / mib * mib / mib
  let dense : Int := ((localSignatures layers).filter ExecutionSignature.isDense).length
  let moe : Int := (localSignatures layers).length - dense
  let densePresent := (decide (dense ≠ 0)).toInt
  let moePresent := (decide (moe ≠ 0)).toInt
  match point with
  | .weightMaterialization => ![1, mibs amounts.weightBytes, amounts.weightAllocations, 0, 0, 0, 0, 0, 0, 0]
  | .fabricJoin => ![1, mibs amounts.weightBytes, amounts.weightAllocations, 0, 0, 0, 0, 0, 0, 1]
  | .graphCapture | .executionInstallation =>
    ![1, mibs (amounts.weightBytes + amounts.captureBytes + amounts.resourceBytes),
      amounts.weightAllocations + amounts.captureAllocations + amounts.resourceAllocations, amounts.denseCaptureCount,
      amounts.moeCaptureCount, lanes, lanes * amounts.signatureCount, densePresent, moePresent, 1]
  | .retained =>
    ![1, mibs (amounts.weightBytes + amounts.resourceBytes), amounts.weightAllocations + amounts.resourceAllocations, 0, 0,
      lanes, lanes * amounts.signatureCount, densePresent, moePresent, 1]

/-- A ledger that returns charges these bytes with these features. -/
theorem allocationLedger_ok {request : Request ι} {contract : FfnExecutionContract} {coordinator : Bool}
    {points : List (StartupPoint × DeviceMemoryPoint)}
    (returned : request.allocationLedger contract layers coordinator = .ok points) :
    points.map (fun entry => (entry.1, entry.2.estimatedPhysicalBytes.sum, entry.2.features.calibrationValues)) =
      StartupPoint.all.map fun point =>
        (point, request.ledgerBytes contract layers coordinator point, request.ledgerFeatures contract layers point) := by
  simp only [Request.allocationLedger, bind_eq_ok] at returned
  obtain ⟨_, weighed, _, allowed, _, probed, _, planned, _, pooled, -, -, -, -, weight, weightFeatures, joined, joinedFeatures,
    capture, captureFeatures, kept, keptFeatures, first, firstPoint, second, secondPoint, third, thirdPoint, fourth, fourthPoint,
    fifth, fifthPoint, returned⟩ := returned
  obtain rfl := Lib.mapM_eq_ok (fun _ _ _ answered => reservationAllowance_ok answered) weighed
  obtain rfl := Lib.mapM_eq_ok (fun _ _ _ answered => graphCaptureAllocatorAllowanceBytes_ok answered) allowed
  obtain rfl := Lib.mapM_eq_ok (fun _ _ _ answered => reservationAllowance_ok answered) probed
  obtain rfl := resourcePlan_ok planned
  obtain rfl := capturePoolReservationBytes_ok pooled
  rw [← Except.ok.inj returned]
  simp only [List.map_cons, List.map_nil, StartupPoint.all, (pointOf_ok firstPoint).1, (pointOf_ok firstPoint).2,
    (pointOf_ok secondPoint).1, (pointOf_ok secondPoint).2, (pointOf_ok thirdPoint).1, (pointOf_ok thirdPoint).2,
    (pointOf_ok fourthPoint).1, (pointOf_ok fourthPoint).2, (pointOf_ok fifthPoint).1, (pointOf_ok fifthPoint).2,
    featuresOf_ok weightFeatures, featuresOf_ok joinedFeatures, featuresOf_ok captureFeatures, featuresOf_ok keptFeatures,
    List.sum_cons, List.sum_nil]
  clear weighed allowed probed planned pooled weightFeatures joinedFeatures captureFeatures keptFeatures firstPoint
    secondPoint thirdPoint fourthPoint fifthPoint returned
  simp only [List.cons.injEq, Prod.mk.injEq, true_and, and_true]
  refine ⟨⟨?_, rfl⟩, ⟨?_, rfl⟩, ⟨?_, rfl⟩, ⟨?_, rfl⟩, ?_, rfl⟩
  all_goals
    simp only [Request.ledgerBytes, Request.localAmounts, localSignatures, localPairs]
    ring

/-- An estimate that returns is of these bytes and features. -/
theorem stageEstimates_ok {request : Request ι} {contract : FfnExecutionContract} {placement : Nat → Nat → List Nat}
    {agent : Nat} {estimates : List (StartupPoint × Int)} (listed : request.contracts[agent]? = some contract)
    (returned : request.stageEstimates placement agent = .ok estimates) :
    estimates = StartupPoint.all.map fun point =>
      (point, request.ledgerBytes contract (request.localLayers placement agent) (agent = 0) point +
        request.overheadOf (request.ledgerFeatures contract (request.localLayers placement agent) point)) := by
  rw [Request.stageEstimates, listed] at returned
  obtain ⟨points, charged, returned⟩ := bind_eq_ok.mp returned
  obtain ⟨answers, estimated, returned⟩ := bind_eq_ok.mp returned
  obtain ⟨-, -, returned⟩ := bind_eq_ok.mp returned
  obtain rfl := Except.ok.inj returned
  have known : answers = points.map fun entry =>
      (entry.1, entry.2.estimatedPhysicalBytes.sum + request.overheadOf entry.2.features.calibrationValues) := by
    refine Lib.mapM_eq_ok ?_ estimated
    intro entry _ result answered
    obtain ⟨estimate, asked, answered⟩ := bind_eq_ok.mp answered
    rw [← Except.ok.inj answered, estimatePoint_ok asked]
  have ledger := allocationLedger_ok charged
  have summed := congrArg (List.map fun entry => (entry.1, entry.2.1 + request.overheadOf entry.2.2)) ledger
  rw [List.map_map, List.map_map] at summed
  rw [known]
  exact summed

end Ledger

/-! ## Agreement -/

section Agreement

variable {ι : Type} [DecidableEq ι] {request : Request ι} {placement : Nat → Nat → List Nat} {agent : Nat}
  {assigned : Nat → Nat → Int} {values : StageValues} {contract : FfnExecutionContract}

omit [DecidableEq ι] in
/-- The counts of the runtime are charged linearly. -/
theorem runtimeExpression_eq (amounts : StageAmounts) (coordinator : Bool) :
    request.runtimeExpression amounts coordinator =
      request.runtimeBytes amounts.layerCount amounts.capacityCount amounts.signatureCount coordinator := by
  simp only [Request.runtimeExpression, Request.runtimeBytes, Request.executionStateAllocationBytes]
  ring

theorem Settled.physicalCost (settled : Settled request contract placement agent assigned values) (coordinator : Bool)
    (point : StartupPoint) : request.physicalCost contract assigned values coordinator point =
      request.ledgerBytes contract (request.localLayers placement agent) coordinator point := by
  unfold Request.physicalCost Request.ledgerBytes
  simp only [settled.amounts, settled.routing, runtimeExpression_eq]
  cases point with
  | weightMaterialization => rfl
  | fabricJoin => rfl
  | graphCapture =>
    dsimp only
    ring
  | executionInstallation =>
    dsimp only
    ring
  | retained => rfl

omit [DecidableEq ι] in
/-- The overhead expression is linear in the calibration values. -/
theorem calibratedOverhead_eq (storageMib allocationCount denseCount moeCount laneCount branchCount joined : Int) :
    request.calibratedOverhead values storageMib allocationCount denseCount moeCount laneCount branchCount joined =
      request.overheadOf ![1, storageMib, allocationCount, denseCount, moeCount, laneCount, branchCount,
        if laneCount ≠ 0 then values.densePresent.toInt else 0, if laneCount ≠ 0 then values.moePresent.toInt else 0,
        joined] := by
  rw [Request.calibratedOverhead, Request.overheadOf]
  cases request.coefficients with
  | none => rfl
  | some coefficients =>
    simp only [FfnMemoryCalibrationCoefficients.values, Fin.sum_univ_succ, Matrix.cons_val_zero, Matrix.cons_val_succ,
      Fin.sum_univ_zero]
    ring

theorem Settled.overheadCost (settled : Settled request contract placement agent assigned values) (point : StartupPoint) :
    request.overheadCost contract assigned values point =
      request.overheadOf (request.ledgerFeatures contract (request.localLayers placement agent) point) := by
  have lanes : (request.ffnConcurrency : Int) ≠ 0 := by
    have positive := request.concurrent
    omega
  have packed := coversMib_eq settled.defined.packed
  have retained := coversMib_eq settled.defined.retained
  have captured := coversMib_eq settled.defined.captured
  rw [settled.amounts] at packed retained captured
  have densePresent := settled.densePresent
  have moePresent := settled.moePresent
  unfold Request.overheadCost Request.ledgerFeatures
  simp only [settled.amounts, calibratedOverhead_eq]
  rw [Int.add_right_comm (request.localAmounts contract (request.localLayers placement agent)).weightBytes] at captured
  cases point with
  | weightMaterialization =>
    rw [packed]
    simp
  | fabricJoin =>
    rw [packed]
    simp
  | graphCapture =>
    dsimp only
    rw [captured, densePresent, moePresent, if_pos lanes, if_pos lanes]
  | executionInstallation =>
    dsimp only
    rw [captured, densePresent, moePresent, if_pos lanes, if_pos lanes]
  | retained =>
    dsimp only
    rw [retained, densePresent, moePresent, if_pos lanes, if_pos lanes]

/-- For every placement of the layers, and values of the stage variables as the constraints
define them, the stage expressions of an FfnAgent are the stage estimates of the estimator,
its retained and peak bytes are those of the variables, and the audit finds no mismatch. -/
theorem stages_agree (request : Request ι) (placement : Nat → Nat → List Nat) (placed : request.Placed placement)
    {agent : Nat} {contract : FfnExecutionContract} (listed : request.contracts[agent]? = some contract)
    {assigned : Nat → Nat → Int} (counts : request.Counts placement agent assigned) {values : StageValues}
    (defined : request.StageDefined contract assigned values agent) :
    (∀ estimates, request.stageEstimates placement agent = .ok estimates →
        estimates = StartupPoint.all.map fun point =>
          (point, request.stageExpression contract assigned values (agent = 0) point)) ∧
      (∀ estimate, request.estimateModelPlans placement agent = .ok estimate →
        estimate = (values.stage .retained, values.peak)) ∧
        ∀ message, request.auditMemory values placement agent ≠ .error (.runtime message) := by
  have settled : Settled request contract placement agent assigned values := ⟨placed, counts, defined⟩
  have stages : ∀ estimates, request.stageEstimates placement agent = .ok estimates →
      estimates = StartupPoint.all.map fun point =>
        (point, request.stageExpression contract assigned values (agent = 0) point) := by
    intro estimates returned
    rw [stageEstimates_ok listed returned]
    apply List.map_congr_left
    intro point _
    rw [Request.stageExpression, settled.physicalCost, settled.overheadCost]
  have whole : ∀ estimate, request.estimateModelPlans placement agent = .ok estimate →
      estimate = (values.stage .retained, values.peak) := by
    intro estimate returned
    rw [Request.estimateModelPlans] at returned
    obtain ⟨estimates, estimated, returned⟩ := bind_eq_ok.mp returned
    have known : estimates = StartupPoint.all.map fun point => (point, values.stage point) := by
      rw [stages estimates estimated]
      apply List.map_congr_left
      intro point _
      rw [defined.stage]
    have peaks : (estimates.map Prod.snd).max? = some values.peak := by
      rw [known, List.map_map]
      exact defined.peak
    have retained : estimates.find? (·.1 = .retained) = some (.retained, values.stage .retained) := by
      rw [known]
      rfl
    rw [peaks, retained] at returned
    exact (Except.ok.inj returned).symm
  refine ⟨stages, whole, ?_⟩
  intro message failed
  rw [Request.auditMemory] at failed
  cases estimated : request.estimateModelPlans placement agent with
  | error _ =>
    rw [estimated] at failed
    cases failed
  | ok estimate =>
    obtain rfl := whole estimate estimated
    rw [estimated] at failed
    simp [bind, Except.bind, pure, Except.pure] at failed

end Agreement

/-! ## An example -/

/-- Two FfnAgents for a model with two like layers and one with a router. -/
def pairRequest : Request Nat where
  prepared :=
    { ffnagentCount := 2
      models :=
        [{ tpSize := 2
           layers := List.replicate 2 (List.replicate 2 ⟨[4096, 1000], [.dense 2 8 64 [4096, 1000] 0]⟩)
           ranked := Nat.two_pos
           rows := by decide },
         { tpSize := 1
           layers := [[⟨[3000000], [.moe 2 8 64 2 (some ⟨[512], some 16, 64, 0⟩) [3000000] 0]⟩]]
           ranked := Nat.one_pos
           rows := by decide }]
      fits := by decide }
  contracts :=
    List.replicate 2
      ⟨[⟨⟨"blas", [1048576], 1048576, some 1048576⟩, [.dense]⟩,
        ⟨⟨"route", [2048], 2048, none⟩, [.dense, .moeRouter]⟩], []⟩
  ffnConcurrency := 2
  routingObserver := true
  fabricArenaBytes := 4194304
  fabricObserverBytes := 4096
  coordinatorControlBytes := 64
  layerEntryBytes := 24
  capacityEntryBytes := 16
  bindingSchemaBytes := 48
  laneStateBytes := 128
  routingLayoutBytes := fun elementCapacity => 64 + 8 * elementCapacity
  workspace := fun _ => 65536
  coefficients := some ⟨1048576, 3, 5, 7, 11, 13, 17, 19, 23, 29⟩
  freeMemoryBytes := [1073741824, 1073741824]
  extraMarginBytes := 1048576
  concurrent := Nat.two_pos

/-- The dense layers are split both ways; the second FfnAgent also has the router. -/
def pairPlacement (modelIndex layer : Nat) : List Nat :=
  if modelIndex = 0 then if layer = 0 then [0, 1] else [1, 0] else [1]

theorem pairRequest_placed : pairRequest.Placed pairPlacement := by
  intro modelIndex model listed layer inside
  rcases modelIndex with _ | _ | modelIndex
  · cases listed
    rcases layer with _ | _ | layer
    · exact ⟨rfl, by decide, by decide⟩
    · exact ⟨rfl, by decide, by decide⟩
    · simp at inside
  · cases listed
    rcases layer with _ | layer
    · exact ⟨rfl, by decide, by decide⟩
    · simp at inside
  · cases listed

/-- The estimates of the second FfnAgent are the stage expressions at its induced values. -/
theorem stages_agree_pair : ∃ contract values estimates estimate,
    pairRequest.StageDefined contract (pairRequest.induces pairPlacement 1) values 1 ∧
      pairRequest.stageEstimates pairPlacement 1 = .ok estimates ∧
        (estimates = StartupPoint.all.map fun point =>
          (point, pairRequest.stageExpression contract (pairRequest.induces pairPlacement 1) values false point)) ∧
          pairRequest.estimateModelPlans pairPlacement 1 = .ok estimate ∧ estimate = (values.stage .retained, values.peak) := by
  obtain ⟨contract, listed⟩ : ∃ contract, pairRequest.contracts[1]? = some contract := ⟨_, rfl⟩
  have defined := Request.induced_defined pairRequest_placed contract 1
  obtain ⟨agree, whole, -⟩ :=
    stages_agree pairRequest pairPlacement pairRequest_placed listed (pairRequest.induces_counts pairPlacement 1) defined
  have estimated : (pairRequest.stageEstimates pairPlacement 1).isOk = true := by decide +kernel
  have returned : (pairRequest.estimateModelPlans pairPlacement 1).isOk = true := by decide +kernel
  cases first : pairRequest.stageEstimates pairPlacement 1 with
  | error _ => simp [first, Except.isOk, Except.toBool] at estimated
  | ok estimates =>
    cases second : pairRequest.estimateModelPlans pairPlacement 1 with
    | error _ => simp [second, Except.isOk, Except.toBool] at returned
    | ok estimate =>
      exact ⟨contract, _, estimates, estimate, defined, rfl, agree estimates first, rfl, whole estimate second⟩

end CrossPool.Placement
