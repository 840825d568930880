import CrossPool.Placement.Bounds

/-!
# The solver's domains

The model of the solver as a whole: the counts, the stage variables of every FfnAgent with
their domains, and the least headroom. A placement that fits the devices is a solution of
it, with the values that the placement induces. So where there is none, no placement fits.
-/

namespace CrossPool.Placement

open FfnAgent (mib sint64Max ensureSint64Nonnegative ensureSint64Nonnegative_ok)
open Lib (bind_eq_ok)

/-! ## The model -/

/-- The values of the solver's variables. -/
structure SolverValues where
  counts : Solution
  stages : Nat → StageValues
  minimumHeadroom : Int

section Model

variable {ι : Type} [DecidableEq ι] (request : Request ι)

/-- The domains of the stage variables of an FfnAgent with the given admission limit. -/
structure Request.StageDomains (values : StageValues) (admissionLimit : Int) : Prop where
  packed : values.packedMib ∈ Set.Icc 0 (alignUp request.maximumAmounts.weightBytes mib / mib)
  retained : values.retainedMib ∈
    Set.Icc 0 (alignUp (request.maximumAmounts.weightBytes + request.maximumAmounts.resourceBytes) mib / mib)
  captured : values.graphCaptureMib ∈
    Set.Icc 0 (alignUp (request.maximumAmounts.weightBytes + request.maximumAmounts.captureBytes +
      request.maximumAmounts.resourceBytes) mib / mib)
  routingElements : request.observesRouting = true → values.routingElements ≤ request.maximumRoutingElements
  routingRecordBufferBytes : request.observesRouting = true →
    values.routingRecordBufferBytes ∈ Set.Icc 0 (request.routingBytes request.maximumRoutingElements)
  stage : ∀ point, values.stage point ∈ Set.Icc 0 admissionLimit
  peak : values.peak ∈ Set.Icc 0 admissionLimit
  headroom : values.headroom ∈ Set.Icc 0 admissionLimit

/-- The constraints and domains of the solver's model. -/
structure Request.Model (solver : SolverValues) : Prop where
  counts : Feasible (request.prepared.map PreparedLayer.row) solver.counts
  stages : ∀ (agent : Nat) contract, request.contracts[agent]? = some contract →
    request.StageDefined contract (fun classIndex rank => solver.counts.assignmentCount classIndex agent rank)
      (solver.stages agent) agent
  domains : ∀ (agent : Nat) free, request.freeMemoryBytes[agent]? = some free →
    request.StageDomains (solver.stages agent) (free - request.extraMarginBytes)
  headroom : ((List.range request.freeMemoryBytes.length).map fun agent => (solver.stages agent).headroom).min? =
    some solver.minimumHeadroom
  minimum : ∃ most, request.freeMemoryBytes.max? = some most ∧ solver.minimumHeadroom ∈ Set.Icc 0 most

/-- What the estimator and `place_ffn_models` check of a request. -/
def Request.validate (request : Request ι) : Except String Unit := do
  if request.prepared.models.isEmpty then
    throw "device-memory estimation requires nonempty co-indexed Models and Profiles"
  if request.contracts.length ≠ request.prepared.ffnagentCount then
    throw "execution contracts do not match configured FfnAgent count"
  if request.freeMemoryBytes.length ≠ request.prepared.ffnagentCount then
    throw "FfnAgent free-memory observations do not match configured count"
  ensureSint64Nonnegative request.freeMemoryBytes
  ensureSint64Nonnegative [request.extraMarginBytes]
  if 0 ∈ request.freeMemoryBytes then throw "FfnAgent free-memory observations must be positive"

/-- What the ledger charges an FfnAgent at a stage, and the overhead. -/
def Request.stageMemory (contract : FfnExecutionContract) (placement : Nat → Nat → List Nat) (agent : Nat)
    (point : StartupPoint) : Int :=
  request.ledgerBytes contract (request.localLayers placement agent) (agent = 0) point +
    request.overheadOf (request.ledgerFeatures contract (request.localLayers placement agent) point)

/-- Every stage leaves every device its margin. -/
def Request.Fits (placement : Nat → Nat → List Nat) : Prop :=
  ∀ (agent : Nat) contract free, request.contracts[agent]? = some contract → request.freeMemoryBytes[agent]? = some free →
    ∀ point, request.stageMemory contract placement agent point ≤ free - request.extraMarginBytes

/-- Primary groups of which each is the group of some layer. -/
def Request.Primary (placement : Nat → Nat → List Nat) (primary : Nat → List Nat) : Prop :=
  ∀ (modelIndex : Nat) model, request.prepared.models[modelIndex]? = some model →
    ∃ layer < model.layers.length, placement modelIndex layer = primary modelIndex

/-- The counts that a placement with these primary groups induces. -/
def Request.inducedCounts (placement : Nat → Nat → List Nat) (primary : Nat → List Nat) : Solution :=
  let primaryMember (modelIndex agent rank : Nat) : Bool := (primary modelIndex)[rank]? == some agent
  let primaryLayerCount (classIndex : Nat) : Nat :=
    match request.classes[classIndex]? with
    | some layerClass =>
      (layerClass.layerIndices.map (placement layerClass.modelIndex)).countP fun group => group = primary layerClass.modelIndex
    | none => 0
  { assignmentCount := fun classIndex agent rank => (request.induces placement agent classIndex rank).toNat
    primaryMember
    primaryLayerCount
    primaryAssignmentCount := fun classIndex agent rank =>
      match request.classes[classIndex]? with
      | some layerClass => primaryLayerCount classIndex * (primaryMember layerClass.modelIndex agent rank).toNat
      | none => 0 }

/-- The values that a placement with these primary groups induces. -/
def Request.inducedValues (placement : Nat → Nat → List Nat) (primary : Nat → List Nat) : SolverValues :=
  let stages (agent : Nat) : StageValues :=
    request.induced (request.contracts.getD agent ⟨[], []⟩) (request.induces placement agent) agent
  { counts := request.inducedCounts placement primary
    stages
    minimumHeadroom :=
      ((List.range request.freeMemoryBytes.length).map fun agent => (stages agent).headroom).min?.getD 0 }

end Model

/-! ## Induced values are a solution -/

section Induced

variable {ι : Type} [DecidableEq ι] {request : Request ι} {placement : Nat → Nat → List Nat} {primary : Nat → List Nat}

omit [DecidableEq ι] in
/-- The groups of the first layers are primary groups. -/
theorem Request.Accepted.firstLayers (accepted : request.Accepted) (placement : Nat → Nat → List Nat) :
    request.Primary placement fun modelIndex => placement modelIndex 0 := by
  intro modelIndex model listed
  exact ⟨0, List.length_pos_iff.mpr (accepted.layered model (List.mem_of_getElem? listed)), rfl⟩

theorem inducedCounts_concrete (placed' : request.Placed placement) (chosen : request.Primary placement primary) :
    Concrete (request.prepared.map PreparedLayer.row) (request.inducedCounts placement primary).assignmentCount
      (request.inducedCounts placement primary).primaryMember (request.inducedCounts placement primary).primaryLayerCount
      placement := by
  have owners : ∀ (modelIndex : Nat) model, (request.prepared.map PreparedLayer.row).models[modelIndex]? = some model →
      ∃ prepared, request.prepared.models[modelIndex]? = some prepared ∧ prepared.tpSize = model.tpSize ∧
        prepared.layers.length = model.layers.length := by
    intro modelIndex model listed
    change (request.prepared.models.map (ModelLayers.map PreparedLayer.row))[modelIndex]? = some model at listed
    rw [List.getElem?_map, Option.map_eq_some_iff] at listed
    obtain ⟨prepared, there, rfl⟩ := listed
    exact ⟨prepared, there, rfl, (List.length_map _).symm⟩
  have groups : ∀ (modelIndex : Nat) model, (request.prepared.map PreparedLayer.row).models[modelIndex]? = some model →
      ∀ layer < model.layers.length, Group model.tpSize request.prepared.ffnagentCount (placement modelIndex layer) := by
    intro modelIndex model listed layer inside
    obtain ⟨prepared, there, ranks, length⟩ := owners modelIndex model listed
    rw [← ranks]
    exact placed' modelIndex prepared there layer (length ▸ inside)
  constructor
  case groups => exact groups
  case counts =>
    intro classIndex layerClass listed rank _ agent _
    have counted := request.induces_counts placement agent classIndex layerClass listed rank ‹_›
    rw [← counted]
    exact (Int.toNat_of_nonneg (request.induces_nonneg placement agent classIndex rank)).symm
  case primary =>
    intro modelIndex model listed
    obtain ⟨prepared, there, -, length⟩ := owners modelIndex model listed
    obtain ⟨layer, inside, same⟩ := chosen modelIndex prepared there
    refine ⟨primary modelIndex, ⟨?_, fun _ _ _ _ => rfl⟩, ?_⟩
    · rw [← same]
      exact groups modelIndex model listed layer (length ▸ inside)
    · rintro classIndex layerClass here rfl
      have here' : request.classes[classIndex]? = some layerClass := here
      simp only [Request.inducedCounts, here']
      exact le_refl _
  case reused =>
    intro modelIndex small
    have listed := List.getElem?_eq_getElem small
    obtain ⟨prepared, there, -, length⟩ := owners modelIndex _ listed
    obtain ⟨layer, inside, same⟩ := chosen modelIndex prepared there
    obtain ⟨layerClass, member, rfl, here⟩ := Problem.exists_class listed (length ▸ inside)
    obtain ⟨classIndex, found⟩ := List.mem_iff_getElem?.mp member
    have found' : request.classes[classIndex]? = some layerClass := found
    have counted : 1 ≤ (request.inducedCounts placement primary).primaryLayerCount classIndex := by
      simp only [Request.inducedCounts, found']
      apply List.countP_pos_iff.mpr
      exact ⟨_, List.mem_map.mpr ⟨layer, here, rfl⟩, decide_eq_true same⟩
    rw [Problem.primaryLayers]
    refine counted.trans (List.le_sum_of_mem (List.mem_map.mpr ⟨(layerClass, classIndex), ?_, if_pos rfl⟩))
    exact List.mem_zipIdx_iff_getElem?.mpr found

theorem inducedCounts_feasible (placed' : request.Placed placement) (chosen : request.Primary placement primary) :
    Feasible (request.prepared.map PreparedLayer.row) (request.inducedCounts placement primary) := by
  convert (inducedCounts_concrete placed' chosen).feasible using 1
  refine congrArg (Solution.mk _ _ _) ?_
  funext classIndex agent rank
  simp only [Request.inducedCounts, Request.classes]
  cases (request.prepared.map PreparedLayer.row).classes[classIndex]? <;> rfl

/-- The induced values of an FfnAgent are within the domains where its stages fit. -/
theorem induced_domains (accepted : request.Accepted) {bound : Int} (passed : request.preCheck = .ok bound)
    (placed' : request.Placed placement) {agent : Nat} {contract : FfnExecutionContract} {free : Int}
    (listed : request.contracts[agent]? = some contract) (measured : request.freeMemoryBytes[agent]? = some free)
    (fits : ∀ point, request.stageMemory contract placement agent point ≤ free - request.extraMarginBytes) :
    request.StageDomains (request.induced contract (request.induces placement agent) agent)
      (free - request.extraMarginBytes) := by
  have defined := Request.induced_defined placed' contract agent
  have settled : Settled request contract placement agent _ _ := ⟨placed', request.induces_counts placement agent, defined⟩
  obtain ⟨sized, -, -⟩ := accepted.preCheck passed
  have within := sized.amounts placed' (List.mem_of_getElem? listed) agent
    (request.induced contract (request.induces placement agent) agent)
  obtain ⟨weight, weight'⟩ := within.weightBytes
  obtain ⟨resource, resource'⟩ := within.resourceBytes
  obtain ⟨capture, capture'⟩ := within.captureBytes
  have mibs {bytes mibs most : Int} (covers : Request.CoversMib bytes mibs) (nonneg : 0 ≤ bytes) (fewer : bytes ≤ most) :
      mibs ∈ Set.Icc 0 (alignUp most mib / mib) := by
    rw [covers_eq covers, alignUp, Int.mul_ediv_cancel _ (by decide)]
    exact ⟨mibOf_nonneg nonneg, mibOf_mono fewer⟩
  have stage (point : StartupPoint) : (request.induced contract (request.induces placement agent) agent).stage point ∈
      Set.Icc 0 (free - request.extraMarginBytes) := by
    rw [defined.stage]
    refine ⟨(stageExpression_mem accepted passed defined within _ point).1, ?_⟩
    rw [Request.stageExpression, settled.physicalCost, settled.overheadCost]
    exact fits point
  have peak : (request.induced contract (request.induces placement agent) agent).peak ∈
      Set.Icc 0 (free - request.extraMarginBytes) := by
    obtain ⟨point, -, same⟩ := List.mem_map.mp (List.max?_mem defined.peak)
    rw [← same]
    exact stage point
  constructor
  case packed => exact mibs defined.packed weight weight'
  case retained => exact mibs defined.retained (by linarith) (by linarith)
  case captured => exact mibs defined.captured (by linarith) (by linarith)
  case routingElements => exact routingElements_le defined
  case routingRecordBufferBytes => exact routingRecordBufferBytes_mem accepted defined
  case stage => exact stage
  case peak => exact peak
  case headroom =>
    rw [defined.headroom, List.getD_eq_getElem?_getD, measured, Option.getD_some]
    exact ⟨sub_nonneg.mpr peak.2, sub_le_self _ peak.1⟩

omit [DecidableEq ι] in
/-- The checks leave devices, each with an observation and a contract, and a margin. -/
theorem Request.validate_ok (valid : request.validate = .ok ()) :
    request.freeMemoryBytes ≠ [] ∧ request.freeMemoryBytes.length = request.contracts.length ∧
      0 ≤ request.extraMarginBytes := by
  simp only [Request.validate] at valid
  split at valid
  · cases valid
  · next some' =>
    split at valid
    · cases valid
    · next contracts =>
      split at valid
      · cases valid
      · next observed =>
        obtain ⟨_, _, valid⟩ := bind_eq_ok.mp valid
        obtain ⟨_, margin, _⟩ := bind_eq_ok.mp valid
        refine ⟨?_, ?_, (ensureSint64Nonnegative_ok.mp margin _ List.mem_cons_self).1⟩
        · rw [Bool.not_eq_true, List.isEmpty_eq_false_iff] at some'
          obtain ⟨model, member⟩ := List.exists_mem_of_ne_nil _ some'
          have ranked := model.ranked
          have fits := request.prepared.fits model member
          rw [← List.length_pos_iff]
          omega
        · omega

/-- The least headroom is one of a device, and no more than the most that is free. -/
theorem inducedValues_headroom (valid : request.validate = .ok ())
    (domains : ∀ (agent : Nat) free, request.freeMemoryBytes[agent]? = some free →
      request.StageDomains ((request.inducedValues placement primary).stages agent) (free - request.extraMarginBytes)) :
    ((List.range request.freeMemoryBytes.length).map fun agent =>
        ((request.inducedValues placement primary).stages agent).headroom).min? =
      some (request.inducedValues placement primary).minimumHeadroom ∧
      ∃ most, request.freeMemoryBytes.max? = some most ∧
        (request.inducedValues placement primary).minimumHeadroom ∈ Set.Icc 0 most := by
  obtain ⟨some', -, margin⟩ := request.validate_ok valid
  have devices : (List.range request.freeMemoryBytes.length).map (fun agent =>
      ((request.inducedValues placement primary).stages agent).headroom) ≠ [] := by
    simpa using some'
  have least : ((List.range request.freeMemoryBytes.length).map fun agent =>
        ((request.inducedValues placement primary).stages agent).headroom).min? =
      some (request.inducedValues placement primary).minimumHeadroom := by
    cases found : ((List.range request.freeMemoryBytes.length).map fun agent =>
        ((request.inducedValues placement primary).stages agent).headroom).min? with
    | none => exact absurd (List.min?_eq_none_iff.mp found) devices
    | some headroom =>
      have same : (request.inducedValues placement primary).minimumHeadroom =
        ((List.range request.freeMemoryBytes.length).map fun agent =>
          ((request.inducedValues placement primary).stages agent).headroom).min?.getD 0 := rfl
      rw [same, found, Option.getD_some]
  refine ⟨least, _, max?_getD_of_ne_nil some' 0, ?_⟩
  obtain ⟨agent, listed, same⟩ := List.mem_map.mp (List.min?_mem least)
  have inside := List.mem_range.mp listed
  have measured := List.getElem?_eq_getElem inside
  obtain ⟨positive, below⟩ := (domains agent _ measured).headroom
  have most := (List.max?_eq_some_iff.mp (max?_getD_of_ne_nil some' 0)).2 _ (List.getElem_mem inside)
  rw [← same]
  exact ⟨positive, by omega⟩

end Induced

section Solver

variable {ι : Type} [DecidableEq ι]

/-- The pre-check bounds every stage of every placement, and a placement that fits the
devices is, with the values that it induces, a solution of the solver's model. So no
placement fits where the model has no solution. -/
theorem solver_excludes_none (request : Request ι) (accepted : request.Accepted) (valid : request.validate = .ok ())
    {bound : Int} (passed : request.preCheck = .ok bound) :
    (∀ placement, request.Placed placement →
      (∀ (agent : Nat) contract, request.contracts[agent]? = some contract → ∀ point,
        (request.stageExpression contract (request.induces placement agent)
            (request.induced contract (request.induces placement agent) agent) (agent = 0) point =
          request.stageMemory contract placement agent point) ∧
          request.stageMemory contract placement agent point ∈ Set.Icc 0 bound) ∧
        ∀ primary, request.Primary placement primary → request.Fits placement →
          request.Model (request.inducedValues placement primary)) ∧
      bound ≤ sint64Max ∧
        ((¬∃ solver, request.Model solver) → ∀ placement, request.Placed placement → ¬request.Fits placement) := by
  obtain ⟨sized, room, -⟩ := accepted.preCheck passed
  obtain ⟨-, counted, margin⟩ := request.validate_ok valid
  have solution : ∀ placement, request.Placed placement → ∀ primary, request.Primary placement primary →
      request.Fits placement → request.Model (request.inducedValues placement primary) := by
    intro placement placed primary chosen fits
    have stages : ∀ (agent : Nat) contract, request.contracts[agent]? = some contract →
        (request.inducedValues placement primary).stages agent =
          request.induced contract (request.induces placement agent) agent := by
      intro agent contract listed
      simp only [Request.inducedValues, List.getD_eq_getElem?_getD, listed, Option.getD_some]
    have domains : ∀ (agent : Nat) free, request.freeMemoryBytes[agent]? = some free →
        request.StageDomains ((request.inducedValues placement primary).stages agent) (free - request.extraMarginBytes) := by
      intro agent free measured
      have inside := (List.getElem?_eq_some_iff.mp measured).1
      rw [counted] at inside
      have listed := List.getElem?_eq_getElem inside
      rw [stages agent _ listed]
      exact induced_domains accepted passed placed listed measured (fits agent _ free listed measured)
    have least := inducedValues_headroom valid domains
    refine ⟨inducedCounts_feasible placed chosen, ?_, domains, least.1, least.2⟩
    intro agent contract listed
    rw [stages agent contract listed]
    have same : (fun classIndex rank =>
        ((request.inducedValues placement primary).counts.assignmentCount classIndex agent rank : Int)) =
          request.induces placement agent := by
      funext classIndex rank
      exact Int.toNat_of_nonneg (request.induces_nonneg placement agent classIndex rank)
    rw [same]
    exact Request.induced_defined placed contract agent
  refine ⟨fun placement placed => ⟨?_, solution placement placed⟩, by omega, ?_⟩
  · intro agent contract listed point
    have defined := Request.induced_defined placed contract agent
    have settled : Settled request contract placement agent _ _ := ⟨placed, request.induces_counts placement agent, defined⟩
    have within := sized.amounts placed (List.mem_of_getElem? listed) agent
      (request.induced contract (request.induces placement agent) agent)
    have agree : request.stageExpression contract (request.induces placement agent)
        (request.induced contract (request.induces placement agent) agent) (agent = 0) point =
          request.stageMemory contract placement agent point := by
      rw [Request.stageExpression, settled.physicalCost, settled.overheadCost, Request.stageMemory]
    rw [← agree]
    exact ⟨rfl, stageExpression_mem accepted passed defined within _ point⟩
  · intro none placement placed fits
    exact none ⟨_, solution placement placed _ (accepted.firstLayers placement) fits⟩

end Solver

/-! ## An example -/

theorem pairRequest_accepted : pairRequest.Accepted where
  layered := by decide
  extents := by
    intro contract member declaration listed
    obtain rfl := List.eq_of_mem_replicate member
    revert declaration
    decide
  coefficients := by
    intro coefficients same
    cases same
    decide
  control := by decide
  routing := by
    intro elements others fewer
    change 64 + 8 * elements ≤ 64 + 8 * others
    omega

/-- The example's placement is a solution, with the first layers' groups as primary groups. -/
theorem solver_excludes_none_pair : ∃ bound, pairRequest.preCheck = .ok bound ∧
    pairRequest.Model (pairRequest.inducedValues pairPlacement fun modelIndex => pairPlacement modelIndex 0) := by
  have checked : pairRequest.preCheck.isOk = true := by decide +kernel
  have valid : pairRequest.validate = .ok () := by decide +kernel
  have stages : ∀ agent < 2, ∀ contract ∈ pairRequest.contracts, ∀ point ∈ StartupPoint.all,
      pairRequest.stageMemory contract pairPlacement agent point ≤ 1073741824 - 1048576 := by decide +kernel
  have fits : pairRequest.Fits pairPlacement := by
    intro agent contract free listed measured point
    have small : agent < 2 := (List.getElem?_eq_some_iff.mp listed).1
    have same : free = 1073741824 := List.eq_of_mem_replicate (n := 2) (List.mem_of_getElem? measured)
    rw [same]
    exact stages agent small contract (List.mem_of_getElem? listed) point (by cases point <;> decide)
  cases passed : pairRequest.preCheck with
  | error _ => simp [passed, Except.isOk, Except.toBool] at checked
  | ok bound =>
    obtain ⟨solutions, -, -⟩ := solver_excludes_none pairRequest pairRequest_accepted valid passed
    exact ⟨bound, rfl, (solutions pairPlacement pairRequest_placed).2 _ (pairRequest_accepted.firstLayers pairPlacement) fits⟩

end CrossPool.Placement
