import CrossPool.FfnAgent.Execution
import CrossPool.Fabric.Rendezvous
import CrossPool.Fabric.Submissions

/-!
# Installed execution tables

Installation flattens the descriptor of one FfnAgent into two device tables, one row for
each local layer of the Fabric and one for each of its capacities. A lane looks up every
execution it is leased in them. The Coordinator knows the Fabric tables alone; that it
never leases an execution the lookup refuses is shown here, over every run.
-/

namespace CrossPool.FfnAgent

open CrossPool.Lib
open CrossPool.Fabric (ArenaProjection Instance Layer Topology CapacityExecutionEntry LaneExecution Invocation)

/-! ## Materialization -/

/-- The target addresses of a layer's weights; an absent resource is null. -/
structure LayerBindingValues where
  gateUpValuesAddress : Nat
  gateUpScalesAddress : Nat
  gateUpBiasAddress : Nat
  downValuesAddress : Nat
  downScalesAddress : Nat
  downBiasAddress : Nat
  routerValuesAddress : Nat
  routerScalesAddress : Nat
  routerBiasAddress : Nat
  routerCorrectionBiasAddress : Nat
deriving DecidableEq, Repr

def materializeBindingValues (resources : BindingView) : LayerBindingValues where
  gateUpValuesAddress := resources.gateUp.values
  gateUpScalesAddress := resources.gateUp.scales.getD 0
  gateUpBiasAddress := resources.gateUp.bias.getD 0
  downValuesAddress := resources.down.values
  downScalesAddress := resources.down.scales.getD 0
  downBiasAddress := resources.down.bias.getD 0
  routerValuesAddress := (resources.router.map (·.projection.values)).getD 0
  routerScalesAddress := (resources.router.bind (·.projection.scales)).getD 0
  routerBiasAddress := (resources.router.bind (·.projection.bias)).getD 0
  routerCorrectionBiasAddress := (resources.router.bind (·.correctionBiasAddress)).getD 0

/-- A row of the layer table; its capacities are a window of the other. -/
structure LayerExecutionEntry where
  instanceIndex : Nat
  layerOrdinal : Nat
  capacityBegin : Nat
  capacityCount : Nat
  bindingValues : LayerBindingValues
  requiresRoutingMetadata : Bool
deriving DecidableEq, Repr

def LayerExecutionEntry.place (entry : LayerExecutionEntry) : Nat × Nat :=
  (entry.instanceIndex, entry.layerOrdinal)

structure SharedTables where
  layers : List LayerExecutionEntry
  capacities : List CapacityExecutionEntry
deriving DecidableEq, Repr

/-- What the loop over the Fabric layers carries. -/
structure Materialization where
  localLayerIndex : Nat
  tables : SharedTables

/-- The layers of a Fabric, in Instance and layer order. -/
def fabricLayers (fabric : ArenaProjection) : List (Nat × Nat) :=
  (List.range fabric.instances.length).flatMap fun instanceIndex =>
    (List.range (fabric.instances.getD instanceIndex default).layers.length).map fun layerOrdinal =>
      (instanceIndex, layerOrdinal)

/-- The Fabric's own description of one layer. -/
def fabricLayer (fabric : ArenaProjection) (place : Nat × Nat) : Layer :=
  (fabric.instances.getD place.1 default).layers.getD place.2 default

/-- The row of one capacity, where the signature agrees with the Fabric. -/
def materializeCapacity (signatures : List CaptureDescriptor) (payloadDtype : ScalarType) (hiddenSize : Nat)
    (fabricLayer : Layer) (routerOwner : Bool) (signatureIndex : Nat) : Except String CapacityExecutionEntry :=
  match signatures[signatureIndex]? with
  -- validation has refused such a descriptor
  | none => .error "execution signature index out of range"
  | some signature => do
    torchCheck (signature.payloadDtype = payloadDtype && signature.hiddenSize = hiddenSize)
      "xpool Execution Signature payload geometry disagrees with Fabric"
    match signature with
    | .dense _ => torchCheck (fabricLayer.kind ≠ .moe) "xpool Execution Signature kind disagrees with Fabric"
    | .moe capture => do
      torchCheck (fabricLayer.kind = .moe) "xpool Execution Signature kind disagrees with Fabric"
      torchCheck (capture.effectiveTopk = fabricLayer.effectiveTopk && capture.routedExpertCount.isSome = routerOwner)
        "xpool MoE Signature disagrees with Fabric topology"
    pure ⟨signature.payloadRowCapacity, signatureIndex⟩

/-- One Fabric layer, where the FfnAgent is a member of its group. -/
def materializeLayer (descriptor : ExecutionInstallDescriptor) (fabric : ArenaProjection) (payloadDtype : Nat → ScalarType)
    (ffnagentIndex : Nat) (state : Materialization) (place : Nat × Nat) : Except String Materialization :=
  let i := fabric.instances.getD place.1 default
  let maximumCapacity := max i.decodePayloadRowCapacity i.prefillPayloadRowCapacity
  let fabricLayer := fabricLayer fabric place
  if ffnagentIndex ∉ fabricLayer.ffnagentIndices then .ok state
  else
    match descriptor.layers[state.localLayerIndex]? with
    | none => .error "xpool execution Projection omits a local Fabric layer"
    | some layer => do
      torchCheck (layer.instanceIndex = place.1 && layer.layerOrdinal = place.2)
        "xpool execution Projection local layers are not co-indexed with Fabric"
      let localTpRank := fabricLayer.ffnagentIndices.idxOf ffnagentIndex
      let routerOwner := fabricLayer.kind = .moe && localTpRank = 0
      let installed ← layer.executionSignatureIndices.mapM
        (materializeCapacity descriptor.reference (payloadDtype place.1) i.hiddenSize fabricLayer routerOwner)
      let capacities := state.tables.capacities ++ installed
      torchCheck (capacities.getLast?.any (·.payloadRowCapacity = maximumCapacity))
        "xpool local layer maximum Capacity disagrees with Fabric"
      pure
        { localLayerIndex := state.localLayerIndex + 1
          tables :=
            { layers :=
                state.tables.layers ++
                  [{  instanceIndex := place.1
                      layerOrdinal := place.2
                      capacityBegin := state.tables.capacities.length
                      capacityCount := layer.executionSignatureIndices.length
                      bindingValues := materializeBindingValues layer.layerResourceTargets
                      requiresRoutingMetadata := fabricLayer.kind = .moe && !routerOwner }]
              capacities := capacities } }

/-- `materialize_shared_tables` on the FfnAgent of this index. The Fabric model has no
payload types, which are given beside it. -/
def materializeSharedTables (descriptor : ExecutionInstallDescriptor) (fabric : ArenaProjection)
    (payloadDtype : Nat → ScalarType) (ffnagentIndex : Nat) : Except String SharedTables := do
  let state ← (fabricLayers fabric).foldlM (materializeLayer descriptor fabric payloadDtype ffnagentIndex) ⟨0, ⟨[], []⟩⟩
  torchCheck (state.localLayerIndex = descriptor.layers.length) "xpool execution Projection contains a nonlocal Fabric layer"
  pure state.tables

/-! ## Lookup -/

/-- The capacities of one layer. -/
def SharedTables.capacitiesOf (tables : SharedTables) (entry : LayerExecutionEntry) : List CapacityExecutionEntry :=
  (tables.capacities.drop entry.capacityBegin).take entry.capacityCount

/-- What a lane keeps of its lookup. -/
structure Selection where
  layerEntryIndex : Nat
  executionSignatureIndex : Nat
  payloadRowCapacity : Nat
  localTpRank : Nat
  requiresRoutingMetadata : Bool
deriving DecidableEq, Repr

/-- `wait_pre_compute` from the layer to TP membership; `none` where it terminates the lane. -/
def SharedTables.select (tables : SharedTables) (T : Topology) (signatureCount pe : Nat) (execution : LaneExecution) :
    Option Selection := do
  let layerEntryIndex ← tables.layers.findIdx? (·.place = (execution.key.instanceIndex, execution.layerOrdinal))
  let layer ← tables.layers[layerEntryIndex]?
  let selected ← (tables.capacitiesOf layer).find? fun candidate => execution.payloadRows ≤ candidate.payloadRowCapacity
  let pes := T.executionPes execution
  if signatureCount ≤ selected.executionSignatureIndex then none
  else if pe ∉ pes ∨ pes.length ≠ (T.instanceEntry execution.key.instanceIndex).ffnTpSize then none
  else
    some
      { layerEntryIndex := layerEntryIndex
        executionSignatureIndex := selected.executionSignatureIndex
        payloadRowCapacity := selected.payloadRowCapacity
        localTpRank := pes.idxOf pe
        requiresRoutingMetadata := layer.requiresRoutingMetadata }

/-! ## What materialization installs -/

section Materialized

variable {descriptor : ExecutionInstallDescriptor} {fabric : ArenaProjection} {payloadDtype : Nat → ScalarType}
  {ffnagentIndex : Nat} {tables : SharedTables} {entry : LayerExecutionEntry}

/-- The greatest row capacity of an Instance. -/
def maximumCapacity (fabric : ArenaProjection) (instanceIndex : Nat) : Nat :=
  max (fabric.instances.getD instanceIndex default).decodePayloadRowCapacity
    (fabric.instances.getD instanceIndex default).prefillPayloadRowCapacity

/-- A row of the layer table with its window of the other. -/
structure Installed (signatureCount : Nat) (fabric : ArenaProjection) (ffnagentIndex : Nat) (tables : SharedTables)
    (entry : LayerExecutionEntry) : Prop where
  window : entry.capacityBegin + entry.capacityCount ≤ tables.capacities.length
  routing : entry.requiresRoutingMetadata = ((fabricLayer fabric entry.place).kind = .moe &&
    (fabricLayer fabric entry.place).ffnagentIndices.idxOf ffnagentIndex ≠ 0)
  exist : ∀ capacity ∈ tables.capacitiesOf entry, capacity.executionSignatureIndex < signatureCount
  increasing : (tables.capacitiesOf entry).Pairwise (·.payloadRowCapacity < ·.payloadRowCapacity)
  greatest : ∃ capacity ∈ tables.capacitiesOf entry, capacity.payloadRowCapacity = maximumCapacity fabric entry.instanceIndex

/-- The local layers of a Fabric among `places`. -/
def localLayers (fabric : ArenaProjection) (ffnagentIndex : Nat) (places : List (Nat × Nat)) : List (Nat × Nat) :=
  places.filter fun place => ffnagentIndex ∈ (fabricLayer fabric place).ffnagentIndices

/-- What the loop has installed for the layers gone through. -/
structure Materialized (signatureCount : Nat) (fabric : ArenaProjection) (ffnagentIndex : Nat) (places : List (Nat × Nat))
    (tables : SharedTables) : Prop where
  places : tables.layers.map LayerExecutionEntry.place = localLayers fabric ffnagentIndex places
  installed : ∀ entry ∈ tables.layers, Installed signatureCount fabric ffnagentIndex tables entry

/-- A window does not see what is appended behind it. -/
theorem capacitiesOf_append {layers : List LayerExecutionEntry} {installed : List CapacityExecutionEntry}
    (window : entry.capacityBegin + entry.capacityCount ≤ tables.capacities.length) :
    SharedTables.capacitiesOf ⟨layers, tables.capacities ++ installed⟩ entry = tables.capacitiesOf entry := by
  have begins : entry.capacityBegin ≤ tables.capacities.length := by omega
  rw [SharedTables.capacitiesOf, SharedTables.capacitiesOf, List.drop_append_of_le_length begins,
    List.take_append_of_le_length]
  rw [List.length_drop]
  omega

theorem Installed.append {signatureCount : Nat} {layers : List LayerExecutionEntry} {capacities : List CapacityExecutionEntry}
    (installed : Installed signatureCount fabric ffnagentIndex tables entry) :
    Installed signatureCount fabric ffnagentIndex ⟨layers, tables.capacities ++ capacities⟩ entry := by
  have same := @capacitiesOf_append tables entry layers capacities installed.window
  constructor
  · have window := installed.window
    rw [List.length_append]
    omega
  · exact installed.routing
  · rw [same]
    exact installed.exist
  · rw [same]
    exact installed.increasing
  · rw [same]
    exact installed.greatest

theorem materializeCapacity_eq_ok {signatures : List CaptureDescriptor} {type : ScalarType} {hiddenSize : Nat}
    {layer : Layer} {routerOwner : Bool} {index : Nat} {capacity : CapacityExecutionEntry}
    (returned : materializeCapacity signatures type hiddenSize layer routerOwner index = .ok capacity) :
    capacity = ⟨capacityAt signatures index, index⟩ := by
  rw [materializeCapacity] at returned
  split at returned
  · cases returned
  · rename_i signature found
    simp only [bind_eq_ok, torchCheck_eq_ok, exists_const] at returned
    obtain ⟨-, agreed⟩ := returned
    rw [capacityAt, found]
    cases signature with
    | dense capture =>
      simp only [bind_eq_ok, torchCheck_eq_ok, exists_const] at agreed
      exact (Except.ok.inj agreed.2).symm
    | moe capture =>
      simp only [bind_eq_ok, torchCheck_eq_ok, exists_const] at agreed
      exact (Except.ok.inj agreed.2.2).symm

theorem materializeLayer_materialized {state next : Materialization} {done : List (Nat × Nat)} {place : Nat × Nat}
    (accepted : ∀ layer ∈ descriptor.layers, LayerAccepted descriptor.reference layer)
    (before : Materialized descriptor.reference.length fabric ffnagentIndex done state.tables)
    (materialized : materializeLayer descriptor fabric payloadDtype ffnagentIndex state place = .ok next) :
    Materialized descriptor.reference.length fabric ffnagentIndex (done ++ [place]) next.tables := by
  have appended : localLayers fabric ffnagentIndex (done ++ [place]) = localLayers fabric ffnagentIndex done ++
      if ffnagentIndex ∈ (fabricLayer fabric place).ffnagentIndices then [place] else [] := by
    rw [localLayers, localLayers, List.filter_append, List.filter_cons, List.filter_nil]
    simp only [decide_eq_true_eq]
  rw [materializeLayer] at materialized
  simp only at materialized
  split at materialized
  · rename_i absent
    obtain rfl := Except.ok.inj materialized
    refine ⟨?_, before.installed⟩
    rw [appended, if_neg absent, List.append_nil]
    exact before.places
  · rename_i member
    rw [not_not] at member
    split at materialized
    · cases materialized
    · rename_i layer found
      simp only [bind_eq_ok, torchCheck_eq_ok, exists_const] at materialized
      obtain ⟨-, installed, mapped, greatest, made⟩ := materialized
      obtain rfl := Except.ok.inj made
      have fits := accepted layer (List.mem_of_getElem? found)
      have rows : installed =
          layer.executionSignatureIndices.map fun index => ⟨capacityAt descriptor.reference index, index⟩ := by
        apply mapM_eq_ok ?_ mapped
        intro index _ capacity returned
        exact materializeCapacity_eq_ok returned
      have some' : installed ≠ [] := by
        rw [rows]
        simpa using fits.nonempty
      have count : layer.executionSignatureIndices.length = installed.length := by rw [rows, List.length_map]
      constructor
      · rw [appended, if_pos member, List.map_append, before.places]
        rfl
      · intro entry listed
        rcases List.mem_append.mp listed with earlier | last
        · exact (before.installed entry earlier).append
        · rw [List.mem_singleton] at last
          have window : SharedTables.capacitiesOf ⟨state.tables.layers ++ [entry], state.tables.capacities ++ installed⟩ entry =
              installed := by
            rw [SharedTables.capacitiesOf, last]
            simp only [List.drop_left, count, List.take_length]
          subst last
          constructor
          · simp only [List.length_append]
            omega
          · unfold LayerExecutionEntry.place
            by_cases routed : (fabricLayer fabric place).kind = .moe
            · simp [routed]
            · simp [routed]
          · rw [window, rows]
            intro capacity here
            obtain ⟨index, listed, rfl⟩ := List.mem_map.mp here
            exact fits.exist index listed
          · rw [window, rows, List.pairwise_map]
            exact List.pairwise_map.mp fits.increasing
          · rw [window]
            rw [List.getLast?_append_of_ne_nil _ some', List.getLast?_eq_getLast_of_ne_nil some', Option.any_some,
              decide_eq_true_eq] at greatest
            exact ⟨_, List.getLast_mem some', greatest⟩

/-- What an accepted descriptor installs. -/
theorem materializeSharedTables_materialized (validated : descriptor.validate = .ok ())
    (returned : materializeSharedTables descriptor fabric payloadDtype ffnagentIndex = .ok tables) :
    Materialized descriptor.reference.length fabric ffnagentIndex (fabricLayers fabric) tables := by
  simp only [materializeSharedTables, bind_eq_ok, torchCheck_eq_ok, exists_const] at returned
  obtain ⟨state, folded, -, made⟩ := returned
  obtain rfl := Except.ok.inj made
  refine foldlM_eq_ok
    (R := fun done state => Materialized descriptor.reference.length fabric ffnagentIndex done state.tables) ?_ ?_ folded
  · exact ⟨rfl, by simp⟩
  · intro done place before next _ known stepped
    exact materializeLayer_materialized (fun layer member => descriptor.accepted_of_validate validated member) known stepped

end Materialized

/-! ## Looking up an execution -/

theorem mem_fabricLayers {fabric : ArenaProjection} {place : Nat × Nat} :
    place ∈ fabricLayers fabric ↔
      place.1 < fabric.instances.length ∧ place.2 < (fabric.instances.getD place.1 default).layers.length := by
  obtain ⟨instanceIndex, layerOrdinal⟩ := place
  simp [fabricLayers]

theorem fabricLayers_nodup (fabric : ArenaProjection) : (fabricLayers fabric).Nodup := by
  rw [fabricLayers, List.nodup_flatMap]
  constructor
  · intro instanceIndex _
    apply List.Nodup.map ?_ List.nodup_range
    intro first second same
    exact (Prod.mk.inj same).2
  · apply List.Pairwise.imp ?_ (List.nodup_range (n := fabric.instances.length))
    intro first second differ place here there
    obtain ⟨_, -, rfl⟩ := List.mem_map.mp here
    obtain ⟨_, -, same⟩ := List.mem_map.mp there
    exact differ (Prod.mk.inj same).1.symm

theorem idxOf_map {α β : Type} [DecidableEq α] [DecidableEq β] {f : α → β} (injective : Function.Injective f) (a : α)
    (items : List α) : (items.map f).idxOf (f a) = items.idxOf a := by
  induction items with
  | nil => rfl
  | cons item rest ih =>
    rw [List.map_cons, List.idxOf_cons, List.idxOf_cons, ih]
    by_cases same : item = a
    · rw [same, beq_self_eq_true, beq_self_eq_true]
    · have differ : f item ≠ f a := fun equal => same (injective equal)
      rw [beq_false_of_ne same, beq_false_of_ne differ]

theorem filterMap_guard {α β : Type} (chosen : α → Bool) (f : α → β) (items : List α) :
    (items.filterMap fun item => if chosen item then some (f item) else none) = (items.filter chosen).map f := by
  induction items with
  | nil => rfl
  | cons item rest ih =>
    rw [List.filterMap_cons, List.filter_cons, ih]
    cases chosen item with
    | true => rfl
    | false => rfl

/-- The capacities of the layer found first under these coordinates. -/
def SharedTables.capacitiesAt (tables : SharedTables) (instanceIndex layerOrdinal : Nat) : List CapacityExecutionEntry :=
  match tables.layers.find? (·.place = (instanceIndex, layerOrdinal)) with
  | some entry => tables.capacitiesOf entry
  | none => []

/-- A topology whose execution tables come from accepted descriptors, one for each
FfnAgent. -/
structure InstalledTopology extends Topology where
  descriptor : Nat → ExecutionInstallDescriptor
  payloadDtype : Nat → ScalarType
  tables : Nat → SharedTables
  accepted : ∀ index < ffnagentCount, (descriptor index).validate = .ok ()
  laneCount : ∀ index < ffnagentCount, (descriptor index).lanes.length = executorLaneCount
  materialized : ∀ index < ffnagentCount,
    materializeSharedTables (descriptor index) toArenaProjection payloadDtype index = .ok (tables index)
  capacities_eq : ∀ index < ffnagentCount, ∀ instanceIndex layerOrdinal,
    capacities (atnagentCount + index) instanceIndex layerOrdinal = (tables index).capacitiesAt instanceIndex layerOrdinal
  signatureCount_eq : ∀ index < ffnagentCount,
    signatureCount (atnagentCount + index) = (descriptor index).reference.length

/-- What a lane finds for an execution: one local layer, the smallest of its capacities
that holds the rows, a signature that every lane has captured, and itself in the group. -/
structure Found (I : InstalledTopology) (index : Nat) (execution : LaneExecution) (selection : Selection) : Prop where
  layer : ∀ position, ((I.tables index).layers[position]?.map LayerExecutionEntry.place =
    some (execution.key.instanceIndex, execution.layerOrdinal)) ↔ position = selection.layerEntryIndex
  capacity : ∃ entry, (I.tables index).layers[selection.layerEntryIndex]? = some entry ∧
    ⟨selection.payloadRowCapacity, selection.executionSignatureIndex⟩ ∈ (I.tables index).capacitiesOf entry ∧
      execution.payloadRows ≤ selection.payloadRowCapacity ∧
        ∀ other ∈ (I.tables index).capacitiesOf entry, execution.payloadRows ≤ other.payloadRowCapacity →
          selection.payloadRowCapacity ≤ other.payloadRowCapacity
  signature : ∀ lane ∈ (I.descriptor index).lanes, selection.executionSignatureIndex < lane.signatures.length
  member : (I.executionPes execution)[selection.localTpRank]? = some (I.atnagentCount + index)
  width : (I.executionPes execution).length = (I.instanceEntry execution.key.instanceIndex).ffnTpSize

namespace InstalledTopology

variable {I : InstalledTopology} {index : Nat} {execution : LaneExecution}

theorem materialized_tables (inside : index < I.ffnagentCount) :
    Materialized (I.descriptor index).reference.length I.toArenaProjection index (fabricLayers I.toArenaProjection)
      (I.tables index) :=
  materializeSharedTables_materialized (I.accepted index inside) (I.materialized index inside)

theorem places_nodup (inside : index < I.ffnagentCount) :
    ((I.tables index).layers.map LayerExecutionEntry.place).Nodup := by
  rw [(materialized_tables inside).places]
  exact (fabricLayers_nodup _).filter _

/-- A row of the layer table is the only one of its place. -/
theorem find_place (inside : index < I.ffnagentCount) {entry : LayerExecutionEntry}
    (listed : entry ∈ (I.tables index).layers) :
    (I.tables index).layers.find? (·.place = entry.place) = some entry := by
  have nodup := places_nodup inside
  cases found : (I.tables index).layers.find? (·.place = entry.place) with
  | none =>
    have absent := List.find?_eq_none.mp found entry listed
    simp at absent
  | some other =>
    have same : other.place = entry.place := by simpa using List.find?_some found
    rw [List.inj_on_of_nodup_map nodup (List.mem_of_find?_eq_some found) listed same]

/-- The lane model's rows are those of the installed tables. -/
theorem layerEntries_eq (inside : index < I.ffnagentCount) :
    I.layerEntries (I.atnagentCount + index) =
      (I.tables index).layers.map fun entry =>
        { instanceIndex := entry.instanceIndex
          layerOrdinal := entry.layerOrdinal
          capacities := (I.tables index).capacitiesOf entry
          requiresRoutingMetadata := entry.requiresRoutingMetadata } := by
  have materialized := materialized_tables (I := I) inside
  let row (place : Nat × Nat) : Fabric.LayerExecutionEntry :=
    { instanceIndex := place.1
      layerOrdinal := place.2
      capacities := (I.tables index).capacitiesAt place.1 place.2
      requiresRoutingMetadata := (fabricLayer I.toArenaProjection place).kind = .moe &&
        (fabricLayer I.toArenaProjection place).ffnagentIndices.idxOf index ≠ 0 }
  have rows : ((I.tables index).layers.map fun entry : LayerExecutionEntry =>
      ({  instanceIndex := entry.instanceIndex
          layerOrdinal := entry.layerOrdinal
          capacities := (I.tables index).capacitiesOf entry
          requiresRoutingMetadata := entry.requiresRoutingMetadata } : Fabric.LayerExecutionEntry)) =
      ((I.tables index).layers.map LayerExecutionEntry.place).map row := by
    rw [List.map_map]
    apply List.map_congr_left
    intro entry listed
    have installed := materialized.installed entry listed
    have own : (I.tables index).capacitiesAt entry.instanceIndex entry.layerOrdinal =
        (I.tables index).capacitiesOf entry := by
      rw [SharedTables.capacitiesAt]
      change (match (I.tables index).layers.find? (·.place = entry.place) with
        | some entry => (I.tables index).capacitiesOf entry
        | none => []) = _
      rw [find_place inside listed]
    rw [Function.comp_apply, installed.routing]
    change _ = row (entry.instanceIndex, entry.layerOrdinal)
    rw [← own]
    rfl
  rw [rows, materialized.places, localLayers]
  have shifted (place : Nat × Nat) (pes : List Nat)
      (eq : pes = (fabricLayer I.toArenaProjection place).ffnagentIndices.map (I.atnagentCount + ·)) :
      (I.atnagentCount + index ∈ pes ↔ index ∈ (fabricLayer I.toArenaProjection place).ffnagentIndices) ∧
        pes.idxOf (I.atnagentCount + index) = (fabricLayer I.toArenaProjection place).ffnagentIndices.idxOf index := by
    subst eq
    constructor
    · simp
    · exact idxOf_map (fun _ _ => Nat.add_left_cancel) index _
  simp only [Topology.layerEntries, fabricLayers, List.filter_flatMap, List.map_flatMap]
  apply List.flatMap_congr
  intro instanceIndex _
  rw [List.filter_map, List.map_map, ← filterMap_guard]
  apply List.filterMap_congr
  intro layerOrdinal _
  obtain ⟨member, rank⟩ := shifted (instanceIndex, layerOrdinal) (I.ffnagentPes instanceIndex layerOrdinal) rfl
  by_cases here : index ∈ (fabricLayer I.toArenaProjection (instanceIndex, layerOrdinal)).ffnagentIndices
  · rw [if_pos (member.mpr here), if_pos (by simpa using here), I.capacities_eq index inside, rank]
    rfl
  · rw [if_neg fun there => here (member.mp there), if_neg (by simpa using here)]

/-- The lane model selects what the lookup in the tables selects. -/
theorem selectExecution_eq (inside : index < I.ffnagentCount) {selection : Selection}
    (selected : (I.tables index).select I.toTopology (I.signatureCount (I.atnagentCount + index)) (I.atnagentCount + index)
      execution = some selection) :
    I.selectExecution (I.atnagentCount + index) execution =
      some (selection.localTpRank, selection.payloadRowCapacity, selection.requiresRoutingMetadata) := by
  simp only [SharedTables.select, Option.bind_eq_bind, Option.bind_eq_some_iff] at selected
  obtain ⟨position, first, layer, found, capacity, smallest, rest⟩ := selected
  have layer_found : (I.tables index).layers.find? (·.place = (execution.key.instanceIndex, execution.layerOrdinal)) =
      some layer := by
    rw [List.find?_eq_bind_findIdx?_getElem?, first]
    exact found
  have matched : (fun entry : LayerExecutionEntry =>
      decide (entry.instanceIndex = execution.key.instanceIndex) && decide (entry.layerOrdinal = execution.layerOrdinal)) =
      fun entry => decide (entry.place = (execution.key.instanceIndex, execution.layerOrdinal)) := by
    funext entry
    simp [LayerExecutionEntry.place]
  simp only [Topology.selectExecution, layerEntries_eq inside, List.find?_map, Function.comp_def, matched, layer_found,
    Option.map_some, Option.bind_eq_bind, Option.bind_some, smallest]
  split at rest
  · cases rest
  · rename_i exists'
    rw [if_neg exists']
    split at rest
    · cases rest
    · rename_i member
      obtain rfl := Option.some.inj rest
      rw [Topology.executionPes] at member
      rw [if_neg member]
      rfl

/-- An execution of a local layer, with no more rows than its Instance can have. -/
theorem select_found (inside : index < I.ffnagentCount)
    (layer : execution.layerOrdinal < (I.instanceEntry execution.key.instanceIndex).layers.length)
    (member : I.atnagentCount + index ∈ I.executionPes execution)
    (rows : execution.payloadRows ≤ maximumCapacity I.toArenaProjection execution.key.instanceIndex) :
    ∃ selection,
      (I.tables index).select I.toTopology (I.signatureCount (I.atnagentCount + index)) (I.atnagentCount + index) execution =
          some selection ∧ Found I index execution selection := by
  have materialized := materialized_tables (I := I) inside
  have bound : execution.key.instanceIndex < I.instances.length := by
    by_contra beyond
    rw [Topology.instanceEntry, List.getD_eq_default _ _ (not_lt.mp beyond)] at layer
    exact absurd layer (Nat.not_lt_zero _)
  have grouped : index ∈ (fabricLayer I.toArenaProjection (execution.key.instanceIndex, execution.layerOrdinal)).ffnagentIndices := by
    obtain ⟨other, listed, same⟩ := List.mem_map.mp member
    rwa [← Nat.add_left_cancel same]
  have listed : (execution.key.instanceIndex, execution.layerOrdinal) ∈
      (I.tables index).layers.map LayerExecutionEntry.place := by
    rw [materialized.places, localLayers, List.mem_filter]
    exact ⟨mem_fabricLayers.mpr ⟨bound, layer⟩, by simpa using grouped⟩
  obtain ⟨entry, known, place⟩ := List.mem_map.mp listed
  have installed := materialized.installed entry known
  have found := find_place inside known
  rw [place, List.find?_eq_bind_findIdx?_getElem?, Option.bind_eq_some_iff] at found
  obtain ⟨position, first, here⟩ := found
  obtain ⟨greatest, last, maximum⟩ := installed.greatest
  have own : entry.instanceIndex = execution.key.instanceIndex := (Prod.mk.inj place).1
  have holds : ((I.tables index).capacitiesOf entry).find?
      (fun candidate => execution.payloadRows ≤ candidate.payloadRowCapacity) ≠ none := by
    intro none
    have small := List.find?_eq_none.mp none greatest last
    rw [maximum, own, decide_eq_true_eq] at small
    exact small rows
  obtain ⟨capacity, chosen⟩ := Option.ne_none_iff_exists'.mp holds
  have width : (I.executionPes execution).length = (I.instanceEntry execution.key.instanceIndex).ffnTpSize := by
    have valid := I.valid
    simp only [ArenaProjection.validate, Bool.and_eq_true, List.all_eq_true] at valid
    have instance_valid := valid.2 _ (List.getElem_mem bound)
    simp only [Instance.validate, Bool.and_eq_true, List.all_eq_true] at instance_valid
    have instance_eq : I.instanceEntry execution.key.instanceIndex = I.instances[execution.key.instanceIndex] :=
      List.getD_eq_getElem _ _ bound
    rw [instance_eq] at layer ⊢
    have layer_valid := instance_valid.2 _ (List.getElem_mem layer)
    simp only [Layer.validate, Bool.and_eq_true, decide_eq_true_eq] at layer_valid
    rw [Topology.executionPes, Topology.ffnagentPes, List.length_map, Topology.layerEntry, instance_eq,
      List.getD_eq_getElem _ _ layer]
    exact layer_valid.1.1.1.2
  have signature := installed.exist capacity (List.mem_of_find?_eq_some chosen)
  refine ⟨⟨position, capacity.executionSignatureIndex, capacity.payloadRowCapacity,
    (I.executionPes execution).idxOf (I.atnagentCount + index), entry.requiresRoutingMetadata⟩, ?_, ?_⟩
  · simp only [SharedTables.select, Option.bind_eq_bind, first, Option.bind_some, here, chosen]
    rw [if_neg, if_neg]
    · rw [not_or, not_not, not_not]
      exact ⟨member, width⟩
    · rw [I.signatureCount_eq index inside]
      omega
  · constructor
    · intro other
      have at_position : ((I.tables index).layers.map LayerExecutionEntry.place)[position]? =
          some (execution.key.instanceIndex, execution.layerOrdinal) := by
        rw [List.getElem?_map, here]
        exact congrArg some place
      rw [← List.getElem?_map]
      constructor
      · intro there
        obtain ⟨bound', -⟩ := List.getElem?_eq_some_iff.mp there
        exact (List.getElem?_inj bound' (places_nodup inside)).mp (there.trans at_position.symm)
      · rintro rfl
        exact at_position
    · refine ⟨entry, here, List.mem_of_find?_eq_some chosen, by simpa using List.find?_some chosen, ?_⟩
      intro other listed enough
      obtain ⟨-, before, after, split, short⟩ := List.find?_eq_some_iff_append.mp chosen
      have increasing := installed.increasing
      rw [split] at listed increasing
      rcases List.mem_append.mp listed with earlier | later
      · have refused := short other earlier
        simp [enough] at refused
      · rcases List.mem_cons.mp later with rfl | behind
        · exact le_refl _
        · have ordered := (List.pairwise_append.mp increasing).2.1
          exact ((List.pairwise_cons.mp ordered).1 other behind).le
    · intro lane listed
      rw [ExecutionInstallDescriptor.signatures_length_of_validate (I.accepted index inside) listed]
      exact signature
    · exact List.getElem?_idxOf member
    · exact width

end InstalledTopology

/-! ## Leased executions -/

section Leased

variable {I : InstalledTopology} {k : Fabric.Control} {V : Type} {K : Fabric.Kernels V} {policy : Fabric.PolicyState}
  {s : Fabric.State V} {p lane : Nat}

/-- The rendezvous admits no more rows than the Instance can have. -/
theorem rendezvous_fits {instanceIndex sequence : Nat} {invocation : Invocation} (bound : instanceIndex < I.instanceCount)
    (ready : I.inspectSubmissionRendezvous k instanceIndex sequence = (.ready, invocation)) :
    invocation.layerOrdinal < (I.instanceEntry invocation.key.instanceIndex).layers.length ∧
      invocation.payloadRows ≤ maximumCapacity I.toArenaProjection invocation.key.instanceIndex := by
  obtain ⟨-, formed, -, described⟩ := @Fabric.inspectSubmissionRendezvous_exact I.toTopology k instanceIndex sequence bound
  rw [ready] at formed described
  obtain ⟨-, wellFormed⟩ := formed.mp rfl
  obtain rfl := described rfl
  refine ⟨wellFormed.exists_layer, ?_⟩
  have profile := wellFormed.profile
  unfold maximumCapacity
  split at profile
  · exact profile.trans (le_max_right _ _)
  · exact profile.trans (le_max_left _ _)

/-- The record that a waiting lane finds is that of a lease to its group, of an admitted
invocation. -/
theorem observed_lease (reached : (I.fabric K policy).Reachable s) (isLane : I.isLane p lane)
    (waits : (s.control.lanes p lane).pc = .awaitExecution)
    (unwrapped : ((s.control.lanes p lane).lastLeaseSequence + 1) % 2 ^ 64 ≠ 0)
    (published : ((s.control.lanes p lane).lastLeaseSequence + 1) % 2 ^ 64 ≤
      (s.control.slots p (.laneExecution lane)).sequence) :
    Fabric.Executable I.toTopology s.control p lane (s.control.slots p (.laneExecution lane)).record := by
  have book := (Fabric.reachable_leases reached).lane p lane isLane
  have fresh := book.fresh waits unwrapped published
  exact (book.tracks.fresh fresh).2.1

/-- What a lane does with the execution it has waited for. -/
def awaiting (s : Fabric.State V) (p lane : Nat) (record : LaneExecution) (selection : Selection) : Fabric.State V :=
  { s with
    control :=
      s.control.setLane p lane
        { s.control.lanes p lane with
          pc := .awaitPayloads
          terminal := false
          execution := record
          localTpRank := selection.localTpRank
          payloadRowCapacity := selection.payloadRowCapacity
          requiresRoutingMetadata := selection.requiresRoutingMetadata } }

/-- A lane that has waited for its word finds the execution and goes on. -/
theorem observeStep_found {index : Nat} (reached : (I.fabric K policy).Reachable s)
    (isLane : I.isLane (I.atnagentCount + index) lane) (waits : (s.control.lanes (I.atnagentCount + index) lane).pc = .awaitExecution)
    (unwrapped : ((s.control.lanes (I.atnagentCount + index) lane).lastLeaseSequence + 1) % 2 ^ 64 ≠ 0)
    (published : ((s.control.lanes (I.atnagentCount + index) lane).lastLeaseSequence + 1) % 2 ^ 64 ≤
      (s.control.slots (I.atnagentCount + index) (.laneExecution lane)).sequence) :
    ∃ selection,
      (I.tables index).select I.toTopology (I.signatureCount (I.atnagentCount + index)) (I.atnagentCount + index)
          (s.control.slots (I.atnagentCount + index) (.laneExecution lane)).record = some selection ∧
        Found I index (s.control.slots (I.atnagentCount + index) (.laneExecution lane)).record selection ∧
        I.laneStep K s (I.atnagentCount + index) lane =
          some (awaiting s (I.atnagentCount + index) lane
            (s.control.slots (I.atnagentCount + index) (.laneExecution lane)).record selection) := by
  obtain ⟨invocation, assigned, made⟩ := observed_lease reached isLane waits unwrapped published
  have submitted := (Fabric.reachable_admissions reached).granted _ _ _ assigned.granted
  have bound : invocation.key.instanceIndex < I.instanceCount :=
    ((Fabric.reachable_leases reached).chain.bounded _ _ _ assigned.granted).2
  have inside : index < I.ffnagentCount := by
    have range := (Fabric.Topology.isLane_iff.mp isLane).2.1
    rw [Fabric.Topology.peCount] at range
    omega
  generalize (s.control.slots (I.atnagentCount + index) (.laneExecution lane)).record.executorLeaseSequence = L at assigned made
  have rows : invocation.payloadRows ≤ maximumCapacity I.toArenaProjection invocation.key.instanceIndex := by
    rcases submitted.rows.2 with prefill | decode
    · exact prefill.trans (le_max_right _ _)
    · exact decode.trans (le_max_left _ _)
  obtain ⟨selection, selected, found⟩ :=
    @InstalledTopology.select_found I index (invocation.execution L) inside submitted.layer assigned.member rows
  -- the submission of the first rank bears the invocation's sequence, which counts from one
  have numbered : invocation.key.invocationSequence ≠ 0 := by
    have ranked : I.isRank invocation.key.instanceIndex 0 :=
      Fabric.Topology.isRank_iff.mpr ⟨bound, List.length_pos_iff.mpr (Fabric.Topology.atnagentPes_ne_nil bound)⟩
    obtain ⟨record, listed, key, -⟩ := submitted.ranks 0 ranked
    have known := (Fabric.reachable_ledger reached ranked).of_mem listed
    rw [key] at known
    omega
  have lease : L ≠ 0 := by
    have positive := assigned.granted.le.1
    omega
  refine ⟨selection, by rw [made]; exact selected, by rw [made]; exact found, ?_⟩
  have step : I.laneStep K s (I.atnagentCount + index) lane = some (I.observeStep s (I.atnagentCount + index) lane) := by
    simp only [Fabric.Topology.laneStep, waits]
    rw [if_neg unwrapped, if_pos published]
  have lookup := InstalledTopology.selectExecution_eq inside selected
  have checked : ¬((!Fabric.validateExpected (s.control.slots (I.atnagentCount + index) (.laneExecution lane))
      (s.control.slots (I.atnagentCount + index) (.laneExecution lane)).record.executorLeaseSequence
      (s.control.slots (I.atnagentCount + index) (.laneExecution lane)).record.key) = true ∨
        I.instanceCount ≤ (s.control.slots (I.atnagentCount + index) (.laneExecution lane)).record.key.instanceIndex) := by
    have valid : Fabric.PublicationRecord.valid (invocation.execution L) := by
      simp [Fabric.PublicationRecord.valid, Fabric.InvocationKey.valid, Fabric.Invocation.execution, numbered, lease,
        submitted.rows.1, submitted.named]
    rw [Fabric.validateExpected, made, valid]
    simp only [Fabric.publicationSequence, Fabric.PublicationRecord.key, Fabric.Invocation.execution]
    simp [lease, bound]
  rw [step, Fabric.Topology.observeStep, if_neg checked]
  simp only [made, lookup]
  rfl

/-- The lookup refuses no invocation that the rendezvous admits on a PE of its group, and
no execution that a lane observes in a run. -/
theorem leased_executions_found (I : InstalledTopology) :
    (∀ (k : Fabric.Control) (instanceIndex sequence : Nat) (invocation : Invocation), instanceIndex < I.instanceCount →
      I.inspectSubmissionRendezvous k instanceIndex sequence = (.ready, invocation) →
        ∀ index, I.atnagentCount + index ∈ I.group invocation → ∀ lease,
          ∃ selection,
            (I.tables index).select I.toTopology (I.signatureCount (I.atnagentCount + index)) (I.atnagentCount + index)
                (invocation.execution lease) = some selection ∧
              Found I index (invocation.execution lease) selection) ∧
      ∀ (V : Type) (K : Fabric.Kernels V) (policy : Fabric.PolicyState) (s : Fabric.State V) (index lane : Nat),
        (I.fabric K policy).Reachable s → I.isLane (I.atnagentCount + index) lane →
        (s.control.lanes (I.atnagentCount + index) lane).pc = .awaitExecution →
        ((s.control.lanes (I.atnagentCount + index) lane).lastLeaseSequence + 1) % 2 ^ 64 ≠ 0 →
        ((s.control.lanes (I.atnagentCount + index) lane).lastLeaseSequence + 1) % 2 ^ 64 ≤
          (s.control.slots (I.atnagentCount + index) (.laneExecution lane)).sequence →
          ∃ selection,
            (I.tables index).select I.toTopology (I.signatureCount (I.atnagentCount + index)) (I.atnagentCount + index)
                (s.control.slots (I.atnagentCount + index) (.laneExecution lane)).record = some selection ∧
              Found I index (s.control.slots (I.atnagentCount + index) (.laneExecution lane)).record selection ∧
              I.laneStep K s (I.atnagentCount + index) lane =
                some (awaiting s (I.atnagentCount + index) lane
                  (s.control.slots (I.atnagentCount + index) (.laneExecution lane)).record selection) := by
  constructor
  · intro k instanceIndex sequence invocation bound ready index member lease
    obtain ⟨layer, rows⟩ := rendezvous_fits bound ready
    have inside : index < I.ffnagentCount := by
      have range := (Fabric.Topology.ffnagentPes_range member).2
      rw [Fabric.Topology.peCount] at range
      omega
    exact @InstalledTopology.select_found I index (invocation.execution lease) inside layer member rows
  · intro V K policy s index lane reached isLane waits unwrapped published
    exact observeStep_found reached isLane waits unwrapped published

end Leased

/-! ## Two layers of two capacities -/

/-- A generation of one rank and one FfnAgent; decode has one row and prefill two. -/
def layered : ArenaProjection where
  atnagentCount := 1
  ffnagentCount := 1
  executorLaneCount := 1
  lanePayloadCapacityBytes := 4
  instances :=
    [{  groupSumCompleteAdmitted := false
        hiddenSize := 1
        payloadRowBytes := 2
        decodePayloadRowCapacity := 1
        prefillPayloadRowCapacity := 2
        atnTpSize := 1
        atnDpSize := 1
        atnagentIndices := [0]
        layers := [⟨.dense, 0, [0]⟩, ⟨.dense, 0, [0]⟩] }]

/-- A capture of a dense layer for some rows, with its addresses from `base` on. -/
def layeredCapture (rows base : Nat) : CaptureDescriptor :=
  .dense
    { payloadDtype := .bFloat16
      payloadRowCapacity := rows
      hiddenSize := 1
      localIntermediateSize := 1
      primaryGraphAddress := base + 1
      controlGraphAddress := base + 2
      captureInputAddress := base + 16
      capturePartialAddress := base + 32
      captureRanges := []
      primaryWeightBindings := ⟨⟨base + 64, 2, none, 0, none, 0⟩, ⟨base + 80, 2, none, 0, none, 0⟩⟩
      controlWeightBindings := ⟨⟨base + 96, 2, none, 0, none, 0⟩, ⟨base + 112, 2, none, 0, none, 0⟩⟩ }

/-- The FfnAgent has captured one row and two rows, and both layers use both. -/
def layeredDescriptor : ExecutionInstallDescriptor where
  lanes := [⟨[layeredCapture 1 0, layeredCapture 2 256]⟩]
  layers :=
    [⟨0, 0, [0, 1], .dense ⟨⟨512, 2, none, 0, none, 0⟩, ⟨528, 2, none, 0, none, 0⟩⟩⟩,
      ⟨0, 1, [0, 1], .dense ⟨⟨544, 2, none, 0, none, 0⟩, ⟨560, 2, none, 0, none, 0⟩⟩⟩]

def layeredTables : SharedTables where
  layers :=
    [⟨0, 0, 0, 2, materializeBindingValues (.dense ⟨⟨512, 2, none, 0, none, 0⟩, ⟨528, 2, none, 0, none, 0⟩⟩), false⟩,
      ⟨0, 1, 2, 2, materializeBindingValues (.dense ⟨⟨544, 2, none, 0, none, 0⟩, ⟨560, 2, none, 0, none, 0⟩⟩), false⟩]
  capacities := [⟨1, 0⟩, ⟨2, 1⟩, ⟨1, 0⟩, ⟨2, 1⟩]

def layeredInstalled : InstalledTopology where
  toArenaProjection := layered
  valid := by decide
  capacities _ := layeredTables.capacitiesAt
  signatureCount _ := 2
  deliveryBlockCount := 1
  deliveryBlockCount_pos := Nat.one_pos
  descriptor _ := layeredDescriptor
  payloadDtype _ := .bFloat16
  tables _ := layeredTables
  accepted _ _ := by decide
  laneCount _ _ := by decide
  materialized index inside := by
    obtain rfl : index = 0 := Nat.lt_one_iff.mp inside
    decide
  capacities_eq _ _ _ _ := rfl
  signatureCount_eq _ _ := rfl

/-- The rank has submitted rows of the second layer. -/
def layeredSubmitted (rows : Nat) (mode : Transport.ForwardMode) : Fabric.Control :=
  (layeredInstalled.create Fabric.soloKernels (.fifo 0) fun _ _ _ _ => 0).control.setSlot 1 (.submission 0 0)
    { Channel.create (⟨⟨0, 1⟩, 1, rows, .none, .perRankComplete, rows, mode⟩ : Fabric.Submission) with sequence := 1 }

/-- Its two rows of the second layer come to be leased. -/
def layeredLeases : List (Fabric.Event Nat) :=
  List.flatten
    [ [ .atnagent 0 0 (.request ⟨1, 2, 2, .prefill, .perRankComplete, .none⟩ fun _ => 5), .atnagent 0 0 .step,
        .publication 1 (.submission 0 0) (.land 0), .publication 1 (.submission 0 0) (.signal 0) ],
      List.replicate 11 .coordinator,
      [ .publication 0 (.admission 0) (.land 0), .publication 0 (.admission 0) (.signal 0) ],
      List.replicate 7 (.atnagent 0 0 .step),
      [ .payload 1 (.inputReady 0) (.element 0 1), .payload 1 (.inputReady 0) (.element 0 0),
        .payload 1 (.inputReady 0) (.land 0), .payload 1 (.inputReady 0) (.signal 0) ],
      List.replicate 3 .coordinator,
      [ .publication 1 (.laneExecution 0) (.signal 0) ] ]

/-- One row of the second layer is found in its smaller capacity and two rows in its
greater one; a lane finds the two rows that it is leased. -/
theorem leased_executions_found_layered :
    (layeredInstalled.inspectSubmissionRendezvous (layeredSubmitted 1 .decode) 0 1).1 = .ready ∧
      (layeredInstalled.inspectSubmissionRendezvous (layeredSubmitted 2 .prefill) 0 1).1 = .ready ∧
      (∃ selection, layeredTables.select layeredInstalled.toTopology 2 1 ⟨⟨0, 1⟩, 1, 1, 1, .perRankComplete⟩ = some selection ∧
        Found layeredInstalled 0 ⟨⟨0, 1⟩, 1, 1, 1, .perRankComplete⟩ selection ∧ selection.payloadRowCapacity = 1) ∧
      (∃ selection, layeredTables.select layeredInstalled.toTopology 2 1 ⟨⟨0, 1⟩, 1, 1, 2, .perRankComplete⟩ = some selection ∧
        Found layeredInstalled 0 ⟨⟨0, 1⟩, 1, 1, 2, .perRankComplete⟩ selection ∧ selection.payloadRowCapacity = 2) ∧
      ∃ (s t : Fabric.State Nat), (layeredInstalled.fabric Fabric.soloKernels (.fifo 0)).Reachable s ∧
        (s.control.slots 1 (.laneExecution 0)).record = ⟨⟨0, 1⟩, 1, 1, 2, .perRankComplete⟩ ∧
        layeredInstalled.laneStep Fabric.soloKernels s 1 0 = some t ∧ (t.control.lanes 1 0).pc = .awaitPayloads := by
  have small : layeredInstalled.inspectSubmissionRendezvous (layeredSubmitted 1 .decode) 0 1 =
      (.ready, ⟨⟨0, 1⟩, 1, 1, .perRankComplete⟩) := by decide
  have great : layeredInstalled.inspectSubmissionRendezvous (layeredSubmitted 2 .prefill) 0 1 =
      (.ready, ⟨⟨0, 1⟩, 1, 2, .perRankComplete⟩) := by decide
  have found := leased_executions_found layeredInstalled
  obtain ⟨one, selectedOne, hereOne⟩ := found.1 _ 0 1 _ (by decide) small 0 (by decide) 1
  obtain ⟨two, selectedTwo, hereTwo⟩ := found.1 _ 0 1 _ (by decide) great 0 (by decide) 1
  have rowsOne : one.payloadRowCapacity = 1 :=
    congrArg Selection.payloadRowCapacity (Option.some.inj (selectedOne.symm.trans (by decide :
      layeredTables.select layeredInstalled.toTopology 2 1 ⟨⟨0, 1⟩, 1, 1, 1, .perRankComplete⟩ = some ⟨1, 0, 1, 0, false⟩)))
  have rowsTwo : two.payloadRowCapacity = 2 :=
    congrArg Selection.payloadRowCapacity (Option.some.inj (selectedTwo.symm.trans (by decide :
      layeredTables.select layeredInstalled.toTopology 2 1 ⟨⟨0, 1⟩, 1, 1, 2, .perRankComplete⟩ = some ⟨1, 1, 2, 0, false⟩)))
  obtain ⟨s, reached, standing⟩ :=
    layeredInstalled.toTopology.run_reaches Fabric.soloKernels (.fifo 0) (fun _ _ _ _ => 0) layeredLeases
      (fun s => (s.control.lanes 1 0).pc = .awaitExecution ∧ (s.control.lanes 1 0).lastLeaseSequence = 0 ∧
        1 ≤ (s.control.slots 1 (.laneExecution 0)).sequence ∧
        (s.control.slots 1 (.laneExecution 0)).record = ⟨⟨0, 1⟩, 1, 1, 2, .perRankComplete⟩) (by decide +kernel)
  obtain ⟨waits, first, published, leased⟩ := of_decide_eq_true standing
  obtain ⟨_, -, -, taken⟩ :=
    found.2 Nat Fabric.soloKernels (.fifo 0) s 0 0 reached (by decide) waits
      (by change ((s.control.lanes 1 0).lastLeaseSequence + 1) % 2 ^ 64 ≠ 0; rw [first]; decide)
      (by change ((s.control.lanes 1 0).lastLeaseSequence + 1) % 2 ^ 64 ≤ _; rw [first]; exact published)
  refine ⟨congrArg Prod.fst small, congrArg Prod.fst great, ⟨one, selectedOne, hereOne, rowsOne⟩,
    ⟨two, selectedTwo, hereTwo, rowsTwo⟩, s, _, reached, leased, taken, ?_⟩
  exact congrArg Fabric.Lane.pc (Fabric.update₂_same s.control.lanes 1 0 _)

end CrossPool.FfnAgent
