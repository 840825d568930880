import CrossPool.Fabric.Layout
import CrossPool.Transport.Layout

/-!
# Fabric arena accessors

The device finds an object from the root's offsets with arithmetic that wraps, and from
the tables that every participant wrote next to the root when it joined. Extents are
counted from the arena's base.
-/

namespace CrossPool.Fabric

open CrossPool.Lib

/-! ## Tables -/

/-- `InstanceEntry` -/
structure InstanceEntry where
  groupSumCompleteAdmitted : Bool
  hiddenSize : Nat
  payloadRowBytes : Nat
  decodePayloadRowCapacity : Nat
  prefillPayloadRowCapacity : Nat
  atnTpSize : Nat
  atnDpSize : Nat
  layerBegin : Nat
  layerCount : Nat
  atnagentPeBegin : Nat
  ffnagentPeBegin : Nat
  ffnTpSize : Nat
deriving DecidableEq, Repr, Inhabited

/-- `LayerEntry` -/
structure LayerEntry where
  kind : LayerKind
  effectiveTopk : Nat
deriving DecidableEq, Repr

instance : Inhabited LayerEntry :=
  ⟨⟨.dense, 0⟩⟩

structure ArenaTables where
  instances : List InstanceEntry
  layers : List LayerEntry
  atnagentPes : List Nat
  ffnagentPes : List Nat
deriving DecidableEq, Repr

/-- The tables so far, with the maxima that the layout needs. -/
structure Materialized extends ArenaTables where
  maximumLanePayloadBytes : Nat
  maximumRoutingMetadataElements : Nat
deriving DecidableEq, Repr

def Materialized.empty : Materialized :=
  ⟨⟨[], [], [], []⟩, 0, 0⟩

/-- Bytes of a BF16 or FP16 element. -/
def payloadElementBytes : Nat :=
  2

/-- One Instance of the loop in `Runtime::join`. -/
def Materialized.addInstance (atnagentCount : Nat) (m : Materialized) (i : Instance) : Option Materialized :=
  let maximumRows := max i.decodePayloadRowCapacity i.prefillPayloadRowCapacity
  (checkedProd [i.hiddenSize, payloadElementBytes]).bind fun payloadRowBytes =>
    (checkedProd [maximumRows, payloadRowBytes]).bind fun payloadBytes =>
      (i.layers.foldlM
        (fun maximum layer =>
          if layer.kind = .moe then (checkedProd [maximumRows, layer.effectiveTopk]).map (max maximum)
          else some maximum)
        m.maximumRoutingMetadataElements).map fun maximumRoutingMetadataElements =>
        { instances :=
            m.instances ++
              [{ groupSumCompleteAdmitted := i.groupSumCompleteAdmitted
                 hiddenSize := i.hiddenSize
                 payloadRowBytes
                 decodePayloadRowCapacity := i.decodePayloadRowCapacity
                 prefillPayloadRowCapacity := i.prefillPayloadRowCapacity
                 atnTpSize := i.atnTpSize
                 atnDpSize := i.atnDpSize
                 layerBegin := m.layers.length
                 layerCount := i.layers.length
                 atnagentPeBegin := m.atnagentPes.length
                 ffnagentPeBegin := m.ffnagentPes.length
                 ffnTpSize := i.ffnTpSize }]
          layers := m.layers ++ i.layers.map fun layer => ⟨layer.kind, layer.effectiveTopk⟩
          atnagentPes := m.atnagentPes ++ i.atnagentIndices
          ffnagentPes := m.ffnagentPes ++ i.layers.flatMap fun layer => layer.ffnagentIndices.map (atnagentCount + ·)
          maximumLanePayloadBytes := max m.maximumLanePayloadBytes payloadBytes
          maximumRoutingMetadataElements }

/-- `Runtime::join` up to the layout; `none` where it throws. -/
def join (types : ArenaTypes) (projection : ArenaProjection) : Option (ArenaTables × ArenaLayout) :=
  (checkedSum 0 (projection.instances.map fun i => i.layers.length)).bind fun _ =>
    (projection.instances.foldlM (Materialized.addInstance projection.atnagentCount) .empty).bind fun m =>
      (ArenaLayout.create types
        { atnagentCount := projection.atnagentCount
          ffnagentCount := projection.ffnagentCount
          instanceCount := m.instances.length
          executorLaneCount := projection.executorLaneCount
          layerEntryCount := m.layers.length
          atnagentPeEntryCount := m.atnagentPes.length
          ffnagentPeEntryCount := m.ffnagentPes.length
          maximumLanePayloadBytes := m.maximumLanePayloadBytes
          maximumRoutingMetadataElements := m.maximumRoutingMetadataElements }).map fun layout =>
        (m.toArenaTables, layout)

/-! ## Accessors -/

namespace ArenaLayout

variable (types : ArenaTypes) (tables : ArenaTables) (l : ArenaLayout)

/-- `pointer_at` -/
def pointerAt (type : ObjectType) (offset index : Nat) : Extent :=
  ⟨wrap (offset + wrap (index * type.size)), type.size⟩

/-- A span of bytes. -/
def bytesAt (offset index bytes : Nat) : Extent :=
  ⟨wrap (offset + index), bytes⟩

def layoutAt : Extent :=
  ⟨0, types.arenaLayout.size⟩

def stateAt : Extent :=
  pointerAt types.arenaState l.header.stateOffset 0

/-- `instance_entry`; the accessors are `none` where they abort. -/
def instanceEntryAt (instanceIndex : Nat) : Option Extent :=
  if l.instanceCount ≤ instanceIndex then none
  else some (pointerAt types.instanceEntry l.instanceEntriesOffsetBytes instanceIndex)

/-- What the device reads there. -/
def instanceEntry (instanceIndex : Nat) : InstanceEntry :=
  tables.instances.getD instanceIndex default

/-- The index of a layer in the flattened table. -/
def layerIndex (instanceIndex layerOrdinal : Nat) : Option Nat :=
  (l.instanceEntryAt types instanceIndex).bind fun _ =>
    if (instanceEntry tables instanceIndex).layerCount ≤ layerOrdinal then none
    else some (wrap ((instanceEntry tables instanceIndex).layerBegin + layerOrdinal))

def layerEntryAt (instanceIndex layerOrdinal : Nat) : Option Extent :=
  (l.layerIndex types tables instanceIndex layerOrdinal).map (pointerAt types.layerEntry l.layerEntriesOffsetBytes)

def atnagentPesAt (instanceIndex : Nat) : Option Extent :=
  (l.instanceEntryAt types instanceIndex).map fun _ =>
    let entry := instanceEntry tables instanceIndex
    ⟨(pointerAt types.int l.atnagentPesOffsetBytes entry.atnagentPeBegin).start,
      wrap (entry.atnTpSize * entry.atnDpSize) * types.int.size⟩

def ffnagentPesAt (instanceIndex layerOrdinal : Nat) : Option Extent :=
  (l.instanceEntryAt types instanceIndex).bind fun _ =>
    let entry := instanceEntry tables instanceIndex
    if entry.layerCount ≤ layerOrdinal then none
    else
      let begin := wrap (entry.ffnagentPeBegin + wrap (layerOrdinal * entry.ffnTpSize))
      some ⟨(pointerAt types.int l.ffnagentPesOffsetBytes begin).start, entry.ffnTpSize * types.int.size⟩

/-- One slot of a row of publications. -/
def slotAt (type : ObjectType) (offset count index : Nat) : Option Extent :=
  if count ≤ index then none else some (pointerAt type offset index)

/-- One slot of a table of publications. -/
def cellAt (type : ObjectType) (offset rows columns row column : Nat) : Option Extent :=
  if rows ≤ row ∨ columns ≤ column then none
  else some (pointerAt type offset (wrap (wrap (row * columns) + column)))

def submissionPublicationAt (sourceAtnagentIndex instanceIndex : Nat) : Option Extent :=
  cellAt types.submission l.submissionPublicationsOffsetBytes l.atnagentCount l.instanceCount sourceAtnagentIndex
    instanceIndex

def admissionPublicationAt (instanceIndex : Nat) : Option Extent :=
  slotAt types.admission l.admissionPublicationsOffsetBytes l.instanceCount instanceIndex

def laneExecutionPublicationAt (executorLaneIndex : Nat) : Option Extent :=
  slotAt types.laneExecution l.laneExecutionPublicationsOffsetBytes l.executorLaneCount executorLaneIndex

def inputReadyPublicationAt (executorLaneIndex : Nat) : Option Extent :=
  slotAt types.inputReady l.inputReadyPublicationsOffsetBytes l.executorLaneCount executorLaneIndex

def routingMetadataReadyPublicationAt (executorLaneIndex : Nat) : Option Extent :=
  if l.routingMetadataReadyPublicationsOffsetBytes = 0 then none
  else
    slotAt types.routingMetadataReady l.routingMetadataReadyPublicationsOffsetBytes l.executorLaneCount
      executorLaneIndex

def partialReadyPublicationAt (sourceFfnagentIndex executorLaneIndex : Nat) : Option Extent :=
  cellAt types.partialReady l.partialReadyPublicationsOffsetBytes l.ffnagentCount l.executorLaneCount
    sourceFfnagentIndex executorLaneIndex

def ffnagentCompletionPublicationAt (sourceFfnagentIndex executorLaneIndex : Nat) : Option Extent :=
  cellAt types.ffnagentCompletion l.ffnagentCompletionPublicationsOffsetBytes l.ffnagentCount l.executorLaneCount
    sourceFfnagentIndex executorLaneIndex

def outputCommitPublicationAt (instanceIndex : Nat) : Option Extent :=
  slotAt types.outputCommit l.outputCommitPublicationsOffsetBytes l.instanceCount instanceIndex

def outputAcknowledgementPublicationAt (sourceAtnagentIndex instanceIndex : Nat) : Option Extent :=
  cellAt types.outputAcknowledgement l.outputAcknowledgementPublicationsOffsetBytes l.atnagentCount l.instanceCount
    sourceAtnagentIndex instanceIndex

/-- The buffers of `atnagent_lane_payload` and `ffnagent_lane_payload`: the first is the
input, the second the output or the partial result. -/
def lanePayloadAt (second : Bool) (executorLaneIndex : Nat) : Option Extent :=
  if l.executorLaneCount ≤ executorLaneIndex then none
  else
    let index := if second then wrap (l.executorLaneCount + executorLaneIndex) else executorLaneIndex
    some
      (bytesAt l.lanePayloadStorageOffsetBytes (wrap (index * l.lanePayloadCapacityBytes)) l.lanePayloadCapacityBytes)

/-- `RoutingMetadataBlock` -/
structure RoutingMetadataBlock where
  base : Nat
  capacityElements : Nat
  liveElements : Nat
deriving DecidableEq, Repr

namespace RoutingMetadataBlock

variable (block : RoutingMetadataBlock)

def topkIds : Extent :=
  ⟨block.base, block.liveElements * 4⟩

def topkWeights : Extent :=
  ⟨wrap (block.base + wrap (block.capacityElements * 4)), block.liveElements * 4⟩

def publicationPayload : Extent :=
  ⟨block.base, wrap (block.capacityElements * routingElementBytes)⟩

end RoutingMetadataBlock

/-- `routing_metadata`, with the record of the lane's execution publication. -/
def routingMetadata (execution : LaneExecution) (executorLaneIndex payloadRowCapacity : Nat) :
    Option RoutingMetadataBlock :=
  if l.executorLaneCount ≤ executorLaneIndex ∨ payloadRowCapacity = 0 then none
  else if PublicationRecord.valid execution = false ∨ l.instanceCount ≤ execution.key.instanceIndex ∨
      payloadRowCapacity < execution.payloadRows then none
  else
    (l.layerIndex types tables execution.key.instanceIndex execution.layerOrdinal).bind fun index =>
      let layer := tables.layers.getD index default
      if layer.kind ≠ .moe ∨ layer.effectiveTopk = 0 ∨
          (wordLimit - 1) / layer.effectiveTopk < payloadRowCapacity then none
      else
        let capacityElements := wrap (payloadRowCapacity * layer.effectiveTopk)
        let liveElements := wrap (execution.payloadRows * layer.effectiveTopk)
        if (wordLimit - 1) / routingElementBytes < capacityElements ∨
            l.routingMetadataStrideBytes < wrap (capacityElements * routingElementBytes) then none
        else
          some
            ⟨wrap (l.routingMetadataOffsetBytes + wrap (executorLaneIndex * l.routingMetadataStrideBytes)),
              capacityElements, liveElements⟩

/-! ## Objects -/

/-- What the accessors address, by their arguments. -/
inductive Object where
  | layout
  | state
  | instanceEntry (instanceIndex : Nat)
  | layerEntry (instanceIndex layerOrdinal : Nat)
  | atnagentPes (instanceIndex : Nat)
  | ffnagentPes (instanceIndex layerOrdinal : Nat)
  | submission (sourceAtnagentIndex instanceIndex : Nat)
  | admission (instanceIndex : Nat)
  | laneExecution (executorLaneIndex : Nat)
  | inputReady (executorLaneIndex : Nat)
  | routingMetadataReady (executorLaneIndex : Nat)
  | partialReady (sourceFfnagentIndex executorLaneIndex : Nat)
  | ffnagentCompletion (sourceFfnagentIndex executorLaneIndex : Nat)
  | outputCommit (instanceIndex : Nat)
  | outputAcknowledgement (sourceAtnagentIndex instanceIndex : Nat)
  | lanePayload (second : Bool) (executorLaneIndex : Nat)
  | routingMetadata (executorLaneIndex : Nat)
deriving DecidableEq, Repr

/-- The records of the lanes' execution publications, and the row capacities that the
callers of `routing_metadata` pass. -/
structure Lanes where
  execution : Nat → LaneExecution
  payloadRowCapacity : Nat → Nat

/-- The bytes of an object. -/
def extent (lanes : Lanes) : Object → Option Extent
  | .layout => some (layoutAt types)
  | .state => some (l.stateAt types)
  | .instanceEntry i => l.instanceEntryAt types i
  | .layerEntry i ordinal => l.layerEntryAt types tables i ordinal
  | .atnagentPes i => l.atnagentPesAt types tables i
  | .ffnagentPes i ordinal => l.ffnagentPesAt types tables i ordinal
  | .submission source i => l.submissionPublicationAt types source i
  | .admission i => l.admissionPublicationAt types i
  | .laneExecution lane => l.laneExecutionPublicationAt types lane
  | .inputReady lane => l.inputReadyPublicationAt types lane
  | .routingMetadataReady lane => l.routingMetadataReadyPublicationAt types lane
  | .partialReady source lane => l.partialReadyPublicationAt types source lane
  | .ffnagentCompletion source lane => l.ffnagentCompletionPublicationAt types source lane
  | .outputCommit i => l.outputCommitPublicationAt types i
  | .outputAcknowledgement source i => l.outputAcknowledgementPublicationAt types source i
  | .lanePayload second lane => l.lanePayloadAt second lane
  | .routingMetadata lane =>
    (l.routingMetadata types tables (lanes.execution lane) lane (lanes.payloadRowCapacity lane)).map
      RoutingMetadataBlock.publicationPayload

/-- The region of an object. -/
def Object.region : Object → FabricRegion
  | .layout => .layout
  | .state => .state
  | .instanceEntry _ => .instanceEntries
  | .layerEntry _ _ => .layerEntries
  | .atnagentPes _ => .atnagentPes
  | .ffnagentPes _ _ => .ffnagentPes
  | .submission _ _ => .submissionPublications
  | .admission _ => .admissionPublications
  | .laneExecution _ => .laneExecutionPublications
  | .inputReady _ => .inputReadyPublications
  | .routingMetadataReady _ => .routingMetadataReadyPublications
  | .partialReady _ _ => .partialReadyPublications
  | .ffnagentCompletion _ _ => .ffnagentCompletionPublications
  | .outputCommit _ => .outputCommitPublications
  | .outputAcknowledgement _ _ => .outputAcknowledgementPublications
  | .lanePayload _ _ => .lanePayloadStorage
  | .routingMetadata _ => .routingMetadata

/-- The objects whose place depends on the Instance table. -/
def Object.tabular : Object → Bool
  | .layerEntry _ _ | .atnagentPes _ | .ffnagentPes _ _ => true
  | _ => false

/-! ## Cells -/

/-- Consecutive slots of a region that is divided into slots. -/
structure Cell where
  size : Nat
  first : Nat
  number : Nat
  count : Nat

/-- The slots of an object. -/
def cell : Object → Cell
  | .layout => ⟨types.arenaLayout.size, 0, 1, 1⟩
  | .state => ⟨types.arenaState.size, 0, 1, 1⟩
  | .instanceEntry i => ⟨types.instanceEntry.size, i, 1, l.instanceCount⟩
  | .layerEntry i ordinal =>
    ⟨types.layerEntry.size, (instanceEntry tables i).layerBegin + ordinal, 1, l.layerEntryCount⟩
  | .atnagentPes i =>
    ⟨types.int.size, (instanceEntry tables i).atnagentPeBegin,
      (instanceEntry tables i).atnTpSize * (instanceEntry tables i).atnDpSize, l.atnagentPeEntryCount⟩
  | .ffnagentPes i ordinal =>
    ⟨types.int.size, (instanceEntry tables i).ffnagentPeBegin + ordinal * (instanceEntry tables i).ffnTpSize,
      (instanceEntry tables i).ffnTpSize, l.ffnagentPeEntryCount⟩
  | .submission source i =>
    ⟨types.submission.size, source * l.instanceCount + i, 1, l.atnagentCount * l.instanceCount⟩
  | .admission i => ⟨types.admission.size, i, 1, l.instanceCount⟩
  | .laneExecution lane => ⟨types.laneExecution.size, lane, 1, l.executorLaneCount⟩
  | .inputReady lane => ⟨types.inputReady.size, lane, 1, l.executorLaneCount⟩
  | .routingMetadataReady lane => ⟨types.routingMetadataReady.size, lane, 1, l.routingLaneCount⟩
  | .partialReady source lane =>
    ⟨types.partialReady.size, source * l.executorLaneCount + lane, 1, l.ffnagentCount * l.executorLaneCount⟩
  | .ffnagentCompletion source lane =>
    ⟨types.ffnagentCompletion.size, source * l.executorLaneCount + lane, 1, l.ffnagentCount * l.executorLaneCount⟩
  | .outputCommit i => ⟨types.outputCommit.size, i, 1, l.instanceCount⟩
  | .outputAcknowledgement source i =>
    ⟨types.outputAcknowledgement.size, source * l.instanceCount + i, 1, l.atnagentCount * l.instanceCount⟩
  | .lanePayload second lane =>
    ⟨l.lanePayloadCapacityBytes, (if second then l.executorLaneCount else 0) + lane, 1,
      executorLanePayloadBufferCount * l.executorLaneCount⟩
  | .routingMetadata lane => ⟨l.routingMetadataStrideBytes, lane, 1, l.routingLaneCount⟩

section Cells

variable {types tables l} {R : Regions FabricRegion}

/-- A region is as large as its slots. -/
theorem region_bytes (safe : R.Safe (l.spec types)) (x : Object) :
    (R.region x.region).bytes = (l.cell types tables x).count * (l.cell types tables x).size := by
  have specified := safe.specified x.region
  cases x with
  | layout | state =>
    have same := Option.some.inj specified
    simp only [cell, Nat.one_mul]
    exact (congrArg LayoutRegionSpec.byteCount same).symm
  | instanceEntry | layerEntry | atnagentPes | ffnagentPes | admission | laneExecution | inputReady | outputCommit =>
    exact LayoutRegionSpec.array_bytes specified
  | submission | partialReady | ffnagentCompletion | outputAcknowledgement =>
    obtain ⟨count, product, specified⟩ := Option.bind_eq_some_iff.mp specified
    have bytes := LayoutRegionSpec.array_bytes specified
    rw [(checkedProd_eq_some product).1, List.prod_cons, List.prod_singleton] at bytes
    exact bytes
  | routingMetadataReady | lanePayload | routingMetadata =>
    obtain ⟨bytes, product, same⟩ := Option.map_eq_some_iff.mp specified
    have total := congrArg LayoutRegionSpec.byteCount same
    rw [(checkedProd_eq_some product).1] at total
    simp only [List.prod_cons, List.prod_nil, Nat.mul_one, ← Nat.mul_assoc] at total
    exact total.symm

/-- A slot's address does not wrap. -/
theorem pointerAt_eq {type : ObjectType} {offset index count total : Nat} (listed : index ≤ count)
    (inside : offset + count * type.size ≤ total) (bounded : total < wordLimit) :
    pointerAt type offset index = Extent.run offset type.size index 1 := by
  have less : index * type.size ≤ count * type.size := Nat.mul_le_mul_right _ listed
  rw [pointerAt, wrap_eq (by omega : index * type.size < wordLimit),
    wrap_eq (by omega : offset + index * type.size < wordLimit), Extent.run, Nat.one_mul]

/-- A number of slots of some size within the arena is a word. -/
theorem count_lt {size offset count total : Nat} (positive : 0 < size) (inside : offset + count * size ≤ total)
    (bounded : total < wordLimit) : count < wordLimit := by
  have := Nat.le_mul_of_pos_right count positive
  omega

/-- An object lies in its slots of a region, and these are among the region's. -/
def Located (offset : Nat) (c : Cell) (e : Extent) : Prop :=
  c.first + c.number ≤ c.count ∧ e.Within (Extent.run offset c.size c.first c.number)

theorem pointerAt_located {type : ObjectType} {offset index count total : Nat} (listed : index < count)
    (inside : offset + count * type.size ≤ total) (bounded : total < wordLimit) :
    Located offset ⟨type.size, index, 1, count⟩ (pointerAt type offset index) := by
  rw [pointerAt_eq (Nat.le_of_lt listed) inside bounded]
  exact ⟨listed, Extent.Within.refl _⟩

theorem bytesAt_located {size offset index count bytes total : Nat} (listed : index < count) (fits : bytes ≤ size)
    (inside : offset + count * size ≤ total) (bounded : total < wordLimit) :
    Located offset ⟨size, index, 1, count⟩ (bytesAt offset (wrap (index * size)) bytes) := by
  have less : index * size ≤ count * size := Nat.mul_le_mul_right _ (Nat.le_of_lt listed)
  rw [bytesAt, wrap_eq (by omega : index * size < wordLimit), wrap_eq (by omega : offset + index * size < wordLimit)]
  refine ⟨listed, ?_⟩
  simp only [Extent.Within, Extent.stop, Extent.run]
  omega

theorem slotAt_located {type : ObjectType} {offset count index total : Nat} {e : Extent}
    (accessed : slotAt type offset count index = some e) (inside : offset + count * type.size ≤ total)
    (bounded : total < wordLimit) : Located offset ⟨type.size, index, 1, count⟩ e := by
  unfold slotAt at accessed
  split at accessed
  · cases accessed
  · rename_i listed
    rw [Nat.not_le] at listed
    cases accessed
    exact pointerAt_located listed inside bounded

theorem cellAt_located {type : ObjectType} {offset rows columns row column total : Nat} {e : Extent}
    (accessed : cellAt type offset rows columns row column = some e)
    (inside : offset + rows * columns * type.size ≤ total) (bounded : total < wordLimit) :
    Located offset ⟨type.size, row * columns + column, 1, rows * columns⟩ e := by
  unfold cellAt at accessed
  split at accessed
  · cases accessed
  · rename_i listed
    rw [not_or, Nat.not_le, Nat.not_le] at listed
    cases accessed
    have less := row_index_lt listed.1 listed.2
    have small := count_lt (ObjectType.size_pos _) inside bounded
    rw [wrap_eq (by omega : row * columns < wordLimit), wrap_eq (by omega : row * columns + column < wordLimit)]
    exact pointerAt_located less inside bounded

/-- A run of entries of a table. -/
theorem run_located {type : ObjectType} {offset first number count total : Nat} (listed : first + number ≤ count) (inside : offset + count * type.size ≤ total) (bounded : total < wordLimit) :
    Located offset ⟨type.size, first, number, count⟩
      ⟨(pointerAt type offset first).start, number * type.size⟩ := by
  refine ⟨listed, ?_⟩
  rw [pointerAt_eq (by omega : first ≤ count) inside bounded]
  exact Extent.Within.refl _

end Cells

/-- The tables divide the arena's table rows into one block for each Instance. -/
structure Consistent (tables : ArenaTables) (l : ArenaLayout) : Prop where
  count : tables.instances.length = l.instanceCount
  layers : Laid (tables.instances.map fun entry => (entry.layerBegin, entry.layerCount)) l.layerEntryCount
  atnagents : Laid (tables.instances.map fun entry => (entry.atnagentPeBegin, entry.atnTpSize * entry.atnDpSize))
    l.atnagentPeEntryCount
  ffnagents : Laid (tables.instances.map fun entry => (entry.ffnagentPeBegin, entry.layerCount * entry.ffnTpSize))
    l.ffnagentPeEntryCount

section Located

variable {types tables l} {R : Regions FabricRegion}

theorem Consistent.listed (consistent : Consistent tables l) {i : Nat} (inside : i < l.instanceCount) :
    tables.instances[i]? = some (instanceEntry tables i) := by
  rw [← consistent.count] at inside
  rw [instanceEntry, List.getD_eq_getElem?_getD, List.getElem?_eq_getElem inside, Option.getD_some]

theorem Consistent.layer_inside (consistent : Consistent tables l) {i : Nat} (listed : i < l.instanceCount) :
    (instanceEntry tables i).layerBegin + (instanceEntry tables i).layerCount ≤ l.layerEntryCount := by
  have member := List.mem_of_getElem? (consistent.listed listed)
  exact consistent.layers.inside _ (List.mem_map_of_mem member)

theorem Consistent.atnagent_inside (consistent : Consistent tables l) {i : Nat} (listed : i < l.instanceCount) :
    (instanceEntry tables i).atnagentPeBegin + (instanceEntry tables i).atnTpSize * (instanceEntry tables i).atnDpSize ≤
      l.atnagentPeEntryCount := by
  have member := List.mem_of_getElem? (consistent.listed listed)
  exact consistent.atnagents.inside _ (List.mem_map_of_mem member)

theorem Consistent.ffnagent_inside (consistent : Consistent tables l) {i ordinal : Nat} (listed : i < l.instanceCount)
    (within : ordinal < (instanceEntry tables i).layerCount) :
    (instanceEntry tables i).ffnagentPeBegin + ordinal * (instanceEntry tables i).ffnTpSize +
      (instanceEntry tables i).ffnTpSize ≤ l.ffnagentPeEntryCount := by
  have member := List.mem_of_getElem? (consistent.listed listed)
  have block := consistent.ffnagents.inside _ (List.mem_map_of_mem member)
  have last : ordinal * (instanceEntry tables i).ffnTpSize + (instanceEntry tables i).ffnTpSize ≤
      (instanceEntry tables i).layerCount * (instanceEntry tables i).ffnTpSize := by
    rw [← Nat.succ_mul]
    exact Nat.mul_le_mul_right _ within
  dsimp only at block
  omega

theorem instanceEntryAt_eq_some {i : Nat} {e : Extent} (accessed : l.instanceEntryAt types i = some e) :
    i < l.instanceCount := by
  unfold instanceEntryAt at accessed
  split at accessed
  · cases accessed
  · omega

theorem layerIndex_eq_some {i ordinal index : Nat} (found : l.layerIndex types tables i ordinal = some index) :
    i < l.instanceCount ∧ ordinal < (instanceEntry tables i).layerCount ∧
      index = wrap ((instanceEntry tables i).layerBegin + ordinal) := by
  obtain ⟨_, accessed, found⟩ := Option.bind_eq_some_iff.mp found
  simp only [Option.ite_none_left_eq_some, Nat.not_le, Option.some.injEq] at found
  exact ⟨instanceEntryAt_eq_some accessed, found.1, found.2.symm⟩

theorem routingLaneCount_eq (routes : l.routingMetadataStrideBytes ≠ 0) : l.routingLaneCount = l.executorLaneCount :=
  if_neg routes

/-- Without routing there is no offset of routing publications. -/
theorem Planned.unrouted (planned : Planned types l R) (none : l.routingMetadataStrideBytes = 0) :
    l.routingMetadataReadyPublicationsOffsetBytes = 0 := by
  rw [planned.root]
  exact if_pos none

/-- What is known of a routing block that the accessor returns. -/
structure Accepted (l : ArenaLayout) (lane : Nat) (block : RoutingMetadataBlock) : Prop where
  listed : lane < l.executorLaneCount
  positive : 0 < block.capacityElements
  live : block.liveElements ≤ block.capacityElements
  payload : wrap (block.capacityElements * routingElementBytes) = block.capacityElements * routingElementBytes
  fits : block.capacityElements * routingElementBytes ≤ l.routingMetadataStrideBytes
  base : block.base = wrap (l.routingMetadataOffsetBytes + wrap (lane * l.routingMetadataStrideBytes))

theorem routingMetadata_accepted {execution : LaneExecution} {lane payloadRowCapacity : Nat} {block : RoutingMetadataBlock}
    (found : l.routingMetadata types tables execution lane payloadRowCapacity = some block) :
    Accepted l lane block := by
  simp only [routingMetadata, Option.ite_none_left_eq_some, Option.bind_eq_some_iff, not_or, Nat.not_le, Nat.not_lt,
    Option.some.injEq] at found
  obtain ⟨⟨listed, rows⟩, ⟨-, -, fewer⟩, index, -, ⟨-, topk, product⟩, ⟨small, fits⟩, rfl⟩ := found
  generalize (tables.layers.getD index default).effectiveTopk = k at *
  have capacity : payloadRowCapacity * k < wordLimit := by
    have := (Nat.le_div_iff_mul_le (Nat.pos_of_ne_zero topk)).mp product
    simp only [wordLimit] at this ⊢
    omega
  have live : execution.payloadRows * k ≤ payloadRowCapacity * k := Nat.mul_le_mul_right k fewer
  rw [wrap_eq capacity] at small fits
  have bytes : payloadRowCapacity * k * routingElementBytes < wordLimit := by
    have := (Nat.le_div_iff_mul_le (by decide : 0 < routingElementBytes)).mp small
    simp only [wordLimit] at this ⊢
    omega
  rw [wrap_eq bytes] at fits
  constructor
  · exact listed
  · dsimp only
    rw [wrap_eq capacity]
    exact Nat.mul_pos (Nat.pos_of_ne_zero rows) (Nat.pos_of_ne_zero topk)
  · dsimp only
    rw [wrap_eq capacity, wrap_eq (Nat.lt_of_le_of_lt live capacity)]
    exact live
  · dsimp only
    rw [wrap_eq capacity]
    exact wrap_eq bytes
  · dsimp only
    rw [wrap_eq capacity]
    exact fits
  · rfl

/-- An object lies in its slots, and these in its region. -/
theorem extent_located (planned : Planned types l R) (lanes : Lanes) (x : Object)
    (consistent : x.tabular → Consistent tables l) {e : Extent} (accessed : l.extent types tables lanes x = some e) :
    Located (R.region x.region).offset (l.cell types tables x) e := by
  have safe := ArenaGeometry.regions_safe planned.regions
  obtain ⟨inside, bounded⟩ := planned.fits x.region
  rw [@region_bytes types tables l R safe x] at inside
  have stored := planned.offset_eq x.region
  cases x with
  | layout =>
    rw [← stored (.inr ⟨by simp [Object.region], by simp [Object.region]⟩)]
    cases accessed
    refine ⟨Nat.le_refl _, ?_⟩
    simp only [cell, Object.region, offset, Extent.run, Nat.zero_mul, Nat.zero_add, Nat.one_mul]
    exact Extent.Within.refl _
  | state =>
    rw [← stored (.inr ⟨by simp [Object.region], by simp [Object.region]⟩)] at inside ⊢
    cases accessed
    exact pointerAt_located Nat.zero_lt_one inside bounded
  | instanceEntry | admission | laneExecution | inputReady | outputCommit =>
    rw [← stored (.inr ⟨by simp [Object.region], by simp [Object.region]⟩)] at inside ⊢
    exact slotAt_located accessed inside bounded
  | submission | partialReady | ffnagentCompletion | outputAcknowledgement =>
    rw [← stored (.inr ⟨by simp [Object.region], by simp [Object.region]⟩)] at inside ⊢
    exact cellAt_located accessed inside bounded
  | routingMetadataReady lane =>
    simp only [extent, routingMetadataReadyPublicationAt, Option.ite_none_left_eq_some] at accessed
    obtain ⟨used, accessed⟩ := accessed
    have routes : l.routingMetadataStrideBytes ≠ 0 := fun none => used (planned.unrouted none)
    rw [← stored (.inl routes)] at inside ⊢
    simp only [cell, l.routingLaneCount_eq routes] at inside ⊢
    exact slotAt_located accessed inside bounded
  | layerEntry i ordinal =>
    rw [← stored (.inr ⟨by simp [Object.region], by simp [Object.region]⟩)] at inside ⊢
    have inside : l.layerEntriesOffsetBytes + l.layerEntryCount * types.layerEntry.size ≤ R.totalBytes := inside
    obtain ⟨index, found, rfl⟩ := Option.map_eq_some_iff.mp accessed
    obtain ⟨listed, within, rfl⟩ := layerIndex_eq_some found
    have block := (consistent rfl).layer_inside listed
    have small := count_lt (ObjectType.size_pos _) inside bounded
    rw [wrap_eq (by omega)]
    exact pointerAt_located (by omega) inside bounded
  | atnagentPes i =>
    rw [← stored (.inr ⟨by simp [Object.region], by simp [Object.region]⟩)] at inside ⊢
    have inside : l.atnagentPesOffsetBytes + l.atnagentPeEntryCount * types.int.size ≤ R.totalBytes := inside
    obtain ⟨_, found, rfl⟩ := Option.map_eq_some_iff.mp accessed
    have block := (consistent rfl).atnagent_inside (instanceEntryAt_eq_some found)
    have small := count_lt (ObjectType.size_pos _) inside bounded
    dsimp only
    rw [wrap_eq (by omega)]
    exact run_located block inside bounded
  | ffnagentPes i ordinal =>
    rw [← stored (.inr ⟨by simp [Object.region], by simp [Object.region]⟩)] at inside ⊢
    have inside : l.ffnagentPesOffsetBytes + l.ffnagentPeEntryCount * types.int.size ≤ R.totalBytes := inside
    obtain ⟨_, found, accessed⟩ := Option.bind_eq_some_iff.mp accessed
    simp only [Option.ite_none_left_eq_some, Nat.not_le, Option.some.injEq] at accessed
    obtain ⟨within, rfl⟩ := accessed
    have block := (consistent rfl).ffnagent_inside (instanceEntryAt_eq_some found) within
    have small := count_lt (ObjectType.size_pos _) inside bounded
    rw [wrap_eq (by omega : ordinal * (instanceEntry tables i).ffnTpSize < wordLimit), wrap_eq (by omega)]
    exact run_located block inside bounded
  | lanePayload second lane =>
    rw [← stored (.inr ⟨by simp [Object.region], by simp [Object.region]⟩)] at inside ⊢
    have inside : l.lanePayloadStorageOffsetBytes +
        executorLanePayloadBufferCount * l.executorLaneCount * l.lanePayloadCapacityBytes ≤ R.totalBytes := inside
    simp only [extent, lanePayloadAt, Option.ite_none_left_eq_some, Nat.not_le, Option.some.injEq] at accessed
    obtain ⟨listed, rfl⟩ := accessed
    have small := count_lt (Nat.pos_of_ne_zero planned.capacity.1) inside bounded
    have index : (if second then wrap (l.executorLaneCount + lane) else lane) =
        (if second then l.executorLaneCount else 0) + lane := by
      simp only [executorLanePayloadBufferCount] at small
      split
      · exact wrap_eq (by omega)
      · exact (Nat.zero_add lane).symm
    rw [index]
    apply bytesAt_located ?_ (Nat.le_refl _) inside bounded
    simp only [executorLanePayloadBufferCount]
    split <;> omega
  | routingMetadata lane =>
    obtain ⟨block, found, rfl⟩ := Option.map_eq_some_iff.mp accessed
    have accepted := routingMetadata_accepted found
    have routes : l.routingMetadataStrideBytes ≠ 0 := by
      have := accepted.positive
      have := accepted.fits
      simp only [routingElementBytes] at this
      omega
    rw [← stored (.inl routes)] at inside ⊢
    simp only [cell, l.routingLaneCount_eq routes] at inside ⊢
    rw [RoutingMetadataBlock.publicationPayload, accepted.payload, accepted.base]
    exact bytesAt_located accepted.listed accepted.fits inside bounded

/-! ## Different objects -/

/-- The size of a region's slots. -/
def slotSize (types : ArenaTypes) (l : ArenaLayout) : FabricRegion → Nat
  | .layout => types.arenaLayout.size
  | .state => types.arenaState.size
  | .instanceEntries => types.instanceEntry.size
  | .layerEntries => types.layerEntry.size
  | .atnagentPes | .ffnagentPes => types.int.size
  | .submissionPublications => types.submission.size
  | .admissionPublications => types.admission.size
  | .laneExecutionPublications => types.laneExecution.size
  | .inputReadyPublications => types.inputReady.size
  | .routingMetadataReadyPublications => types.routingMetadataReady.size
  | .partialReadyPublications => types.partialReady.size
  | .ffnagentCompletionPublications => types.ffnagentCompletion.size
  | .outputCommitPublications => types.outputCommit.size
  | .outputAcknowledgementPublications => types.outputAcknowledgement.size
  | .lanePayloadStorage => l.lanePayloadCapacityBytes
  | .routingMetadata => l.routingMetadataStrideBytes

theorem cell_size (x : Object) : (l.cell types tables x).size = slotSize types l x.region := by
  cases x <;> rfl

theorem cellAt_column {type : ObjectType} {offset rows columns row column : Nat} {e : Extent}
    (accessed : cellAt type offset rows columns row column = some e) : column < columns := by
  unfold cellAt at accessed
  split at accessed
  · cases accessed
  · omega

/-- The blocks of two Instances are apart. -/
theorem Consistent.apart (consistent : Consistent tables l) {block : InstanceEntry → Nat × Nat} {total : Nat}
    (laid : Laid (tables.instances.map block) total) {i i' : Nat} (listed : i < l.instanceCount)
    (listed' : i' < l.instanceCount) (differs : i ≠ i') :
    (block (instanceEntry tables i)).1 + (block (instanceEntry tables i)).2 ≤ (block (instanceEntry tables i')).1 ∨
      (block (instanceEntry tables i')).1 + (block (instanceEntry tables i')).2 ≤
        (block (instanceEntry tables i)).1 := by
  have found : (tables.instances.map block)[i]? = some (block (instanceEntry tables i)) := by
    rw [List.getElem?_map, consistent.listed listed, Option.map_some]
  have found' : (tables.instances.map block)[i']? = some (block (instanceEntry tables i')) := by
    rw [List.getElem?_map, consistent.listed listed', Option.map_some]
  exact laid.apart differs found found'

theorem layerEntryAt_eq_some {i ordinal : Nat} {e : Extent}
    (accessed : l.layerEntryAt types tables i ordinal = some e) :
    i < l.instanceCount ∧ ordinal < (instanceEntry tables i).layerCount := by
  obtain ⟨index, found, -⟩ := Option.map_eq_some_iff.mp accessed
  obtain ⟨listed, within, -⟩ := layerIndex_eq_some found
  exact ⟨listed, within⟩

theorem ffnagentPesAt_eq_some {i ordinal : Nat} {e : Extent}
    (accessed : l.ffnagentPesAt types tables i ordinal = some e) :
    i < l.instanceCount ∧ ordinal < (instanceEntry tables i).layerCount := by
  obtain ⟨_, found, accessed⟩ := Option.bind_eq_some_iff.mp accessed
  simp only [Option.ite_none_left_eq_some, Nat.not_le] at accessed
  exact ⟨instanceEntryAt_eq_some found, accessed.1⟩

/-- The slots of two objects of one region are different ones. -/
theorem cells_apart (lanes : Lanes) {x y : Object} (differs : x ≠ y) (same : x.region = y.region)
    (consistent : x.tabular → Consistent tables l) {e f : Extent} (accessed : l.extent types tables lanes x = some e)
    (accessed' : l.extent types tables lanes y = some f) :
    (l.cell types tables x).first + (l.cell types tables x).number ≤ (l.cell types tables y).first ∨
      (l.cell types tables y).first + (l.cell types tables y).number ≤ (l.cell types tables x).first := by
  have single {a b : Nat} (differs : a ≠ b) : a + 1 ≤ b ∨ b + 1 ≤ a := by omega
  cases x with
  | layout | state =>
    cases y <;> cases same
    exact absurd rfl differs
  | instanceEntry i | admission i | laneExecution i | inputReady i | routingMetadataReady i | outputCommit i
  | routingMetadata i =>
    cases y <;> cases same
    apply single
    intro equal
    simp only [cell] at equal
    exact differs (congrArg _ equal)
  | submission source i | partialReady source i | ffnagentCompletion source i | outputAcknowledgement source i =>
    cases y <;> cases same
    apply single
    intro equal
    obtain ⟨rows, columns⟩ := row_index_inj (cellAt_column accessed) (cellAt_column accessed') equal
    exact differs (congrArg₂ _ rows columns)
  | layerEntry i ordinal =>
    cases y <;> cases same
    rename_i i' ordinal'
    have consistent := consistent rfl
    obtain ⟨listed, within⟩ := layerEntryAt_eq_some accessed
    obtain ⟨listed', within'⟩ := layerEntryAt_eq_some accessed'
    simp only [cell]
    by_cases equal : i = i'
    · subst equal
      have other : ordinal ≠ ordinal' := fun same => differs (congrArg _ same)
      omega
    · have apart := consistent.apart consistent.layers listed listed' equal
      dsimp only at apart
      omega
  | atnagentPes i =>
    cases y <;> cases same
    rename_i i'
    have consistent := consistent rfl
    obtain ⟨_, found, -⟩ := Option.map_eq_some_iff.mp accessed
    obtain ⟨_, found', -⟩ := Option.map_eq_some_iff.mp accessed'
    have equal : i ≠ i' := fun same => differs (congrArg _ same)
    exact consistent.apart consistent.atnagents (instanceEntryAt_eq_some found) (instanceEntryAt_eq_some found') equal
  | ffnagentPes i ordinal =>
    cases y <;> cases same
    rename_i i' ordinal'
    have consistent := consistent rfl
    obtain ⟨listed, within⟩ := ffnagentPesAt_eq_some accessed
    obtain ⟨listed', within'⟩ := ffnagentPesAt_eq_some accessed'
    have later {a b size : Nat} (less : a < b) : a * size + size ≤ b * size := by
      rw [← Nat.succ_mul]
      exact Nat.mul_le_mul_right size less
    simp only [cell]
    by_cases equal : i = i'
    · subst equal
      have other : ordinal ≠ ordinal' := fun same => differs (congrArg _ same)
      rcases Nat.lt_or_gt_of_ne other with less | more
      · have := @later _ _ (instanceEntry tables i).ffnTpSize less
        omega
      · have := @later _ _ (instanceEntry tables i).ffnTpSize more
        omega
    · have apart := consistent.apart consistent.ffnagents listed listed' equal
      have last := @later _ _ (instanceEntry tables i).ffnTpSize within
      have last' := @later _ _ (instanceEntry tables i').ffnTpSize within'
      dsimp only at apart
      omega
  | lanePayload second lane =>
    cases y <;> cases same
    rename_i second' lane'
    simp only [extent, lanePayloadAt, Option.ite_none_left_eq_some, Nat.not_le] at accessed accessed'
    have listed := accessed.1
    have listed' := accessed'.1
    apply single
    intro equal
    simp only [cell] at equal
    apply differs
    cases second <;> cases second' <;> simp only [Bool.false_eq_true, if_true, if_false] at equal
    · rw [show lane = lane' by omega]
    · omega
    · omega
    · rw [show lane = lane' by omega]

/-- The slots of an object lie in its region. -/
theorem cells_within (planned : Planned types l R) {x : Object}
    (listed : (l.cell types tables x).first + (l.cell types tables x).number ≤ (l.cell types tables x).count) :
    (Extent.run (R.region x.region).offset (l.cell types tables x).size (l.cell types tables x).first
      (l.cell types tables x).number).Within (R.region x.region).extent := by
  have bytes : (R.region x.region).extent.bytes = (l.cell types tables x).count * (l.cell types tables x).size :=
    region_bytes (ArenaGeometry.regions_safe planned.regions) x
  exact Extent.run_within bytes listed

/-- Different objects have different bytes. -/
theorem extents_disjoint (planned : Planned types l R) (lanes : Lanes) {x y : Object} (differs : x ≠ y)
    (consistent : x.tabular ∨ y.tabular → Consistent tables l) {e f : Extent}
    (accessed : l.extent types tables lanes x = some e) (accessed' : l.extent types tables lanes y = some f) :
    e.Disjoint f := by
  have safe := ArenaGeometry.regions_safe planned.regions
  obtain ⟨first, within⟩ := extent_located planned lanes x (fun tabular => consistent (.inl tabular)) accessed
  obtain ⟨second, within'⟩ := extent_located planned lanes y (fun tabular => consistent (.inr tabular)) accessed'
  by_cases same : x.region = y.region
  · have apart := cells_apart lanes differs same (fun tabular => consistent (.inl tabular)) accessed accessed'
    rw [same, cell_size, same, ← @cell_size types tables l y] at within
    exact Extent.Disjoint.mono (Extent.run_disjoint apart) within within'
  · have apart := safe.disjoint _ _ same
    exact apart.mono (within.trans (cells_within planned first)) (within'.trans (cells_within planned second))

end Located

/-! ## The joined tables -/

section Joined

variable {types tables l}

/-- The tables are divided into blocks of the Instances so far. -/
structure Divided (t : ArenaTables) : Prop where
  layers : Laid (t.instances.map fun entry => (entry.layerBegin, entry.layerCount)) t.layers.length
  atnagents : Laid (t.instances.map fun entry => (entry.atnagentPeBegin, entry.atnTpSize * entry.atnDpSize))
    t.atnagentPes.length
  ffnagents : Laid (t.instances.map fun entry => (entry.ffnagentPeBegin, entry.layerCount * entry.ffnTpSize))
    t.ffnagentPes.length

/-- A valid Instance has as many FfnAgent PEs as its layers say. -/
theorem ffnagentPes_length {i : Instance} {atnagentCount ffnagentCount : Nat}
    (valid : i.validate atnagentCount ffnagentCount) :
    (i.layers.flatMap fun layer => layer.ffnagentIndices.map (atnagentCount + ·)).length =
      i.layers.length * i.ffnTpSize := by
  simp only [Instance.validate, Bool.and_eq_true, List.all_eq_true, Layer.validate, decide_eq_true_eq] at valid
  have widths : ∀ layer ∈ i.layers, layer.ffnagentIndices.length = i.ffnTpSize :=
    fun layer member => (valid.2 layer member).1.1.1.2
  clear valid
  generalize i.ffnTpSize = width at *
  generalize i.layers = layers at *
  induction layers with
  | nil => simp
  | cons layer rest ih =>
    have first := widths layer List.mem_cons_self
    have others := ih fun other member => widths other (List.mem_cons_of_mem _ member)
    rw [List.flatMap_cons, List.length_append, others, List.length_map, first, List.length_cons, Nat.succ_mul, Nat.add_comm]

theorem addInstance_divided {i : Instance} {atnagentCount ffnagentCount : Nat} {m m' : Materialized}
    (valid : i.validate atnagentCount ffnagentCount) (divided : Divided m.toArenaTables)
    (added : m.addInstance atnagentCount i = some m') : Divided m'.toArenaTables := by
  simp only [Materialized.addInstance, Option.bind_eq_some_iff, Option.map_eq_some_iff] at added
  obtain ⟨payloadRowBytes, -, payloadBytes, -, maximum, -, rfl⟩ := added
  have width : i.atnTpSize * i.atnDpSize = i.atnagentIndices.length := by
    simp only [Instance.validate, Bool.and_eq_true, decide_eq_true_eq] at valid
    exact valid.1.1.1.1.2
  constructor
  · rw [List.map_append, List.length_append, List.length_map]
    exact divided.layers.append _
  · rw [List.map_append, List.length_append, ← width]
    exact divided.atnagents.append _
  · rw [List.map_append, List.length_append, ffnagentPes_length valid]
    exact divided.ffnagents.append _

/-- The tables and the root of a participant agree. -/
theorem join_consistent {projection : ArenaProjection} (valid : projection.validate)
    (joined : join types projection = some (tables, l)) : Consistent tables l ∧ ∃ R, Planned types l R := by
  simp only [join, Option.bind_eq_some_iff, Option.map_eq_some_iff, Prod.mk.injEq] at joined
  obtain ⟨_, -, m, folded, layout, created, rfl, rfl⟩ := joined
  have divided : Divided m.toArenaTables := by
    apply foldlM_some (fun m : Materialized => Divided m.toArenaTables) ?_ ?_ folded
    · have none : Laid [] 0 := ⟨List.Pairwise.nil, fun _ member => absurd member List.not_mem_nil⟩
      exact ⟨none, none, none⟩
    · intro i member m m' divided added
      simp only [ArenaProjection.validate, Bool.and_eq_true, List.all_eq_true] at valid
      exact addInstance_divided (valid.2 i member) divided added
  obtain ⟨R, planned⟩ := create_planned created
  obtain ⟨instances, layers, atnagents, ffnagents⟩ := create_counts created
  refine ⟨⟨instances.symm, ?_, ?_, ?_⟩, R, planned⟩
  · rw [layers]
    exact divided.layers
  · rw [atnagents]
    exact divided.atnagents
  · rw [ffnagents]
    exact divided.ffnagents

end Joined

/-! ## Safety -/

section Safety

variable {types tables l} {n : ArenaCounts} {R : Regions FabricRegion}

/-- The arrays of an accepted routing block are apart and inside what is published of
it. -/
theorem routingMetadata_views (planned : Planned types l R) {execution : LaneExecution} {lane payloadRowCapacity : Nat}
    {block : RoutingMetadataBlock}
    (found : l.routingMetadata types tables execution lane payloadRowCapacity = some block) :
    block.topkIds.Within block.publicationPayload ∧ block.topkWeights.Within block.publicationPayload ∧
      block.topkIds.Disjoint block.topkWeights := by
  have accepted := routingMetadata_accepted found
  have live := accepted.live
  have accessed : l.extent types tables ⟨fun _ => execution, fun _ => payloadRowCapacity⟩ (.routingMetadata lane) =
      some block.publicationPayload := by
    simp only [extent, found, Option.map_some]
  obtain ⟨listed, inside⟩ := extent_located planned _ _ (fun tabular => by cases tabular) accessed
  have inside := inside.trans (cells_within planned listed)
  obtain ⟨fits, bounded⟩ := planned.fits .routingMetadata
  have payload : block.publicationPayload = ⟨block.base, block.capacityElements * 8⟩ := by
    rw [RoutingMetadataBlock.publicationPayload, accepted.payload]
    rfl
  rw [payload] at inside ⊢
  simp only [Extent.Within, Extent.stop, Object.region, LayoutRegion.extent] at inside
  have weights : block.topkWeights = ⟨block.base + block.capacityElements * 4, block.liveElements * 4⟩ := by
    rw [RoutingMetadataBlock.topkWeights, wrap_eq (by omega : block.capacityElements * 4 < wordLimit), wrap_eq (by omega)]
  rw [weights, RoutingMetadataBlock.topkIds]
  simp only [Extent.Within, Extent.Disjoint, Extent.stop]
  omega

/-- The root is valid, its regions are as large as their objects, aligned, disjoint and
inside the arena, and the accessors give different objects different bytes of their
regions; for the objects that the Instance table places, if the tables are those of the
arena. -/
structure Safe (types : ArenaTypes) (l : ArenaLayout) (R : Regions FabricRegion) : Prop where
  validate : l.validate types
  total : l.header.totalBytes = R.totalBytes
  regions : R.Safe (l.spec types)
  offset : ∀ r, (R.region r).bytes ≠ 0 → l.offset r = (R.region r).offset
  sized : ∀ tables x, (R.region x.region).bytes = (l.cell types tables x).count * (l.cell types tables x).size
  within : ∀ tables lanes x e, (x.tabular → Consistent tables l) → l.extent types tables lanes x = some e →
    e.Within (R.region x.region).extent
  disjoint : ∀ tables lanes x y e f, x ≠ y → (x.tabular ∨ y.tabular → Consistent tables l) →
    l.extent types tables lanes x = some e → l.extent types tables lanes y = some f → e.Disjoint f
  views : ∀ tables execution lane payloadRowCapacity block,
    l.routingMetadata types tables execution lane payloadRowCapacity = some block →
      block.topkIds.Within block.publicationPayload ∧ block.topkWeights.Within block.publicationPayload ∧
        block.topkIds.Disjoint block.topkWeights

theorem Planned.safe (planned : Planned types l R) : l.Safe types R := by
  have safe := ArenaGeometry.regions_safe planned.regions
  refine ⟨planned.validate, ?_, safe, ?_, fun _ x => region_bytes safe x, ?_, ?_, ?_⟩
  · rw [planned.root]
    rfl
  · intro r used
    apply planned.offset_eq
    by_cases routes : l.routingMetadataStrideBytes = 0
    · right
      have none : l.routingLaneCount = 0 := if_pos routes
      constructor
      · rintro rfl
        apply used
        have bytes := @region_bytes types ⟨[], [], [], []⟩ l R safe (.routingMetadataReady 0)
        simp only [cell, none, Nat.zero_mul] at bytes
        exact bytes
      · rintro rfl
        apply used
        have bytes := @region_bytes types ⟨[], [], [], []⟩ l R safe (.routingMetadata 0)
        simp only [cell, none, Nat.zero_mul] at bytes
        exact bytes
    · exact .inl routes
  · intro tables lanes x e consistent accessed
    obtain ⟨listed, within⟩ := extent_located planned lanes x consistent accessed
    exact within.trans (cells_within planned listed)
  · intro tables lanes x y e f differs consistent accessed accessed'
    exact extents_disjoint planned lanes differs consistent accessed accessed'
  · intro tables execution lane payloadRowCapacity block found
    exact routingMetadata_views planned found

end Safety

end ArenaLayout

/-- Whatever the counts: an arena layout that is created is valid and safe, of the Fabric
and of Transport, and so are the tables and the layout that a participant joins with. -/
theorem arena_layouts_safe :
    (∀ types n l, ArenaLayout.create types n = some l →
      (∃ R, l.Safe types R) ∧ n.maximumLanePayloadBytes ≤ l.lanePayloadCapacityBytes ∧
        n.maximumRoutingMetadataElements * routingElementBytes ≤ l.routingMetadataStrideBytes) ∧
      (∀ types projection tables l, projection.validate → join types projection = some (tables, l) →
        (∃ R, l.Safe types R) ∧ ArenaLayout.Consistent tables l) ∧
        ∀ types g l, Transport.Storage.ArenaLayout.create types g = some l → ∃ R, l.Safe types R := by
  refine ⟨?_, ?_, ?_⟩
  · intro types n l created
    obtain ⟨R, planned⟩ := ArenaLayout.create_planned created
    exact ⟨⟨R, planned.safe⟩, ArenaLayout.create_capacities created⟩
  · intro types projection tables l valid joined
    obtain ⟨consistent, R, planned⟩ := ArenaLayout.join_consistent valid joined
    exact ⟨⟨R, planned.safe⟩, consistent⟩
  · intro types g l created
    exact Transport.Storage.ArenaLayout.create_safe created

/-- Sizes and alignments of the objects on a machine with words of eight bytes. -/
def wordTypes : ArenaTypes where
  arenaLayout := ⟨232, 8, by decide, by decide⟩
  arenaState := ⟨56, 8, by decide, by decide⟩
  instanceEntry := ⟨96, 8, by decide, by decide⟩
  layerEntry := ⟨24, 8, by decide, by decide⟩
  int := ⟨4, 4, by decide, by decide⟩
  submission := ⟨256, 256, by decide, by decide⟩
  admission := ⟨256, 256, by decide, by decide⟩
  laneExecution := ⟨256, 256, by decide, by decide⟩
  inputReady := ⟨256, 256, by decide, by decide⟩
  routingMetadataReady := ⟨256, 256, by decide, by decide⟩
  partialReady := ⟨256, 256, by decide, by decide⟩
  ffnagentCompletion := ⟨256, 256, by decide, by decide⟩
  outputCommit := ⟨256, 256, by decide, by decide⟩
  outputAcknowledgement := ⟨256, 256, by decide, by decide⟩

/-- Two ranks of an Instance with a dense and a routed layer. -/
def routedProjection : ArenaProjection where
  atnagentCount := 2
  ffnagentCount := 2
  executorLaneCount := 2
  lanePayloadCapacityBytes := 128
  instances :=
    [{ groupSumCompleteAdmitted := true
       hiddenSize := 8
       payloadRowBytes := 16
       decodePayloadRowCapacity := 4
       prefillPayloadRowCapacity := 7
       atnTpSize := 2
       atnDpSize := 1
       atnagentIndices := [0, 1]
       layers := [⟨.dense, 0, [0, 1]⟩, ⟨.moe, 2, [1, 0]⟩] }]

theorem routedProjection_joins : (join wordTypes routedProjection).isSome := by
  decide +kernel

theorem arena_layouts_safe_routedProjection :
    ∃ tables l, join wordTypes routedProjection = some (tables, l) ∧ (∃ R, l.Safe wordTypes R) ∧
      ArenaLayout.Consistent tables l := by
  obtain ⟨⟨tables, l⟩, joined⟩ := Option.isSome_iff_exists.mp routedProjection_joins
  exact ⟨tables, l, joined, arena_layouts_safe.2.1 wordTypes routedProjection tables l (by decide) joined⟩

end CrossPool.Fabric
