import CrossPool.Lib.Layout
import CrossPool.Fabric.Protocol

/-!
# Fabric arena layout

The host plans seventeen regions from the counts of one generation, stores their offsets
in the arena root, and checks a root by planning again. The routing regions are empty
where no layer routes, and their stored offsets are zero then.
-/

namespace CrossPool.Fabric

open CrossPool.Lib

/-- `xpool::arena::kAllocationAlignment` -/
def allocationAlignment : Nat :=
  256

/-- `xpool::arena::kPayloadAlignment` -/
def payloadAlignment : Nat :=
  16

/-- `kExecutorLanePayloadBufferCount` -/
def executorLanePayloadBufferCount : Nat :=
  2

/-- `kFabricArenaMagic` -/
def fabricArenaMagic : Nat :=
  0x3141464c4f4f5058

/-- `xpool::abi::kVersion` -/
def abiVersion : Nat :=
  93

/-- Bytes of one routing element: an expert identifier and its weight. -/
def routingElementBytes : Nat :=
  8

/-! ## Regions -/

/-- The types of the arena's objects; a publication is named by its record. -/
structure ArenaTypes where
  arenaLayout : ObjectType
  arenaState : ObjectType
  instanceEntry : ObjectType
  layerEntry : ObjectType
  int : ObjectType
  submission : ObjectType
  admission : ObjectType
  laneExecution : ObjectType
  inputReady : ObjectType
  routingMetadataReady : ObjectType
  partialReady : ObjectType
  ffnagentCompletion : ObjectType
  outputCommit : ObjectType
  outputAcknowledgement : ObjectType

/-- What the regions depend on. -/
structure ArenaGeometry where
  atnagentCount : Nat
  ffnagentCount : Nat
  instanceCount : Nat
  executorLaneCount : Nat
  layerEntryCount : Nat
  atnagentPeEntryCount : Nat
  ffnagentPeEntryCount : Nat
  lanePayloadCapacityBytes : Nat
  routingMetadataStrideBytes : Nat
deriving DecidableEq, Repr

/-- The regions in the order of the arena. -/
inductive FabricRegion where
  | layout
  | state
  | instanceEntries
  | layerEntries
  | atnagentPes
  | ffnagentPes
  | submissionPublications
  | admissionPublications
  | laneExecutionPublications
  | inputReadyPublications
  | routingMetadataReadyPublications
  | partialReadyPublications
  | ffnagentCompletionPublications
  | outputCommitPublications
  | outputAcknowledgementPublications
  | lanePayloadStorage
  | routingMetadata
deriving DecidableEq, Repr

namespace FabricRegion

def order : List FabricRegion :=
  [.layout, .state, .instanceEntries, .layerEntries, .atnagentPes, .ffnagentPes, .submissionPublications,
    .admissionPublications, .laneExecutionPublications, .inputReadyPublications, .routingMetadataReadyPublications,
    .partialReadyPublications, .ffnagentCompletionPublications, .outputCommitPublications,
    .outputAcknowledgementPublications, .lanePayloadStorage, .routingMetadata]

theorem mem_order (r : FabricRegion) : r ∈ order := by
  cases r <;> decide

end FabricRegion

namespace ArenaGeometry

open LayoutRegionSpec (array)

variable (types : ArenaTypes) (g : ArenaGeometry)

/-- Lanes with routing metadata. -/
def routingLaneCount : Nat :=
  if g.routingMetadataStrideBytes = 0 then 0 else g.executorLaneCount

/-- The specifications of `FabricArenaRegions`. -/
def spec : FabricRegion → Option LayoutRegionSpec
  | .layout => some (.object "Fabric arena layout" types.arenaLayout)
  | .state => some (.object "Fabric arena state" types.arenaState)
  | .instanceEntries => array "Fabric Instance entries" types.instanceEntry g.instanceCount
  | .layerEntries => array "Fabric layer entries" types.layerEntry g.layerEntryCount
  | .atnagentPes => array "AtnAgent PE entries" types.int g.atnagentPeEntryCount
  | .ffnagentPes => array "FfnAgent PE entries" types.int g.ffnagentPeEntryCount
  | .submissionPublications =>
    (checkedProd [g.atnagentCount, g.instanceCount]).bind (array "Submission publications" types.submission)
  | .admissionPublications => array "Admission publications" types.admission g.instanceCount
  | .laneExecutionPublications => array "Lane Execution publications" types.laneExecution g.executorLaneCount
  | .inputReadyPublications => array "Input Ready publications" types.inputReady g.executorLaneCount
  | .routingMetadataReadyPublications =>
    (checkedProd [g.routingLaneCount, types.routingMetadataReady.size]).map fun byteCount =>
      ⟨"Routing Metadata Ready publications", byteCount,
        if g.routingLaneCount = 0 then 1 else types.routingMetadataReady.alignment⟩
  | .partialReadyPublications =>
    (checkedProd [g.ffnagentCount, g.executorLaneCount]).bind (array "Partial Ready publications" types.partialReady)
  | .ffnagentCompletionPublications =>
    (checkedProd [g.ffnagentCount, g.executorLaneCount]).bind
      (array "FfnAgent Completion publications" types.ffnagentCompletion)
  | .outputCommitPublications => array "Output Commit publications" types.outputCommit g.instanceCount
  | .outputAcknowledgementPublications =>
    (checkedProd [g.atnagentCount, g.instanceCount]).bind
      (array "Output Acknowledgement publications" types.outputAcknowledgement)
  | .lanePayloadStorage =>
    (checkedProd [executorLanePayloadBufferCount, g.executorLaneCount, g.lanePayloadCapacityBytes]).map fun byteCount =>
      ⟨"Lane payload storage", byteCount, payloadAlignment⟩
  | .routingMetadata =>
    (checkedProd [g.routingLaneCount, g.routingMetadataStrideBytes]).map fun byteCount =>
      ⟨"Routing Metadata", byteCount, if g.routingLaneCount = 0 then 1 else payloadAlignment⟩

/-- `FabricArenaRegions`; `none` where it throws. -/
def regions : Option (Regions FabricRegion) :=
  Regions.create FabricRegion.order (g.spec types) allocationAlignment

variable {types g}

theorem regions_safe {R : Regions FabricRegion} (planned : g.regions types = some R) : R.Safe (g.spec types) :=
  Regions.create_safe FabricRegion.mem_order planned

end ArenaGeometry

/-! ## The arena root -/

/-- `LayoutHeader` -/
structure LayoutHeader where
  magic : Nat
  abiVersion : Nat
  layoutSize : Nat
  totalBytes : Nat
  stateOffset : Nat
deriving DecidableEq, Repr

/-- `ArenaLayout` -/
structure ArenaLayout extends ArenaGeometry where
  header : LayoutHeader
  instanceEntriesOffsetBytes : Nat
  layerEntriesOffsetBytes : Nat
  atnagentPesOffsetBytes : Nat
  ffnagentPesOffsetBytes : Nat
  submissionPublicationsOffsetBytes : Nat
  admissionPublicationsOffsetBytes : Nat
  laneExecutionPublicationsOffsetBytes : Nat
  inputReadyPublicationsOffsetBytes : Nat
  routingMetadataReadyPublicationsOffsetBytes : Nat
  partialReadyPublicationsOffsetBytes : Nat
  ffnagentCompletionPublicationsOffsetBytes : Nat
  outputCommitPublicationsOffsetBytes : Nat
  outputAcknowledgementPublicationsOffsetBytes : Nat
  lanePayloadStorageOffsetBytes : Nat
  routingMetadataOffsetBytes : Nat
deriving DecidableEq, Repr

/-- The arguments of `ArenaLayout::create`. -/
structure ArenaCounts where
  atnagentCount : Nat
  ffnagentCount : Nat
  instanceCount : Nat
  executorLaneCount : Nat
  layerEntryCount : Nat
  atnagentPeEntryCount : Nat
  ffnagentPeEntryCount : Nat
  maximumLanePayloadBytes : Nat
  maximumRoutingMetadataElements : Nat
deriving DecidableEq, Repr

namespace ArenaLayout

/-- The root over planned regions. -/
def ofRegions (types : ArenaTypes) (g : ArenaGeometry) (R : Regions FabricRegion) : ArenaLayout where
  toArenaGeometry := g
  header :=
    { magic := fabricArenaMagic
      abiVersion := abiVersion
      layoutSize := types.arenaLayout.size
      totalBytes := R.totalBytes
      stateOffset := (R.region .state).offset }
  instanceEntriesOffsetBytes := (R.region .instanceEntries).offset
  layerEntriesOffsetBytes := (R.region .layerEntries).offset
  atnagentPesOffsetBytes := (R.region .atnagentPes).offset
  ffnagentPesOffsetBytes := (R.region .ffnagentPes).offset
  submissionPublicationsOffsetBytes := (R.region .submissionPublications).offset
  admissionPublicationsOffsetBytes := (R.region .admissionPublications).offset
  laneExecutionPublicationsOffsetBytes := (R.region .laneExecutionPublications).offset
  inputReadyPublicationsOffsetBytes := (R.region .inputReadyPublications).offset
  routingMetadataReadyPublicationsOffsetBytes :=
    if g.routingMetadataStrideBytes = 0 then 0 else (R.region .routingMetadataReadyPublications).offset
  partialReadyPublicationsOffsetBytes := (R.region .partialReadyPublications).offset
  ffnagentCompletionPublicationsOffsetBytes := (R.region .ffnagentCompletionPublications).offset
  outputCommitPublicationsOffsetBytes := (R.region .outputCommitPublications).offset
  outputAcknowledgementPublicationsOffsetBytes := (R.region .outputAcknowledgementPublications).offset
  lanePayloadStorageOffsetBytes := (R.region .lanePayloadStorage).offset
  routingMetadataOffsetBytes := if g.routingMetadataStrideBytes = 0 then 0 else (R.region .routingMetadata).offset

/-- `ArenaLayout::create`; `none` where it throws. -/
def create (types : ArenaTypes) (n : ArenaCounts) : Option ArenaLayout :=
  if n.atnagentCount = 0 ∨ n.ffnagentCount = 0 ∨ n.instanceCount = 0 ∨ n.executorLaneCount = 0 ∨
      n.layerEntryCount = 0 ∨ n.atnagentPeEntryCount = 0 ∨ n.ffnagentPeEntryCount = 0 then none
  else
    (checkedSum n.atnagentCount [n.ffnagentCount]).bind fun participantCount =>
      if 2 ^ 31 - 1 < participantCount then none
      else if n.maximumLanePayloadBytes = 0 then none
      else
        (alignUp n.maximumLanePayloadBytes payloadAlignment).bind fun lanePayloadCapacityBytes =>
          (checkedProd [n.maximumRoutingMetadataElements, routingElementBytes]).bind fun routingMetadataBytes =>
            (if routingMetadataBytes = 0 then some 0 else alignUp routingMetadataBytes payloadAlignment).bind
              fun routingMetadataStrideBytes =>
                let g : ArenaGeometry :=
                  { atnagentCount := n.atnagentCount
                    ffnagentCount := n.ffnagentCount
                    instanceCount := n.instanceCount
                    executorLaneCount := n.executorLaneCount
                    layerEntryCount := n.layerEntryCount
                    atnagentPeEntryCount := n.atnagentPeEntryCount
                    ffnagentPeEntryCount := n.ffnagentPeEntryCount
                    lanePayloadCapacityBytes
                    routingMetadataStrideBytes }
                (g.regions types).map (ofRegions types g)

/-- `ArenaLayout::validate`; `false` where it throws. -/
def validate (types : ArenaTypes) (l : ArenaLayout) : Bool :=
  l.header.magic = fabricArenaMagic && l.header.abiVersion = abiVersion && l.header.layoutSize = types.arenaLayout.size &&
    (l.atnagentCount ≠ 0 && l.ffnagentCount ≠ 0 && l.instanceCount ≠ 0 && l.executorLaneCount ≠ 0 &&
      l.layerEntryCount ≠ 0 && l.atnagentPeEntryCount ≠ 0 && l.ffnagentPeEntryCount ≠ 0) &&
    (l.lanePayloadCapacityBytes ≠ 0 && l.lanePayloadCapacityBytes % payloadAlignment = 0 &&
      l.routingMetadataStrideBytes % payloadAlignment = 0) &&
    (l.regions types).any fun R =>
      l.header.totalBytes = R.totalBytes && l.header.stateOffset = (R.region .state).offset &&
        l.instanceEntriesOffsetBytes = (R.region .instanceEntries).offset &&
        l.layerEntriesOffsetBytes = (R.region .layerEntries).offset &&
        l.atnagentPesOffsetBytes = (R.region .atnagentPes).offset &&
        l.ffnagentPesOffsetBytes = (R.region .ffnagentPes).offset &&
        l.submissionPublicationsOffsetBytes = (R.region .submissionPublications).offset &&
        l.admissionPublicationsOffsetBytes = (R.region .admissionPublications).offset &&
        l.laneExecutionPublicationsOffsetBytes = (R.region .laneExecutionPublications).offset &&
        l.inputReadyPublicationsOffsetBytes = (R.region .inputReadyPublications).offset &&
        l.routingMetadataReadyPublicationsOffsetBytes =
          (if l.routingMetadataStrideBytes = 0 then 0 else (R.region .routingMetadataReadyPublications).offset) &&
        l.partialReadyPublicationsOffsetBytes = (R.region .partialReadyPublications).offset &&
        l.ffnagentCompletionPublicationsOffsetBytes = (R.region .ffnagentCompletionPublications).offset &&
        l.outputCommitPublicationsOffsetBytes = (R.region .outputCommitPublications).offset &&
        l.outputAcknowledgementPublicationsOffsetBytes = (R.region .outputAcknowledgementPublications).offset &&
        l.lanePayloadStorageOffsetBytes = (R.region .lanePayloadStorage).offset &&
        l.routingMetadataOffsetBytes =
          (if l.routingMetadataStrideBytes = 0 then 0 else (R.region .routingMetadata).offset)

/-- What `create` returns is the root over the regions of its own geometry. -/
structure Planned (types : ArenaTypes) (l : ArenaLayout) (R : Regions FabricRegion) : Prop where
  regions : l.regions types = some R
  root : l = ofRegions types l.toArenaGeometry R
  positive : l.atnagentCount ≠ 0 ∧ l.ffnagentCount ≠ 0 ∧ l.instanceCount ≠ 0 ∧ l.executorLaneCount ≠ 0 ∧
    l.layerEntryCount ≠ 0 ∧ l.atnagentPeEntryCount ≠ 0 ∧ l.ffnagentPeEntryCount ≠ 0
  capacity : l.lanePayloadCapacityBytes ≠ 0 ∧ payloadAlignment ∣ l.lanePayloadCapacityBytes
  stride : payloadAlignment ∣ l.routingMetadataStrideBytes

variable {types : ArenaTypes} {n : ArenaCounts} {l : ArenaLayout} {R : Regions FabricRegion}

/-- The root has the counts it was created for. -/
theorem create_counts (created : create types n = some l) :
    l.instanceCount = n.instanceCount ∧ l.layerEntryCount = n.layerEntryCount ∧
      l.atnagentPeEntryCount = n.atnagentPeEntryCount ∧ l.ffnagentPeEntryCount = n.ffnagentPeEntryCount := by
  unfold create at created
  split at created
  · cases created
  · obtain ⟨participantCount, -, created⟩ := Option.bind_eq_some_iff.mp created
    split at created
    · cases created
    · split at created
      · cases created
      · simp only [Option.bind_eq_some_iff, Option.map_eq_some_iff] at created
        obtain ⟨capacity, -, routingBytes, -, stride, -, R, -, rfl⟩ := created
        exact ⟨rfl, rfl, rfl, rfl⟩

/-- The capacities are rounded up. -/
theorem create_capacities (created : create types n = some l) :
    n.maximumLanePayloadBytes ≤ l.lanePayloadCapacityBytes ∧
      n.maximumRoutingMetadataElements * routingElementBytes ≤ l.routingMetadataStrideBytes := by
  unfold create at created
  split at created
  · cases created
  · obtain ⟨participantCount, -, created⟩ := Option.bind_eq_some_iff.mp created
    split at created
    · cases created
    · split at created
      · cases created
      · simp only [Option.bind_eq_some_iff, Option.map_eq_some_iff] at created
        obtain ⟨capacity, rounded, routingBytes, product, stride, strided, R, -, rfl⟩ := created
        refine ⟨(alignUp_eq_some rounded).1, ?_⟩
        have bytes := (checkedProd_eq_some product).1
        rw [List.prod_cons, List.prod_singleton] at bytes
        rw [← bytes]
        show routingBytes ≤ stride
        split at strided
        · rename_i none
          rw [none]
          exact Nat.zero_le _
        · exact (alignUp_eq_some strided).1

theorem create_planned (created : create types n = some l) : ∃ R, Planned types l R := by
  unfold create at created
  split at created
  · cases created
  · rename_i positive
    simp only [not_or] at positive
    obtain ⟨participantCount, -, created⟩ := Option.bind_eq_some_iff.mp created
    split at created
    · cases created
    · split at created
      · cases created
      · rename_i payload
        simp only [Option.bind_eq_some_iff, Option.map_eq_some_iff] at created
        obtain ⟨capacity, rounded, routingBytes, -, stride, strided, R, planned, rfl⟩ := created
        obtain ⟨grows, divides, -, -⟩ := alignUp_eq_some rounded
        refine ⟨R, planned, rfl, positive, ⟨?_, divides⟩, ?_⟩
        · show capacity ≠ 0
          omega
        · show payloadAlignment ∣ stride
          split at strided
          · cases strided
            exact Nat.dvd_zero _
          · exact (alignUp_eq_some strided).2.1

/-- The offsets that the root stores. -/
def offset (l : ArenaLayout) : FabricRegion → Nat
  | .layout => 0
  | .state => l.header.stateOffset
  | .instanceEntries => l.instanceEntriesOffsetBytes
  | .layerEntries => l.layerEntriesOffsetBytes
  | .atnagentPes => l.atnagentPesOffsetBytes
  | .ffnagentPes => l.ffnagentPesOffsetBytes
  | .submissionPublications => l.submissionPublicationsOffsetBytes
  | .admissionPublications => l.admissionPublicationsOffsetBytes
  | .laneExecutionPublications => l.laneExecutionPublicationsOffsetBytes
  | .inputReadyPublications => l.inputReadyPublicationsOffsetBytes
  | .routingMetadataReadyPublications => l.routingMetadataReadyPublicationsOffsetBytes
  | .partialReadyPublications => l.partialReadyPublicationsOffsetBytes
  | .ffnagentCompletionPublications => l.ffnagentCompletionPublicationsOffsetBytes
  | .outputCommitPublications => l.outputCommitPublicationsOffsetBytes
  | .outputAcknowledgementPublications => l.outputAcknowledgementPublicationsOffsetBytes
  | .lanePayloadStorage => l.lanePayloadStorageOffsetBytes
  | .routingMetadata => l.routingMetadataOffsetBytes

/-- The stored offset of a region is where it was planned, if the region is used. -/
theorem Planned.offset_eq (planned : Planned types l R) (r : FabricRegion)
    (used : l.routingMetadataStrideBytes ≠ 0 ∨ r ≠ .routingMetadataReadyPublications ∧ r ≠ .routingMetadata) :
    l.offset r = (R.region r).offset := by
  have root := planned.root
  cases r with
  | layout => exact (Regions.create_first planned.regions).symm
  | routingMetadataReadyPublications =>
    have routes := used.resolve_right fun other => other.1 rfl
    rw [root]
    exact if_neg routes
  | routingMetadata =>
    have routes := used.resolve_right fun other => other.2 rfl
    rw [root]
    exact if_neg routes
  | _ =>
    rw [root]
    rfl

theorem Planned.validate (planned : Planned types l R) : l.validate types := by
  have regions := planned.regions
  obtain ⟨atnagents, ffnagents, instances, lanes, layers, atnagentPes, ffnagentPes⟩ := planned.positive
  have capacity := planned.capacity.1
  have aligned := Nat.mod_eq_zero_of_dvd planned.capacity.2
  have strided := Nat.mod_eq_zero_of_dvd planned.stride
  rw [planned.root]
  simp [ArenaLayout.validate, ofRegions, regions, atnagents, ffnagents, instances, lanes, layers, atnagentPes, ffnagentPes,
    capacity, aligned, strided]
  exact ⟨decide_eq_true rfl, decide_eq_true rfl⟩

/-- A planned region lies in the arena. -/
theorem Planned.fits (planned : Planned types l R) (r : FabricRegion) :
    (R.region r).offset + (R.region r).bytes ≤ R.totalBytes ∧ R.totalBytes < wordLimit := by
  have safe := ArenaGeometry.regions_safe planned.regions
  exact ⟨safe.inside r, safe.bounded⟩

end ArenaLayout

end CrossPool.Fabric
