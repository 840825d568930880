import CrossPool.Control.Registration
import CrossPool.Lib.Rows
import CrossPool.Lib.Procedure

/-!
# Coordinates of the control channel

The policy numbers the capacity groups of all Instances and their partitions, the daemon
creates the channel with a directory of the groups, and every rank attaches with numbers it
computes itself. All of them follow the configuration, and no rank can attach with numbers
that are not its own or those of another rank.
-/

namespace CrossPool.Ecs.Coordinates

open CrossPool.Lib CrossPool.Control
open LayoutRegionSpec (array)

/-! ## The mapping -/

/-- An object of some words, of which there is one at least. -/
def wordsType (more : Nat) : ObjectType where
  size := 8 * (more + 1)
  alignment := 8
  size_pos := Nat.mul_pos (Nat.succ_pos 7) (Nat.succ_pos more)
  alignment_dvd := Nat.dvd_mul_right 8 (more + 1)

def controlChannelHeader : ObjectType :=
  wordsType 5

def deviceMemoryEntry : ObjectType :=
  wordsType 1

def groupEntryType : ObjectType :=
  wordsType 6

def partitionEntry : ObjectType :=
  wordsType 6

inductive ControlRegion where
  | header
  | devices
  | groups
  | partitions
deriving DecidableEq, Repr

/-- The specifications of `ControlChannelRegions`. -/
def ControlRegion.spec (deviceCount groupCount partitionCount : Nat) : ControlRegion → Option LayoutRegionSpec
  | .header => some (.object "elastic context state control channel header" controlChannelHeader)
  | .devices => array "elastic context state control device entries" deviceMemoryEntry deviceCount
  | .groups => array "elastic context state control group entries" groupEntryType groupCount
  | .partitions => array "elastic context state control partition entries" partitionEntry partitionCount

/-- `ControlChannelLayout` -/
structure ControlChannelLayout where
  deviceCount : Nat
  groupCount : Nat
  partitionCount : Nat
  devicesOffset : Nat
  groupsOffset : Nat
  partitionsOffset : Nat
  totalBytes : Nat
deriving DecidableEq, Repr

/-- `ControlChannelLayout::create`. -/
def ControlChannelLayout.create (deviceCount groupCount partitionCount : Nat) : Except String ControlChannelLayout := do
  if !(deviceCount ≠ 0 && groupCount ≠ 0 && partitionCount ≠ 0) then
    throw "xpool elastic context state channel counts must be positive"
  let spec := ControlRegion.spec deviceCount groupCount partitionCount
  match Regions.create [.header, .devices, .groups, .partitions] spec 8 with
  | none =>
    -- the sizes of all arrays come before any offset
    if [ControlRegion.devices, .groups, .partitions].any fun region => (spec region).isNone then
      throw "xpool checked integer product overflows result type"
    else throw "xpool checked integer sum overflows result type"
  | some regions =>
    if (regions.region .header).offset ≠ 0 then
      throw "xpool elastic context state control channel header must start at offset zero"
    return {
      deviceCount
      groupCount
      partitionCount
      devicesOffset := (regions.region .devices).offset
      groupsOffset := (regions.region .groups).offset
      partitionsOffset := (regions.region .partitions).offset
      totalBytes := regions.totalBytes }

/-- `ControlChannelHeader` -/
structure ControlChannelHeader where
  magic : Nat
  abiVersion : Nat
  reserved : Nat
  totalBytes : Nat
  deviceCount : Nat
  groupCount : Nat
  partitionCount : Nat
deriving DecidableEq, Repr

/-- `kControlChannelMagic` -/
def controlChannelMagic : Nat :=
  0x58504f4f4c4b5631

/-- The directory part of a group entry. -/
structure GroupEntry where
  firstPartition : Nat
  partitionCount : Nat
deriving DecidableEq, Repr

/-- Shared memory, as far as attaching reads it. -/
structure SharedMemory where
  bytes : Nat
  header : ControlChannelHeader
  groups : List GroupEntry
deriving DecidableEq, Repr

/-- `ControlChannelMapping` -/
structure ControlChannelMapping where
  memory : SharedMemory
  layout : ControlChannelLayout
deriving DecidableEq, Repr

/-- The loop that fills in the directory. -/
def groupEntries : Nat → List Nat → List GroupEntry
  | _, [] => []
  | firstPartition, count :: rest => ⟨firstPartition, count⟩ :: groupEntries (firstPartition + count) rest

/-- The loop that counts the partitions. -/
def countPartitions : Nat → List Nat → Except String Nat
  | partitionCount, [] => return partitionCount
  | partitionCount, count :: rest => do
    if !(count ≠ 0 && partitionCount + count < wordLimit) then
      throw "xpool elastic context state group partition count is invalid"
    countPartitions (partitionCount + count) rest

/-- `ControlChannelMapping::create`. -/
def ControlChannelMapping.create (abiVersion deviceCount : Nat) (groupPartitionCounts : List Nat) :
    Except String ControlChannelMapping := do
  let partitionCount ← countPartitions 0 groupPartitionCounts
  let layout ← ControlChannelLayout.create deviceCount groupPartitionCounts.length partitionCount
  return {
    layout
    memory := {
      bytes := layout.totalBytes
      header := ⟨controlChannelMagic, abiVersion, 0, layout.totalBytes, layout.deviceCount, layout.groupCount,
        layout.partitionCount⟩
      groups := groupEntries 0 groupPartitionCounts } }

/-- `ControlChannelLayout::validate`. -/
def ControlChannelLayout.validate (layout : ControlChannelLayout) (abiVersion : Nat) (header : ControlChannelHeader)
    (mappingBytes : Nat) : Except String Unit := do
  if header.magic ≠ controlChannelMagic then throw "xpool elastic context state channel magic does not match"
  if !(header.abiVersion = abiVersion && header.reserved = 0) then
    throw "xpool elastic context state channel ABI version does not match"
  if !(header.deviceCount = layout.deviceCount && header.groupCount = layout.groupCount &&
      header.partitionCount = layout.partitionCount && header.totalBytes = layout.totalBytes &&
      mappingBytes = layout.totalBytes) then
    throw "xpool elastic context state channel header does not match its canonical layout"

/-- The loop that checks the directory. -/
def checkDirectory (partitionCount : Nat) : Nat → List GroupEntry → Except String Nat
  | firstPartition, [] => return firstPartition
  | firstPartition, entry :: rest => do
    if !(entry.firstPartition = firstPartition && entry.partitionCount ≠ 0 &&
        entry.partitionCount ≤ partitionCount - firstPartition) then
      throw "xpool elastic context state channel group directory is invalid"
    checkDirectory partitionCount (firstPartition + entry.partitionCount) rest

/-- `ControlChannelMapping::attach`. -/
def ControlChannelMapping.attach (abiVersion : Nat) (memory : SharedMemory) : Except String ControlChannelMapping := do
  if memory.bytes < controlChannelHeader.size then
    throw "xpool elastic context state channel shared memory is truncated"
  let layout ← ControlChannelLayout.create memory.header.deviceCount memory.header.groupCount memory.header.partitionCount
  layout.validate abiVersion memory.header memory.bytes
  let firstPartition ← checkDirectory layout.partitionCount 0 memory.groups
  if firstPartition ≠ layout.partitionCount then
    throw "xpool elastic context state group directory does not cover partitions"
  return ⟨memory, layout⟩

/-! ## The rank's channel -/

/-- `InstanceControlChannel` -/
structure InstanceControlChannel where
  mapping : ControlChannelMapping
  groupIndex : Nat
  groupRowBegin : Nat
  dpGroupCount : Nat
  partitionIndex : Nat
deriving DecidableEq, Repr

/-- The scan back to the first group of an Instance. -/
def scanRowBegin (groups : List GroupEntry) (deviceCount instanceIndex : Nat) : Nat → Nat
  | 0 => 0
  | group + 1 =>
    if (groups[group]?.map (·.firstPartition / deviceCount)) = some instanceIndex then
      scanRowBegin groups deviceCount instanceIndex group
    else group + 1

/-- `InstanceControlChannel::attach`. -/
def InstanceControlChannel.attach (abiVersion : Nat) (memory : SharedMemory) (groupIndex partitionIndex dpGroupCount : Nat) :
    Except String InstanceControlChannel := do
  let mapping ← ControlChannelMapping.attach abiVersion memory
  let layout := mapping.layout
  if !(dpGroupCount ≠ 0 && dpGroupCount ≤ layout.deviceCount && layout.deviceCount % dpGroupCount = 0) then
    throw "xpool elastic context state instance DP group count is invalid"
  if !(groupIndex < layout.groupCount && partitionIndex < layout.partitionCount) then
    throw "xpool elastic context state instance slot index is out of range"
  let groups := mapping.memory.groups
  let instanceIndex := partitionIndex / layout.deviceCount
  let rowBegin := scanRowBegin groups layout.deviceCount instanceIndex groupIndex
  if !(groups[groupIndex]?.map (·.firstPartition / layout.deviceCount) = some instanceIndex &&
      groups[rowBegin]?.map (·.firstPartition) = some (instanceIndex * layout.deviceCount) &&
      rowBegin + dpGroupCount ≤ layout.groupCount) then
    throw "xpool elastic context state group directory does not describe the instance row"
  let tpSize := layout.deviceCount / dpGroupCount
  if !(List.range dpGroupCount).all fun offset =>
      groups[rowBegin + offset]? = some ⟨instanceIndex * layout.deviceCount + offset * tpSize, tpSize⟩ then
    throw "xpool elastic context state group directory differs from instance TP/DP geometry"
  if !(groups[groupIndex]?.any fun group =>
      group.firstPartition ≤ partitionIndex && partitionIndex < group.firstPartition + group.partitionCount) then
    throw "xpool elastic context state partition slot is outside its Capacity Group"
  return ⟨mapping, groupIndex, rowBegin, dpGroupCount, partitionIndex⟩

/-! ## The policy's numbers -/

section Policy

variable {Doc : Type}

/-- The partition counts of the groups, in TP-fastest order. -/
def groupPartitionCounts (config : Config) : List Nat :=
  config.instances.flatMap fun modelId => List.replicate (config.atnDpSize modelId) (config.atnTpSizeOf modelId)

/-- The channel of `CapacityPolicy.create`. -/
def createChannel (config : Config) : Except String ControlChannelMapping :=
  ControlChannelMapping.create config.abiVersion config.atnWorldSize (groupPartitionCounts config)

/-- `capacity_groups`: group index, Instance index and DP rank. -/
def capacityGroups (plans : List (FabricInstancePlan Doc)) : List (Nat × Nat × Nat) :=
  let ranks := plans.zipIdx.flatMap fun (plan, instanceIndex) => (List.range plan.atnDpSize).map fun dpRank => (instanceIndex, dpRank)
  ranks.zipIdx.map fun ((instanceIndex, dpRank), groupIndex) => (groupIndex, instanceIndex, dpRank)

/-- The ranks of `group_profiles`. -/
def groupRanks (plans : List (FabricInstancePlan Doc)) (instanceIndex dpRank : Nat) : List Nat :=
  let tpSize := (plans[instanceIndex]?.map (·.atnTpSize)).getD 0
  List.range' (dpRank * tpSize) tpSize

/-- `group_partition_indices`. -/
def groupPartitionIndices (config : Config) (plans : List (FabricInstancePlan Doc)) (instanceIndex dpRank : Nat) : List Nat :=
  let width := (plans[instanceIndex]?.map (·.atnTpSize)).getD 0
  let row := instanceIndex * config.atnWorldSize
  (List.range width).map fun rank => row + dpRank * width + rank

end Policy

/-- What a rank of an Instance attaches with. -/
structure RankCoordinates where
  instanceIndex : Nat
  workerRank : Nat
  atnTpRank : Nat
  atnDpRank : Nat
deriving DecidableEq, Repr

namespace RankCoordinates

variable (config : Config) (rank : RankCoordinates)

/-- The `group_index` of `CapacityReconciler.attach`. -/
def groupIndex : Nat :=
  ((config.instances.take rank.instanceIndex).map config.atnDpSize).sum + rank.atnDpRank

/-- The `partition_index` of `CapacityReconciler.attach`. -/
def partitionIndex : Nat :=
  rank.instanceIndex * config.atnWorldSize + rank.workerRank

/-- A rank of a configured Instance, as its binding and its registration check it. -/
structure Bound (modelId : String) : Prop where
  configured : config.instances[rank.instanceIndex]? = some modelId
  worker : rank.workerRank < config.atnWorldSize
  tpRank : rank.atnTpRank < config.atnTpSizeOf modelId
  tpFastest : rank.workerRank = rank.atnDpRank * config.atnTpSizeOf modelId + rank.atnTpRank

end RankCoordinates

/-! ## The directory -/

section Directory

variable {config : Config} {items : List String} {first : Nat}

/-- The attention World of every configured model is its TP times its DP. -/
structure Accepted (config : Config) : Prop where
  instances : config.instances ≠ []
  world : 0 < config.atnWorldSize
  covers : ∀ modelId ∈ config.instances, config.atnTpSizeOf modelId * config.atnDpSize modelId = config.atnWorldSize

/-- The group of a DP rank of an Instance. -/
def entryOf (config : Config) (instanceIndex : Nat) (modelId : String) (dpRank : Nat) : GroupEntry :=
  ⟨instanceIndex * config.atnWorldSize + dpRank * config.atnTpSizeOf modelId, config.atnTpSizeOf modelId⟩

theorem groupEntries_replicate (start number count : Nat) (rest : List Nat) :
    groupEntries start (List.replicate number count ++ rest) =
      (List.range number).map (fun k => ⟨start + k * count, count⟩) ++ groupEntries (start + number * count) rest := by
  induction number generalizing start with
  | zero => simp
  | succ number ih =>
    rw [List.replicate_succ, List.cons_append, groupEntries, ih, List.range_succ_eq_map, List.map_cons, List.map_map,
      List.cons_append, Nat.zero_mul, Nat.add_zero, Nat.succ_mul, Nat.add_assoc, Nat.add_comm count]
    congr 2
    apply List.map_congr_left
    intro k _
    rw [Function.comp_apply, Nat.succ_mul, Nat.add_assoc, Nat.add_comm count]

/-- The directory has a row of groups for each Instance. -/
theorem groupEntries_eq (covers : ∀ modelId ∈ items, config.atnTpSizeOf modelId * config.atnDpSize modelId = config.atnWorldSize) :
    groupEntries (first * config.atnWorldSize)
        (items.flatMap fun modelId => List.replicate (config.atnDpSize modelId) (config.atnTpSizeOf modelId)) =
      rows config.atnDpSize (entryOf config) first items := by
  induction items generalizing first with
  | nil => rfl
  | cons modelId rest ih =>
    have row : first * config.atnWorldSize + config.atnDpSize modelId * config.atnTpSizeOf modelId =
        (first + 1) * config.atnWorldSize := by
      rw [Nat.mul_comm (config.atnDpSize modelId), covers modelId List.mem_cons_self, Nat.succ_mul]
    rw [List.flatMap_cons, groupEntries_replicate, row, ih fun other listed => covers other (List.mem_cons_of_mem _ listed), rows]
    rfl

theorem countPartitions_eq_ok {start total : Nat} {counts : List Nat} (returned : countPartitions start counts = .ok total) :
    total = start + counts.sum ∧ ∀ count ∈ counts, count ≠ 0 := by
  induction counts generalizing start with
  | nil =>
    obtain rfl := Except.ok.inj returned
    exact ⟨rfl, by simp⟩
  | cons count rest ih =>
    rw [countPartitions] at returned
    split at returned
    · cases returned
    next small =>
    simp only [Bool.not_eq_true', Bool.not_eq_false, Bool.and_eq_true, decide_eq_true_eq] at small
    obtain ⟨is, positive⟩ := ih returned
    refine ⟨by rw [is, List.sum_cons, Nat.add_assoc], ?_⟩
    intro other listed
    rcases List.mem_cons.mp listed with rfl | later
    · exact small.1
    · exact positive other later

/-- A directory that was filled in passes the check. -/
theorem checkDirectory_groupEntries {start total : Nat} {counts : List Nat} (positive : ∀ count ∈ counts, count ≠ 0)
    (sum : start + counts.sum = total) : checkDirectory total start (groupEntries start counts) = .ok total := by
  induction counts generalizing start with
  | nil =>
    rw [List.sum_nil, Nat.add_zero] at sum
    rw [← sum]
    rfl
  | cons count rest ih =>
    rw [List.sum_cons] at sum
    have own := positive count List.mem_cons_self
    have fits : count ≤ total - start := by omega
    rw [groupEntries, checkDirectory]
    simp only [own, fits, decide_true, ne_eq, not_false_eq_true, Bool.and_self, Bool.not_true, Bool.false_eq_true, if_false]
    exact ih (fun other listed => positive other (List.mem_cons_of_mem _ listed)) (by omega)

theorem layout_create_eq_ok {deviceCount groupCount partitionCount : Nat} {layout : ControlChannelLayout}
    (returned : ControlChannelLayout.create deviceCount groupCount partitionCount = .ok layout) :
    layout.deviceCount = deviceCount ∧ layout.groupCount = groupCount ∧ layout.partitionCount = partitionCount ∧
      controlChannelHeader.size ≤ layout.totalBytes := by
  rw [ControlChannelLayout.create] at returned
  split at returned
  · cases returned
  · dsimp only at returned
    split at returned
    · split at returned
      · cases returned
      · cases returned
    next regions created =>
    split at returned
    · cases returned
    · obtain rfl := Except.ok.inj returned
      refine ⟨rfl, rfl, rfl, ?_⟩
      have safe := Regions.create_safe (by intro i; cases i <;> decide) created
      have inside := safe.inside .header
      have header := Option.some.inj (safe.specified .header)
      have bytes : (regions.region .header).bytes = controlChannelHeader.size := by
        rw [LayoutRegion.spec, LayoutRegionSpec.object, LayoutRegionSpec.mk.injEq] at header
        exact header.2.1.symm
      rw [Extent.stop, LayoutRegion.extent, bytes] at inside
      exact Nat.le_trans (Nat.le_add_left _ _) inside

/-- What a created mapping holds. -/
structure Created (config : Config) (mapping : ControlChannelMapping) : Prop where
  attaches : ControlChannelMapping.attach config.abiVersion mapping.memory = .ok mapping
  deviceCount : mapping.layout.deviceCount = config.atnWorldSize
  groupCount : mapping.layout.groupCount = (config.instances.map config.atnDpSize).sum
  partitionCount : mapping.layout.partitionCount = config.instances.length * config.atnWorldSize
  groups : mapping.memory.groups = rows config.atnDpSize (entryOf config) 0 config.instances

theorem sum_groupPartitionCounts (covers : ∀ modelId ∈ items,
      config.atnTpSizeOf modelId * config.atnDpSize modelId = config.atnWorldSize) :
    (items.flatMap fun modelId => List.replicate (config.atnDpSize modelId) (config.atnTpSizeOf modelId)).sum =
      items.length * config.atnWorldSize := by
  induction items with
  | nil => simp
  | cons modelId rest ih =>
    rw [List.flatMap_cons, List.sum_append, ih fun other listed => covers other (List.mem_cons_of_mem _ listed),
      List.sum_replicate_nat, Nat.mul_comm, covers modelId List.mem_cons_self, List.length_cons, Nat.succ_mul,
      Nat.add_comm]

theorem length_groupPartitionCounts : (groupPartitionCounts config).length = (config.instances.map config.atnDpSize).sum := by
  rw [groupPartitionCounts, List.length_flatMap]
  congr 1
  apply List.map_congr_left
  intro modelId _
  exact List.length_replicate

theorem validate_self (layout : ControlChannelLayout) (abiVersion : Nat) :
    layout.validate abiVersion ⟨controlChannelMagic, abiVersion, 0, layout.totalBytes, layout.deviceCount, layout.groupCount,
      layout.partitionCount⟩ layout.totalBytes = .ok () := by
  simp [ControlChannelLayout.validate]
  rfl

/-- The channel that is created can be attached, and its directory has a row for each Instance. -/
theorem createChannel_created {mapping : ControlChannelMapping} (accepted : Accepted config)
    (returned : createChannel config = .ok mapping) : Created config mapping := by
  rw [createChannel, ControlChannelMapping.create] at returned
  obtain ⟨partitionCount, counted, returned⟩ := bind_eq_ok.mp returned
  obtain ⟨layout, laid, returned⟩ := bind_eq_ok.mp returned
  obtain rfl := Except.ok.inj returned
  obtain ⟨total, positive⟩ := countPartitions_eq_ok counted
  obtain ⟨devices, groups, partitions, header⟩ := layout_create_eq_ok laid
  have directory := @groupEntries_eq config config.instances 0 accepted.covers
  rw [Nat.zero_mul] at directory
  refine ⟨?_, devices, ?_, ?_, directory⟩
  · rw [ControlChannelMapping.attach]
    dsimp only
    rw [if_neg (Nat.not_lt.mpr header)]
    have again : ControlChannelLayout.create layout.deviceCount layout.groupCount layout.partitionCount = .ok layout := by
      rw [devices, groups, partitions]
      exact laid
    have checked := checkDirectory_groupEntries positive total.symm
    rw [← partitions] at checked
    refine bind_eq_ok.mpr ⟨layout, again, bind_eq_ok.mpr ⟨(), validate_self _ _, bind_eq_ok.mpr ⟨_, checked, ?_⟩⟩⟩
    rw [if_neg (not_not.mpr rfl)]
    rfl
  · rw [groups, length_groupPartitionCounts]
  · rw [partitions, total, Nat.zero_add, groupPartitionCounts,
      sum_groupPartitionCounts accepted.covers]

end Directory

/-! ## Attaching -/

section Attach

variable {config : Config} {mapping : ControlChannelMapping} {instanceIndex dpRank : Nat} {modelId : String}

theorem tpSize_pos (accepted : Accepted config) (configured : config.instances[instanceIndex]? = some modelId) :
    0 < config.atnTpSizeOf modelId := by
  have world := accepted.world
  rw [← accepted.covers modelId (List.mem_of_getElem? configured)] at world
  exact Nat.pos_of_mul_pos_right world

/-- The partitions of a DP rank lie in the row of its Instance. -/
theorem dpRank_row (accepted : Accepted config) (configured : config.instances[instanceIndex]? = some modelId)
    (inside : dpRank < config.atnDpSize modelId) :
    dpRank * config.atnTpSizeOf modelId + config.atnTpSizeOf modelId ≤ config.atnWorldSize := by
  rw [← accepted.covers modelId (List.mem_of_getElem? configured), ← Nat.succ_mul, Nat.mul_comm (config.atnTpSizeOf modelId)]
  exact Nat.mul_le_mul_right _ inside

theorem firstPartition_div (accepted : Accepted config) (configured : config.instances[instanceIndex]? = some modelId)
    (inside : dpRank < config.atnDpSize modelId) :
    (entryOf config instanceIndex modelId dpRank).firstPartition / config.atnWorldSize = instanceIndex := by
  have row := dpRank_row accepted configured inside
  have positive := tpSize_pos accepted configured
  rw [entryOf, Nat.add_comm, Nat.add_mul_div_right _ _ accepted.world, Nat.div_eq_of_lt (by omega), Nat.zero_add]

section Ranks

variable {rank rank' : RankCoordinates} {modelId' : String}

theorem RankCoordinates.Bound.dpRank_lt (bound : rank.Bound config modelId) (accepted : Accepted config) :
    rank.atnDpRank < config.atnDpSize modelId := by
  have worker := bound.worker
  rw [bound.tpFastest, ← accepted.covers modelId (List.mem_of_getElem? bound.configured),
    Nat.mul_comm (config.atnTpSizeOf modelId)] at worker
  exact Nat.lt_of_mul_lt_mul_right (Nat.lt_of_le_of_lt (Nat.le_add_right _ _) worker)

theorem RankCoordinates.Bound.partitionIndex_lt (bound : rank.Bound config modelId) :
    rank.partitionIndex config < config.instances.length * config.atnWorldSize :=
  row_index_lt (List.getElem?_eq_some_iff.mp bound.configured).1 bound.worker

/-- Every partition is that of a rank. -/
theorem exists_bound (accepted : Accepted config) {partition : Nat}
    (small : partition < config.instances.length * config.atnWorldSize) :
    ∃ rank : RankCoordinates, ∃ modelId, rank.Bound config modelId ∧ rank.partitionIndex config = partition := by
  have row : partition / config.atnWorldSize < config.instances.length := by
    rw [Nat.div_lt_iff_lt_mul accepted.world]
    exact small
  have configured := List.getElem?_eq_getElem row
  have positive := tpSize_pos accepted configured
  have whole := Nat.div_add_mod partition config.atnWorldSize
  have own := Nat.div_add_mod (partition % config.atnWorldSize) (config.atnTpSizeOf config.instances[partition / config.atnWorldSize])
  rw [Nat.mul_comm] at whole own
  exact ⟨⟨_, _, _, _⟩, _, ⟨configured, Nat.mod_lt _ accepted.world, Nat.mod_lt _ positive, own.symm⟩, whole⟩

/-- No two ranks have one partition. -/
theorem RankCoordinates.Bound.inj (bound : rank.Bound config modelId) (bound' : rank'.Bound config modelId')
    (same : rank.partitionIndex config = rank'.partitionIndex config) : rank = rank' := by
  obtain ⟨instances, workers⟩ := row_index_inj bound.worker bound'.worker same
  obtain rfl : modelId = modelId' :=
    Option.some.inj (bound.configured.symm.trans ((congrArg (config.instances[·]?) instances).trans bound'.configured))
  have ranks := bound.tpFastest.symm.trans (workers.trans bound'.tpFastest)
  obtain ⟨dpRanks, tpRanks⟩ := row_index_inj bound.tpRank bound'.tpRank ranks
  obtain ⟨i, worker, tpRank, dpRank⟩ := rank
  dsimp only at instances workers dpRanks tpRanks
  rw [instances, workers, dpRanks, tpRanks]

end Ranks

theorem Created.group (created : Created config mapping) (configured : config.instances[instanceIndex]? = some modelId)
    (inside : dpRank < config.atnDpSize modelId) :
    mapping.memory.groups[rowStart config.atnDpSize config.instances instanceIndex + dpRank]? =
      some (entryOf config instanceIndex modelId dpRank) := by
  rw [created.groups, getElem?_rows configured inside, Nat.zero_add]

theorem Created.exists_group (created : Created config mapping) {group : Nat} {entry : GroupEntry}
    (found : mapping.memory.groups[group]? = some entry) :
    ∃ instanceIndex modelId dpRank, config.instances[instanceIndex]? = some modelId ∧ dpRank < config.atnDpSize modelId ∧
      group = rowStart config.atnDpSize config.instances instanceIndex + dpRank ∧
      entry = entryOf config instanceIndex modelId dpRank := by
  rw [created.groups] at found
  obtain ⟨instanceIndex, modelId, dpRank, configured, inside, is, value⟩ := exists_of_getElem?_rows found
  rw [Nat.zero_add] at value
  exact ⟨instanceIndex, modelId, dpRank, configured, inside, is, value⟩

/-- The scan stops at the first group of the Instance. -/
theorem Created.scanRowBegin (accepted : Accepted config) (created : Created config mapping)
    (configured : config.instances[instanceIndex]? = some modelId) (inside : dpRank < config.atnDpSize modelId) :
    scanRowBegin mapping.memory.groups config.atnWorldSize instanceIndex
        (rowStart config.atnDpSize config.instances instanceIndex + dpRank) =
      rowStart config.atnDpSize config.instances instanceIndex := by
  induction dpRank with
  | zero =>
    rw [Nat.add_zero]
    have start := created.group configured inside
    rw [Nat.add_zero] at start
    generalize is : rowStart config.atnDpSize config.instances instanceIndex = begins at start
    cases begins with
    | zero => rfl
    | succ group =>
      have small : group < mapping.memory.groups.length := Nat.lt_of_succ_lt (List.getElem?_eq_some_iff.mp start).1
      have found := List.getElem?_eq_getElem small
      obtain ⟨other, modelId', dpRank, configured', inside', place, value⟩ := created.exists_group found
      have differs : other ≠ instanceIndex := by
        rintro rfl
        omega
      rw [Coordinates.scanRowBegin, found, value, Option.map_some, firstPartition_div accepted configured' inside', if_neg]
      simpa using differs
  | succ dpRank ih =>
    have before : dpRank < config.atnDpSize modelId := Nat.lt_of_succ_lt inside
    rw [← Nat.add_assoc, Coordinates.scanRowBegin, created.group configured before, Option.map_some,
      firstPartition_div accepted configured before, if_pos rfl]
    exact ih before

/-- A rank attaches with its own coordinates. -/
theorem attach_of_bound (accepted : Accepted config) (created : Created config mapping) {rank : RankCoordinates}
    (bound : rank.Bound config modelId) :
    InstanceControlChannel.attach config.abiVersion mapping.memory (rank.groupIndex config) (rank.partitionIndex config)
        (config.atnDpSize modelId) =
      .ok ⟨mapping, rank.groupIndex config, rowStart config.atnDpSize config.instances rank.instanceIndex,
        config.atnDpSize modelId, rank.partitionIndex config⟩ := by
  have covers := accepted.covers modelId (List.mem_of_getElem? bound.configured)
  have positive := tpSize_pos accepted bound.configured
  have world := accepted.world
  have inside : rank.atnDpRank < config.atnDpSize modelId := by
    have worker := bound.worker
    rw [bound.tpFastest, ← covers, Nat.mul_comm (config.atnTpSizeOf modelId)] at worker
    exact Nat.lt_of_mul_lt_mul_right (Nat.lt_of_le_of_lt (Nat.le_add_right _ _) worker)
  have dpSize : 0 < config.atnDpSize modelId := by omega
  have group := created.group bound.configured inside
  have index : rank.groupIndex config = rowStart config.atnDpSize config.instances rank.instanceIndex + rank.atnDpRank := rfl
  have slot : rank.partitionIndex config / config.atnWorldSize = rank.instanceIndex := by
    rw [RankCoordinates.partitionIndex, Nat.add_comm, Nat.add_mul_div_right _ _ world, Nat.div_eq_of_lt bound.worker,
      Nat.zero_add]
  have width : config.atnWorldSize / config.atnDpSize modelId = config.atnTpSizeOf modelId := by
    rw [← covers, Nat.mul_div_cancel _ dpSize]
  have listed : rank.instanceIndex < config.instances.length := (List.getElem?_eq_some_iff.mp bound.configured).1
  have slots : rank.partitionIndex config < config.instances.length * config.atnWorldSize :=
    row_index_lt listed bound.worker
  have groupSmall : rank.groupIndex config < (config.instances.map config.atnDpSize).sum := by
    have small := (List.getElem?_eq_some_iff.mp group).1
    rwa [created.groups, length_rows] at small
  have rowEnd : rowStart config.atnDpSize config.instances rank.instanceIndex + config.atnDpSize modelId ≤
      (config.instances.map config.atnDpSize).sum := by
    have last := created.group bound.configured (Nat.sub_lt dpSize Nat.one_pos)
    have small := (List.getElem?_eq_some_iff.mp last).1
    rw [created.groups, length_rows] at small
    omega
  have dpDivides : config.atnWorldSize % config.atnDpSize modelId = 0 := by
    rw [← covers, Nat.mul_mod_left]
  have dpSmall : config.atnDpSize modelId ≤ config.atnWorldSize := by
    rw [← covers]
    exact Nat.le_mul_of_pos_left _ positive
  rw [InstanceControlChannel.attach]
  refine bind_eq_ok.mpr ⟨mapping, created.attaches, ?_⟩
  dsimp only
  rw [created.deviceCount, created.groupCount, created.partitionCount, slot, index, created.scanRowBegin accepted bound.configured
    inside, group, width]
  rw [if_neg, if_neg, if_neg, if_neg, if_neg]
  · rfl
  · simp only [Option.any_some, entryOf, Bool.not_eq_true', Bool.not_eq_false, Bool.and_eq_true, decide_eq_true_eq]
    have tpFastest := bound.tpFastest
    have tpRank := bound.tpRank
    rw [RankCoordinates.partitionIndex]
    omega
  · simp only [Bool.not_eq_true', Bool.not_eq_false, List.all_eq_true, List.mem_range, decide_eq_true_eq]
    intro offset small
    exact created.group bound.configured small
  · have start := created.group bound.configured dpSize
    rw [Nat.add_zero] at start
    rw [start, Option.map_some, Option.map_some, firstPartition_div accepted bound.configured inside]
    simp only [entryOf, Nat.zero_mul, Nat.add_zero, Bool.not_eq_true', Bool.not_eq_false, Bool.and_eq_true, decide_eq_true_eq]
    exact ⟨⟨trivial, trivial⟩, rowEnd⟩
  · simp only [Bool.not_eq_true', Bool.not_eq_false, Bool.and_eq_true, decide_eq_true_eq]
    exact ⟨groupSmall, slots⟩
  · simp only [Bool.not_eq_true', Bool.not_eq_false, Bool.and_eq_true, decide_eq_true_eq]
    exact ⟨⟨Nat.pos_iff_ne_zero.mp dpSize, dpSmall⟩, dpDivides⟩

/-- Only the coordinates of a rank attach. -/
theorem bound_of_attach (accepted : Accepted config) (created : Created config mapping) {groupIndex partitionIndex dpGroupCount : Nat}
    {channel : InstanceControlChannel}
    (returned : InstanceControlChannel.attach config.abiVersion mapping.memory groupIndex partitionIndex dpGroupCount = .ok channel) :
    ∃ rank : RankCoordinates, ∃ modelId, rank.Bound config modelId ∧ groupIndex = rank.groupIndex config ∧
      partitionIndex = rank.partitionIndex config ∧ dpGroupCount = config.atnDpSize modelId := by
  rw [InstanceControlChannel.attach] at returned
  obtain ⟨mapping', attached, returned⟩ := bind_eq_ok.mp returned
  obtain rfl := Except.ok.inj (created.attaches.symm.trans attached)
  dsimp only at returned
  rw [created.deviceCount, created.groupCount, created.partitionCount] at returned
  split at returned
  · cases returned
  next divides =>
  split at returned
  · cases returned
  next small =>
  split at returned
  · cases returned
  next row =>
  split at returned
  · cases returned
  next shape =>
  split at returned
  · cases returned
  next own =>
  clear returned
  simp only [Bool.not_eq_true', Bool.not_eq_false, Bool.and_eq_true, decide_eq_true_eq] at divides small row
  simp only [Bool.not_eq_true', Bool.not_eq_false, List.all_eq_true, List.mem_range, decide_eq_true_eq] at shape
  have listed : groupIndex < mapping.memory.groups.length := by
    rw [created.groups, length_rows]
    exact small.1
  have found := List.getElem?_eq_getElem listed
  obtain ⟨instanceIndex, modelId, dpRank, configured, inside, place, value⟩ := created.exists_group found
  have positive := tpSize_pos accepted configured
  have covers := accepted.covers modelId (List.mem_of_getElem? configured)
  have instance' : partitionIndex / config.atnWorldSize = instanceIndex := by
    have same := row.1.1
    rw [found, value, Option.map_some, firstPartition_div accepted configured inside] at same
    exact (Option.some.inj same).symm
  subst instance'
  rw [place, created.scanRowBegin accepted configured inside] at shape
  have start := created.group configured (Nat.lt_of_le_of_lt (Nat.zero_le dpRank) inside)
  have first := shape 0 (Nat.pos_of_ne_zero divides.1.1)
  rw [start] at first
  have width : config.atnTpSizeOf modelId = config.atnWorldSize / dpGroupCount :=
    congrArg GroupEntry.partitionCount (Option.some.inj first)
  have sizes : dpGroupCount = config.atnDpSize modelId := by
    have product := Nat.div_mul_cancel (Nat.dvd_of_mod_eq_zero divides.2)
    rw [← width, ← covers] at product
    exact Nat.eq_of_mul_eq_mul_left positive product
  rw [found, value, Option.any_some] at own
  rw [Bool.not_eq_true, Bool.not_eq_false', Bool.and_eq_true, decide_eq_true_eq, decide_eq_true_eq] at own
  dsimp only [entryOf] at own
  have whole := Nat.div_add_mod partitionIndex config.atnWorldSize
  rw [Nat.mul_comm] at whole
  have ends := dpRank_row accepted configured inside
  refine ⟨⟨partitionIndex / config.atnWorldSize, partitionIndex % config.atnWorldSize,
    partitionIndex % config.atnWorldSize - dpRank * config.atnTpSizeOf modelId, dpRank⟩, modelId, ⟨configured, ?_, ?_, ?_⟩,
    place, whole.symm, sizes⟩
  · exact Nat.mod_lt _ accepted.world
  · dsimp only
    omega
  · dsimp only
    omega

end Attach

/-! ## The policy -/

section Plans

variable {Doc : Type} {config : Config} {book : Control.RegistrationBook Doc} {mapping : ControlChannelMapping}
  {plans : List (FabricInstancePlan Doc)} {owners : List (InstanceRankId × ProcUniqId)}

/-- A plan that is captured has the sizes of its configured model. -/
theorem captureInstance_sizes [DecidableEq Doc] {modelId : String} {captured : FabricInstancePlan Doc × List (InstanceRankId × ProcUniqId)}
    (returned : FabricMembership.captureInstance config book modelId = .ok (some captured)) :
    (captured.1.atnTpSize, captured.1.atnDpSize) = (config.atnTpSizeOf modelId, config.atnDpSize modelId) := by
  rw [FabricMembership.captureInstance] at returned
  dsimp only at returned
  split at returned
  · cases returned
  · cases returned
  · split at returned
    · cases returned
    · split at returned
      · cases returned
      · obtain rfl := Option.some.inj (Except.ok.inj returned)
        rfl

theorem captureInstances_sizes [DecidableEq Doc] {items : List String}
    (captured : FabricMembership.captureInstances config book items = .ok (some (plans, owners))) :
    plans.map (fun plan => (plan.atnTpSize, plan.atnDpSize)) =
      items.map fun modelId => (config.atnTpSizeOf modelId, config.atnDpSize modelId) := by
  induction items generalizing plans owners with
  | nil =>
    rw [FabricMembership.captureInstances] at captured
    obtain ⟨rfl, -⟩ := Prod.mk.inj (Option.some.inj (Except.ok.inj captured))
    rfl
  | cons modelId rest ih =>
    rw [FabricMembership.captureInstances] at captured
    obtain ⟨own, first, captured⟩ := bind_eq_ok.mp captured
    cases own with
    | none => cases captured
    | some own =>
      obtain ⟨others, later, captured⟩ := bind_eq_ok.mp captured
      cases others with
      | none => cases captured
      | some others =>
        obtain ⟨rfl, -⟩ := Prod.mk.inj (Option.some.inj (Except.ok.inj captured))
        rw [List.map_cons, List.map_cons, ih later, captureInstance_sizes first]

theorem capacityGroups_eq : capacityGroups plans =
    (rows (·.atnDpSize) (fun instanceIndex _ dpRank => (instanceIndex, dpRank)) 0 plans).zipIdx.map fun ranked =>
      (ranked.2, ranked.1) := by
  have ranks : (plans.zipIdx.flatMap fun numbered => (List.range numbered.1.atnDpSize).map fun dpRank => (numbered.2, dpRank)) =
      rows (·.atnDpSize) (fun instanceIndex _ dpRank => (instanceIndex, dpRank)) 0 plans :=
    @flatMap_zipIdx _ _ (·.atnDpSize) (fun instanceIndex _ dpRank => (instanceIndex, dpRank)) plans 0
  rw [← ranks]
  rfl

theorem getElem?_capacityGroups {instanceIndex dpRank : Nat} {plan : FabricInstancePlan Doc}
    (listed : plans[instanceIndex]? = some plan) (inside : dpRank < plan.atnDpSize) :
    (capacityGroups plans)[rowStart (·.atnDpSize) plans instanceIndex + dpRank]? =
      some (rowStart (·.atnDpSize) plans instanceIndex + dpRank, instanceIndex, dpRank) := by
  rw [capacityGroups_eq, List.getElem?_map, List.getElem?_zipIdx, getElem?_rows listed inside]
  simp

/-- The policy numbers the groups row by row. -/
theorem mem_capacityGroups {groupIndex instanceIndex dpRank : Nat} :
    (groupIndex, instanceIndex, dpRank) ∈ capacityGroups plans ↔
      ∃ plan, plans[instanceIndex]? = some plan ∧ dpRank < plan.atnDpSize ∧
        groupIndex = rowStart (·.atnDpSize) plans instanceIndex + dpRank := by
  constructor
  · intro member
    rw [capacityGroups_eq, List.mem_map] at member
    obtain ⟨ranked, listed, same⟩ := member
    obtain ⟨rfl, rank⟩ := Prod.mk.inj same
    obtain ⟨row, plan, place, found, inside, is, value⟩ := exists_of_getElem?_rows (List.mem_zipIdx_iff_getElem?.mp listed)
    rw [rank, Nat.zero_add] at value
    obtain ⟨rfl, rfl⟩ := Prod.mk.inj value
    exact ⟨plan, found, inside, is⟩
  · rintro ⟨plan, listed, inside, rfl⟩
    exact List.mem_of_getElem? (getElem?_capacityGroups listed inside)

/-- The numbers of the policy, of the directory and of the ranks are the same. -/
structure Agree (config : Config) (plans : List (FabricInstancePlan Doc)) (mapping : ControlChannelMapping) : Prop where
  groups : ∀ groupIndex, groupIndex < mapping.layout.groupCount ↔
    ∃ instanceIndex dpRank, (groupIndex, instanceIndex, dpRank) ∈ capacityGroups plans
  partitions : ∀ groupIndex instanceIndex dpRank, (groupIndex, instanceIndex, dpRank) ∈ capacityGroups plans →
    ∃ entry, mapping.memory.groups[groupIndex]? = some entry ∧
      groupPartitionIndices config plans instanceIndex dpRank = List.range' entry.firstPartition entry.partitionCount ∧
      groupPartitionIndices config plans instanceIndex dpRank =
        (groupRanks plans instanceIndex dpRank).map (instanceIndex * config.atnWorldSize + ·)
  covered : ∀ partition, partition < mapping.layout.partitionCount ↔
    ∃ rank : RankCoordinates, ∃ modelId, rank.Bound config modelId ∧ rank.partitionIndex config = partition
  distinct : ∀ rank rank' : RankCoordinates, ∀ modelId modelId', rank.Bound config modelId → rank'.Bound config modelId' →
    rank.partitionIndex config = rank'.partitionIndex config → rank = rank'
  found : ∀ rank : RankCoordinates, ∀ modelId, rank.Bound config modelId →
    (rank.groupIndex config, rank.instanceIndex, rank.atnDpRank) ∈ capacityGroups plans ∧
      (groupPartitionIndices config plans rank.instanceIndex rank.atnDpRank)[rank.atnTpRank]? = some (rank.partitionIndex config)
  attached : ∀ groupIndex partitionIndex dpGroupCount channel,
    InstanceControlChannel.attach config.abiVersion mapping.memory groupIndex partitionIndex dpGroupCount = .ok channel ↔
      ∃ rank : RankCoordinates, ∃ modelId, rank.Bound config modelId ∧ groupIndex = rank.groupIndex config ∧
        partitionIndex = rank.partitionIndex config ∧ dpGroupCount = config.atnDpSize modelId ∧
        channel = ⟨mapping, groupIndex, rowStart config.atnDpSize config.instances rank.instanceIndex, dpGroupCount,
          partitionIndex⟩

/-- A DP rank of a configured Instance is a DP rank of its plan. -/
theorem plan_of_configured {instanceIndex : Nat} {modelId : String}
    (sizes : plans.map (fun plan => (plan.atnTpSize, plan.atnDpSize)) =
      config.instances.map fun modelId => (config.atnTpSizeOf modelId, config.atnDpSize modelId))
    (configured : config.instances[instanceIndex]? = some modelId) :
    ∃ plan, plans[instanceIndex]? = some plan ∧ plan.atnTpSize = config.atnTpSizeOf modelId ∧
      plan.atnDpSize = config.atnDpSize modelId := by
  have same := congrArg (·[instanceIndex]?) sizes
  rw [List.getElem?_map, List.getElem?_map, configured, Option.map_some, Option.map_eq_some_iff] at same
  obtain ⟨plan, listed, is⟩ := same
  obtain ⟨tpSize, dpSize⟩ := Prod.mk.inj is
  exact ⟨plan, listed, tpSize, dpSize⟩

theorem configured_of_plan {instanceIndex : Nat} {plan : FabricInstancePlan Doc}
    (sizes : plans.map (fun plan => (plan.atnTpSize, plan.atnDpSize)) =
      config.instances.map fun modelId => (config.atnTpSizeOf modelId, config.atnDpSize modelId))
    (listed : plans[instanceIndex]? = some plan) :
    ∃ modelId, config.instances[instanceIndex]? = some modelId ∧ plan.atnTpSize = config.atnTpSizeOf modelId ∧
      plan.atnDpSize = config.atnDpSize modelId := by
  have same := congrArg (·[instanceIndex]?) sizes
  rw [List.getElem?_map, List.getElem?_map, listed, Option.map_some] at same
  obtain ⟨modelId, configured, is⟩ := Option.map_eq_some_iff.mp same.symm
  obtain ⟨tpSize, dpSize⟩ := Prod.mk.inj is
  exact ⟨modelId, configured, tpSize.symm, dpSize.symm⟩

theorem rowStart_plans (sizes : plans.map (fun plan => (plan.atnTpSize, plan.atnDpSize)) =
      config.instances.map fun modelId => (config.atnTpSizeOf modelId, config.atnDpSize modelId)) (row : Nat) :
    rowStart (·.atnDpSize) plans row = rowStart config.atnDpSize config.instances row := by
  have same := congrArg (fun sizes => ((sizes.take row).map Prod.snd).sum) sizes
  simpa only [rowStart, ← List.map_take, List.map_map, Function.comp_def] using same

theorem partitionIndices_eq {instanceIndex dpRank : Nat} {modelId : String} {plan : FabricInstancePlan Doc}
    (listed : plans[instanceIndex]? = some plan) (tpSize : plan.atnTpSize = config.atnTpSizeOf modelId) :
    groupPartitionIndices config plans instanceIndex dpRank =
        List.range' (entryOf config instanceIndex modelId dpRank).firstPartition (config.atnTpSizeOf modelId) ∧
      groupPartitionIndices config plans instanceIndex dpRank =
        (groupRanks plans instanceIndex dpRank).map (instanceIndex * config.atnWorldSize + ·) := by
  rw [groupPartitionIndices, groupRanks, listed, Option.map_some, Option.getD_some, tpSize, entryOf]
  dsimp only
  constructor
  · rw [List.range'_eq_map_range]
  · rw [List.range'_eq_map_range, List.map_map]
    apply List.map_congr_left
    intro rank _
    exact Nat.add_assoc _ _ _

/-- The policy, the channel and the ranks agree on all coordinates, whatever is configured. -/
theorem coordinates_agree [DecidableEq Doc] (accepted : Accepted config)
    (captured : FabricMembership.captureInstances config book config.instances = .ok (some (plans, owners)))
    (returned : createChannel config = .ok mapping) : Agree config plans mapping := by
  have created := createChannel_created accepted returned
  have sizes := captureInstances_sizes captured
  refine ⟨?_, ?_, ?_, ?_, ?_, ?_⟩
  · intro groupIndex
    have listed : groupIndex < mapping.layout.groupCount ↔ groupIndex < mapping.memory.groups.length := by
      rw [created.groups, length_rows, created.groupCount]
    rw [listed]
    constructor
    · intro small
      obtain ⟨instanceIndex, modelId, dpRank, configured, inside, is, -⟩ :=
        created.exists_group (List.getElem?_eq_getElem small)
      obtain ⟨plan, listed, -, dpSize⟩ := plan_of_configured sizes configured
      exact ⟨instanceIndex, dpRank, mem_capacityGroups.mpr ⟨plan, listed, dpSize ▸ inside, by rw [rowStart_plans sizes, is]⟩⟩
    · rintro ⟨instanceIndex, dpRank, member⟩
      obtain ⟨plan, listed, inside, is⟩ := mem_capacityGroups.mp member
      obtain ⟨modelId, configured, -, dpSize⟩ := configured_of_plan sizes listed
      rw [rowStart_plans sizes] at is
      rw [is]
      exact (List.getElem?_eq_some_iff.mp (created.group configured (dpSize ▸ inside))).1
  · intro groupIndex instanceIndex dpRank member
    obtain ⟨plan, listed, inside, is⟩ := mem_capacityGroups.mp member
    obtain ⟨modelId, configured, tpSize, dpSize⟩ := configured_of_plan sizes listed
    rw [rowStart_plans sizes] at is
    refine ⟨_, is ▸ created.group configured (dpSize ▸ inside), ?_⟩
    exact partitionIndices_eq listed tpSize
  · intro partition
    rw [created.partitionCount]
    constructor
    · exact exists_bound accepted
    · rintro ⟨rank, modelId, bound, rfl⟩
      exact bound.partitionIndex_lt
  · intro rank rank' modelId modelId' bound bound' same
    exact bound.inj bound' same
  · intro rank modelId bound
    obtain ⟨plan, listed, tpSize, dpSize⟩ := plan_of_configured sizes bound.configured
    refine ⟨mem_capacityGroups.mpr ⟨plan, listed, dpSize ▸ bound.dpRank_lt accepted, ?_⟩, ?_⟩
    · rw [rowStart_plans sizes]
      rfl
    · rw [(partitionIndices_eq listed tpSize).1, List.getElem?_range' bound.tpRank, entryOf, RankCoordinates.partitionIndex,
        bound.tpFastest]
      simp only [Nat.one_mul, Nat.add_assoc]
  · intro groupIndex partitionIndex dpGroupCount channel
    constructor
    · intro attached
      obtain ⟨rank, modelId, bound, rfl, rfl, rfl⟩ := bound_of_attach accepted created attached
      refine ⟨rank, modelId, bound, rfl, rfl, rfl, ?_⟩
      exact (Except.ok.inj ((attach_of_bound accepted created bound).symm.trans attached)).symm
    · rintro ⟨rank, modelId, bound, rfl, rfl, rfl, rfl⟩
      exact attach_of_bound accepted created bound

/-! ## One numbering -/

/-- The partitions of a group. -/
def GroupEntry.partitions (entry : GroupEntry) : List Nat :=
  List.range' entry.firstPartition entry.partitionCount

/-- The policy numbers the groups of the directory, with their partitions; the ranks of all Instances number the
partitions; and a channel is attached just to the partition and group of a rank. -/
structure Numbered (config : Config) (plans : List (FabricInstancePlan Doc)) (mapping : ControlChannelMapping) : Prop where
  groups : (capacityGroups plans).map Prod.fst = List.range mapping.layout.groupCount
  ranges : ((capacityGroups plans).map fun group => groupPartitionIndices config plans group.2.1 group.2.2) =
    mapping.memory.groups.map GroupEntry.partitions
  ranks : Set.BijOn (RankCoordinates.partitionIndex config) {rank | ∃ modelId, rank.Bound config modelId}
    {partition | partition < mapping.layout.partitionCount}
  attaches : ∀ groupIndex partitionIndex dpGroupCount,
    (∃ channel, InstanceControlChannel.attach config.abiVersion mapping.memory groupIndex partitionIndex dpGroupCount =
        .ok channel) ↔
      ∃ rank : RankCoordinates, ∃ modelId, rank.Bound config modelId ∧ rank.groupIndex config = groupIndex ∧
        rank.partitionIndex config = partitionIndex ∧ config.atnDpSize modelId = dpGroupCount
  own : ∀ groupIndex partitionIndex dpGroupCount channel,
    InstanceControlChannel.attach config.abiVersion mapping.memory groupIndex partitionIndex dpGroupCount = .ok channel →
      channel.groupIndex = groupIndex ∧ channel.partitionIndex = partitionIndex ∧
        ∀ group entry, mapping.memory.groups[group]? = some entry → (partitionIndex ∈ entry.partitions ↔ group = groupIndex)

theorem capacityGroups_fst : (capacityGroups plans).map Prod.fst = List.range (plans.map (·.atnDpSize)).sum := by
  rw [capacityGroups_eq, List.map_map, List.range_eq_range', ← length_rows, ← List.zipIdx_map_snd 0]
  rfl

theorem numbered_groups (sizes : plans.map (fun plan => (plan.atnTpSize, plan.atnDpSize)) =
      config.instances.map fun modelId => (config.atnTpSizeOf modelId, config.atnDpSize modelId))
    (created : Created config mapping) : (capacityGroups plans).map Prod.fst = List.range mapping.layout.groupCount := by
  have dpSizes := congrArg (·.map Prod.snd) sizes
  simp only [List.map_map, Function.comp_def] at dpSizes
  rw [capacityGroups_fst, created.groupCount, dpSizes]

/-- The policy's partitions of each group are those of the directory. -/
theorem numbered_ranges (sizes : plans.map (fun plan => (plan.atnTpSize, plan.atnDpSize)) =
      config.instances.map fun modelId => (config.atnTpSizeOf modelId, config.atnDpSize modelId))
    (created : Created config mapping) :
    ((capacityGroups plans).map fun group => groupPartitionIndices config plans group.2.1 group.2.2) =
      mapping.memory.groups.map GroupEntry.partitions := by
  have lengths : (capacityGroups plans).length = mapping.memory.groups.length := by
    rw [created.groups, length_rows, ← created.groupCount, ← List.length_range (n := mapping.layout.groupCount),
      ← numbered_groups sizes created, List.length_map]
  apply List.ext_getElem?
  intro groupIndex
  rw [List.getElem?_map, List.getElem?_map]
  cases found : mapping.memory.groups[groupIndex]? with
  | none =>
    rw [List.getElem?_eq_none_iff, ← lengths, ← List.getElem?_eq_none_iff] at found
    rw [found]
    rfl
  | some entry =>
    obtain ⟨instanceIndex, modelId, dpRank, configured, inside, is, rfl⟩ := created.exists_group found
    obtain ⟨plan, listed, tpSize, dpSize⟩ := plan_of_configured sizes configured
    rw [← rowStart_plans sizes] at is
    rw [is, getElem?_capacityGroups listed (dpSize ▸ inside), Option.map_some, Option.map_some,
      (partitionIndices_eq listed tpSize).1]
    rfl

/-- The partition of a rank is in its own group only. -/
theorem Created.mem_partitions (accepted : Accepted config) (created : Created config mapping) {rank : RankCoordinates}
    {modelId : String} (bound : rank.Bound config modelId) {group : Nat} {entry : GroupEntry}
    (found : mapping.memory.groups[group]? = some entry) :
    rank.partitionIndex config ∈ entry.partitions ↔ group = rank.groupIndex config := by
  obtain ⟨instanceIndex, modelId', dpRank, configured, inside, rfl, rfl⟩ := created.exists_group found
  have own : rank.partitionIndex config =
      rank.instanceIndex * config.atnWorldSize + (rank.atnDpRank * config.atnTpSizeOf modelId + rank.atnTpRank) := by
    rw [RankCoordinates.partitionIndex, bound.tpFastest]
  rw [GroupEntry.partitions, List.mem_range'_1, own, entryOf, RankCoordinates.groupIndex, rowStart]
  dsimp only
  constructor
  · rintro ⟨low, high⟩
    have row := dpRank_row accepted configured inside
    have worker := bound.tpFastest ▸ bound.worker
    obtain ⟨tpRank, offset⟩ := Nat.exists_eq_add_of_le low
    have same : rank.instanceIndex * config.atnWorldSize + (rank.atnDpRank * config.atnTpSizeOf modelId + rank.atnTpRank) =
        instanceIndex * config.atnWorldSize + (dpRank * config.atnTpSizeOf modelId' + tpRank) := by
      omega
    obtain ⟨instances, columns⟩ := row_index_inj worker (by omega) same
    obtain rfl : modelId = modelId' :=
      Option.some.inj (bound.configured.symm.trans ((congrArg (config.instances[·]?) instances).trans configured))
    obtain ⟨dpRanks, -⟩ := row_index_inj bound.tpRank (by omega) columns
    rw [instances, dpRanks]
  · intro same
    have owned := created.group bound.configured (bound.dpRank_lt accepted)
    have listed : some (entryOf config instanceIndex modelId' dpRank) =
        some (entryOf config rank.instanceIndex modelId rank.atnDpRank) := by
      rw [← created.group configured inside, ← owned, rowStart, rowStart, same]
    have entries := Option.some.inj listed
    rw [entryOf, entryOf, GroupEntry.mk.injEq] at entries
    have tpRank := bound.tpRank
    omega

end Plans

/-! ## Two Instances -/

/-- Two Instances on two devices, the first with one DP rank and the second with two. -/
def sampleConfig : Config where
  atnDevices := [4, 5]
  ffnDevices := [6]
  instances := ["first", "second"]
  declaredTpSize _ := none
  atnDpSize modelId := if modelId = "second" then 2 else 1
  abiVersion := 93

/-- A rank as it registers itself. -/
def sampleRegistration (modelId : String) (rank tpRank dpRank : Nat) : Control.Registration InstanceRankId (InstanceContract Unit) where
  object := rank
  key := ⟨modelId, rank⟩
  proc := ⟨rank, 0⟩
  abiVersion := 93
  alive := true
  lastSeenAt := 0
  contract := ⟨⟨64, 8, tpRank, sampleConfig.atnTpSizeOf modelId, dpRank, sampleConfig.atnDpSize modelId⟩, (), (), 0⟩

def sampleBook : Control.RegistrationBook Unit where
  instances :=
    [sampleRegistration "first" 0 0 0, sampleRegistration "first" 1 1 0, sampleRegistration "second" 0 0 0,
      sampleRegistration "second" 1 0 1].foldl (fun table registration => table.insert registration.key registration) ∅
  atnagents := ∅
  ffnagents := ∅
  ffnModelSpecs := none
  agentStartups := ∅

def sampleMapping : ControlChannelMapping where
  memory := {
    bytes := 472
    header := ⟨controlChannelMagic, 93, 0, 472, 2, 3, 4⟩
    groups := [⟨0, 2⟩, ⟨2, 1⟩, ⟨3, 1⟩] }
  layout := ⟨2, 3, 4, 48, 80, 248, 472⟩

theorem coordinates_agree_two_instances :
    Agree sampleConfig [⟨"first", (), 2, 1, [0, 1]⟩, ⟨"second", (), 1, 2, [0, 1]⟩] sampleMapping :=
  @coordinates_agree Unit sampleConfig sampleBook sampleMapping _ _ _ ⟨by decide, by decide, by decide⟩ rfl (by rfl)

end CrossPool.Ecs.Coordinates
