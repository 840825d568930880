import CrossPool.Lib.Grid
import CrossPool.Fabric.Ledger
import Mathlib.Algebra.BigOperators.Fin

/-!
# Delivery of one invocation

The delivery kernels at the granularity of the source: blocks cut the direct
partial at bytes and the complete output at elements, threads reduce in vectors
between scalar edges, and puts carry bytes. Sums are exact; the dtype of a payload
is any encoding of values as a fixed number of bytes.
-/

namespace CrossPool.Fabric

open CrossPool.Transport (OutputRequirement)
open CrossPool.Lib

/-- A payload dtype. A value is stored as `size` bytes, and zero bytes are zero. -/
structure Scalar (V : Type) [Zero V] where
  Byte : Type
  size : Nat
  size_pos : 0 < size
  /-- `sizeof(uint4)` holds one at least. -/
  size_le : size ≤ 16
  store : V → Nat → Byte
  load : (Nat → Byte) → V
  zeroByte : Byte
  load_store : ∀ value bytes, (∀ k < size, bytes k = store value k) → load bytes = value
  load_zero : ∀ bytes, (∀ k < size, bytes k = zeroByte) → load bytes = 0

namespace Scalar

variable {V : Type} [Zero V] (F : Scalar V)

/-- The bytes of an array. -/
def bytes (values : Nat → V) (offset : Nat) : F.Byte :=
  F.store (values (offset / F.size)) (offset % F.size)

/-- The element of an array of bytes. -/
def element (bytes : Nat → F.Byte) (index : Nat) : V :=
  F.load fun k => bytes (index * F.size + k)

/-- Scalars of one `uint4`. -/
def lanes : Nat :=
  16 / F.size

theorem lanes_pos : 0 < F.lanes :=
  Nat.div_pos F.size_le F.size_pos

theorem element_of_bytes {values : Nat → V} {bytes : Nat → F.Byte} {index : Nat}
    (same : ∀ k < F.size, bytes (index * F.size + k) = F.bytes values (index * F.size + k)) :
    F.element bytes index = values index := by
  apply F.load_store
  intro k bound
  rw [same k bound, Scalar.bytes, Nat.mul_comm, Nat.mul_add_div F.size_pos, Nat.div_eq_of_lt bound, Nat.mul_add_mod,
    Nat.mod_eq_of_lt bound]
  rfl

theorem element_of_zero {bytes : Nat → F.Byte} {index : Nat}
    (zero : ∀ k < F.size, bytes (index * F.size + k) = F.zeroByte) : F.element bytes index = 0 :=
  F.load_zero _ zero

end Scalar

/-- How a rank launches its delivery kernel, and where its buffers lie. -/
structure Launch where
  blockCount : Nat
  blockCount_pos : 0 < blockCount
  threads : Nat
  threads_pos : 0 < threads
  partialAddress : Nat
  stagingAddress : Nat

/-- `nvshmemx_putmem_nbi_block` to the output buffer of an AtnAgent. -/
structure OutputPut (B : Type) where
  rank : Nat
  block : Nat
  destination : Nat
  begin : Nat
  size : Nat
  data : Nat → B

namespace OutputPut

variable {B : Type} (put : OutputPut B)

/-- The bytes that the put writes, by PE and offset. -/
def writes : List ((Nat × Nat) × B) :=
  (List.range put.size).map fun k => ((put.destination, put.begin + k), put.data k)

def covers (pe offset : Nat) : Bool :=
  put.destination = pe && put.begin ≤ offset && offset < put.begin + put.size

end OutputPut

/-! ## Reduction -/

section Reduction

variable {V : Type} [AddCommMonoid V]

/-- `ordered_sum`, over the partials in PE order. -/
def orderedSum (sources : List (Nat → V)) (index : Nat) : V :=
  sources.foldl (fun sum source => sum + source index) 0

/-- The first index of the `uint4` middle: past `left` unaligned elements at most. -/
def alignedBegin (aligned : Nat → Bool) : Nat → Nat → Nat
  | 0, index => index
  | left + 1, index => if aligned index then index else alignedBegin aligned left (index + 1)

/-- The sums of one `uint4`. -/
def vectorSums (lanes : Nat) (sources : List (Nat → V)) (index : Nat) : List V :=
  sources.foldl (fun sums source => sums.mapIdx fun lane sum => sum + source (index + lane)) (List.replicate lanes 0)

/-- What one thread of `reduce_tp_partials` stages of `count` elements. -/
def reduceThread (lanes threads : Nat) (aligned : Nat → Bool) (sources : List (Nat → V)) (count thread : Nat) :
    List (Nat × V) :=
  let vectorBegin := alignedBegin aligned count 0
  let vectorEnd := vectorBegin + (count - vectorBegin) / lanes * lanes
  (strided threads vectorBegin thread).map (fun index => (index, orderedSum sources index)) ++
    ((strided (threads * lanes) vectorEnd (vectorBegin + thread * lanes)).flatMap fun index =>
        (vectorSums lanes sources index).mapIdx fun lane sum => (index + lane, sum)) ++
      (strided threads count (vectorEnd + thread)).map fun index => (index, orderedSum sources index)

/-- What all threads of a block stage. -/
def reduceTpPartials (lanes threads : Nat) (aligned : Nat → Bool) (sources : List (Nat → V)) (count : Nat) :
    List (Nat × V) :=
  (List.range threads).flatMap fun thread => reduceThread lanes threads aligned sources count thread

variable {lanes threads count index left : Nat} {aligned : Nat → Bool} {sources : List (Nat → V)}

theorem alignedBegin_le : index ≤ alignedBegin aligned left index ∧ alignedBegin aligned left index ≤ index + left := by
  induction left generalizing index with
  | zero => exact ⟨Nat.le_refl _, Nat.le_refl _⟩
  | succ left ih =>
    rw [alignedBegin]
    split
    · omega
    · have := @ih (index + 1)
      omega

theorem vectorSums_eq :
    vectorSums lanes sources index = (List.range lanes).map fun lane => orderedSum sources (index + lane) := by
  have step (starts : Nat → V) :
      sources.foldl (fun sums source => sums.mapIdx fun lane sum => sum + source (index + lane))
          ((List.range lanes).map starts) =
        (List.range lanes).map fun lane => sources.foldl (fun sum source => sum + source (index + lane)) (starts lane) := by
    induction sources generalizing starts with
    | nil => rfl
    | cons source rest ih =>
      rw [List.foldl_cons]
      have added : ((List.range lanes).map starts).mapIdx (fun lane sum => sum + source (index + lane)) =
          (List.range lanes).map fun lane => starts lane + source (index + lane) := by
        apply List.ext_getElem
        · simp
        · intro lane _ _
          simp
      rw [added, ih]
      rfl
  have zeros : List.replicate lanes (0 : V) = (List.range lanes).map fun _ => 0 := by simp
  rw [vectorSums, zeros, step]
  rfl

/-- Every write of every thread is an ordered sum. -/
theorem reduceTpPartials_sum {write : Nat × V} (member : write ∈ reduceTpPartials lanes threads aligned sources count) :
    write.2 = orderedSum sources write.1 := by
  obtain ⟨thread, -, member⟩ := List.mem_flatMap.mp member
  simp only [reduceThread] at member
  rcases List.mem_append.mp member with first | tail
  · rcases List.mem_append.mp first with head | middle
    · obtain ⟨index, -, rfl⟩ := List.mem_map.mp head
      rfl
    · obtain ⟨index, -, chunk⟩ := List.mem_flatMap.mp middle
      rw [vectorSums_eq, List.mem_mapIdx] at chunk
      obtain ⟨lane, bound, rfl⟩ := chunk
      simp
  · obtain ⟨index, -, rfl⟩ := List.mem_map.mp tail
    rfl

/-- Every element of the range is written: in the unaligned head, the `uint4`
middle or the tail. -/
theorem reduceTpPartials_writes (wide : 0 < lanes) (some : 0 < threads) (bound : index < count) :
    ∃ write ∈ reduceTpPartials lanes threads aligned sources count, write.1 = index := by
  have aligns := @alignedBegin_le 0 count aligned
  generalize begins : alignedBegin aligned count 0 = vectorBegin at aligns
  generalize ends : vectorBegin + (count - vectorBegin) / lanes * lanes = vectorEnd
  have written {thread : Nat} (bound : thread < threads)
      (writes : ∃ write ∈ reduceThread lanes threads aligned sources count thread, write.1 = index) :
      ∃ write ∈ reduceTpPartials lanes threads aligned sources count, write.1 = index := by
    obtain ⟨write, member, same⟩ := writes
    exact ⟨write, List.mem_flatMap.mpr ⟨thread, List.mem_range.mpr bound, member⟩, same⟩
  by_cases head : index < vectorBegin
  · obtain ⟨thread, low, member⟩ : ∃ thread < threads, index ∈ strided threads vectorBegin (0 + thread) :=
      (exists_strided_one some).mpr ⟨Nat.zero_le index, head⟩
    refine written low ⟨(index, orderedSum sources index), ?_, rfl⟩
    simp only [reduceThread, begins]
    apply List.mem_append_left
    apply List.mem_append_left
    rw [Nat.zero_add] at member
    exact List.mem_map.mpr ⟨index, member, rfl⟩
  · by_cases middle : index < vectorEnd
    · have whole : lanes ∣ vectorEnd - vectorBegin := ⟨(count - vectorBegin) / lanes, by rw [Nat.mul_comm]; omega⟩
      obtain ⟨thread, low, chunk, member, chunked⟩ := (exists_strided some wide whole).mpr ⟨Nat.le_of_not_lt head, middle⟩
      refine written low ⟨(index, orderedSum sources index), ?_, rfl⟩
      simp only [reduceThread, begins, ends]
      apply List.mem_append_left
      apply List.mem_append_right
      refine List.mem_flatMap.mpr ⟨chunk, member, ?_⟩
      rw [vectorSums_eq, List.mem_mapIdx]
      have back : chunk + (index - chunk) = index := by omega
      refine ⟨index - chunk, ?_, ?_⟩
      · simp
        omega
      · simp [back]
    · obtain ⟨thread, low, member⟩ := (exists_strided_one some).mpr ⟨Nat.le_of_not_lt middle, bound⟩
      refine written low ⟨(index, orderedSum sources index), ?_, rfl⟩
      simp only [reduceThread, begins, ends]
      apply List.mem_append_right
      exact List.mem_map.mpr ⟨index, member, rfl⟩

/-- In whatever order the threads write, the range is reduced. -/
theorem reduceTpPartials_staged (wide : 0 < lanes) (some : 0 < threads) (bound : index < count) {order : List (Nat × V)}
    (permuted : order.Perm (reduceTpPartials lanes threads aligned sources count)) (staging : Nat → V) :
    scatter staging order index = orderedSum sources index := by
  apply scatter_written
  · rintro write member rfl
    exact reduceTpPartials_sum (permuted.mem_iff.mp member)
  · obtain ⟨write, member, same⟩ :=
      @reduceTpPartials_writes _ _ lanes threads count index aligned sources wide some bound
    exact ⟨write, permuted.mem_iff.mpr member, same⟩

theorem orderedSum_eq : orderedSum sources index = (sources.map fun source => source index).sum := by
  rw [orderedSum, List.sum_eq_foldl, List.foldl_map]

end Reduction

/-! ## Puts -/

/-- The branch of the delivery switch that `prepare_delivery` selects. -/
inductive DeliveryBranch where
  | direct
  | complete
  | none
deriving DecidableEq, Repr

namespace Topology

variable (T : Topology)

/-- Bytes of the payload of an execution. -/
def payloadBytes (execution : LaneExecution) : Nat :=
  execution.payloadRows * (T.instanceEntry execution.key.instanceIndex).payloadRowBytes

/-- The delivery's `resolve_context` of an execution: this PE's rank; `none` where
it aborts. -/
def resolveDelivery (execution : LaneExecution) (pe : Nat) : Option Nat :=
  let i := T.instanceEntry execution.key.instanceIndex
  let pes := T.executionPes execution
  if !PublicationRecord.valid execution ∨ T.instanceCount ≤ execution.key.instanceIndex ∨
      i.layers.length ≤ execution.layerOrdinal ∨
      (i.decodePayloadRowCapacity < execution.payloadRows ∧ i.prefillPayloadRowCapacity < execution.payloadRows) ∨
      pes = [] ∨ pes.length ≠ i.ffnTpSize ∨ T.atnagentPes execution.key.instanceIndex = [] ∨ pe ∉ pes then none
  else some (pes.idxOf pe)

/-- Where `prepare_delivery` leads a rank; `none` where it aborts. -/
def deliveryBranch (execution : LaneExecution) (rank : Nat) : Option DeliveryBranch :=
  (deliveryVariant (T.instanceEntry execution.key.instanceIndex) execution.outputRequirement).map fun delivery =>
    if delivery = .directPartial then .direct
    else if rank < T.activeReaderCount execution then .complete
    else .none

variable {V : Type} [AddCommMonoid V] (F : Scalar V) (partials : Nat → Nat → V)

/-- One block of `deliver_direct_partial_output`. -/
def deliverDirectPartialOutput (launch : Launch) (execution : LaneExecution) (pe block : Nat) :
    Option (List (OutputPut F.Byte)) :=
  match T.resolveDelivery execution pe with
  | none => none
  | some rank =>
    let i := T.instanceEntry execution.key.instanceIndex
    let pes := T.atnagentPes execution.key.instanceIndex
    if execution.outputRequirement ≠ .groupSumComplete ∨ !i.groupSumCompleteAdmitted ∨
        pes.length < (T.executionPes execution).length then none
    else
      let (first, stop) := blockRange 0 (T.payloadBytes execution) block launch.blockCount
      if first = stop then some []
      else
        some
          [{  rank := rank
              block := block
              destination := pes.getD rank 0
              begin := first
              size := stop - first
              data := fun k => F.bytes (partials pe) (first + k) }]

/-- The alignment test of `reduce_tp_partials`, over the part of a block. -/
def vectorAligned (launch : Launch) (first index : Nat) : Bool :=
  ((launch.partialAddress + (first + index) * F.size) ||| (launch.stagingAddress + (first + index) * F.size)) &&& 15 = 0

/-- The partials of the peers, over the part of a block. -/
def peerPartials (execution : LaneExecution) (first : Nat) : List (Nat → V) :=
  (T.executionPes execution).map fun pe index => partials pe (first + index)

/-- What a block delivers of its part: its own partial, or what its threads stage. -/
def deliveredRange (launch : Launch) (execution : LaneExecution) (pe first count : Nat) (staging : Nat → V) : Nat → V :=
  if 1 < (T.executionPes execution).length then
    scatter staging
      (reduceTpPartials F.lanes launch.threads (vectorAligned F launch first) (T.peerPartials partials execution first)
        count)
  else fun index => partials pe (first + index)

/-- `deliver_complete_range`. -/
def deliverCompleteRange (launch : Launch) (execution : LaneExecution) (pe rank block begin count : Nat)
    (destinations : List Nat) (staging : Nat → V) : Option (List (OutputPut F.Byte)) :=
  let elements := T.lanePayloadCapacityBytes / F.size
  if T.lanePayloadCapacityBytes % F.size ≠ 0 ∨ elements < begin ∨ elements - begin < count then none
  else
    let (first, stop) := blockRange begin count block launch.blockCount
    if first = stop then some []
    else
      let delivery := T.deliveredRange F partials launch execution pe first (stop - first) staging
      some
        (destinations.map fun destination =>
          { rank := rank
            block := block
            destination := destination
            begin := first * F.size
            size := (stop - first) * F.size
            data := F.bytes delivery })

/-- One block of `deliver_complete_output_range` in a generation that neither
fails nor shuts down. -/
def deliverCompleteOutputRange (launch : Launch) (execution : LaneExecution) (pe block : Nat) (staging : Nat → V) :
    Option (List (OutputPut F.Byte)) :=
  match T.resolveDelivery execution pe with
  | none => none
  | some rank =>
    let i := T.instanceEntry execution.key.instanceIndex
    if execution.outputRequirement ≠ .perRankComplete ∧
        (execution.outputRequirement ≠ .groupSumComplete ∨ !i.groupSumCompleteAdmitted ∨
          (T.executionPes execution).length ≤ (T.atnagentPes execution.key.instanceIndex).length) then none
    else
      let (begin, count) := T.rankRange execution rank
      if count = 0 then some []
      else
        T.deliverCompleteRange F partials launch execution pe rank block begin count (T.completeDestinations execution)
          staging

/-- All blocks of one rank's delivery. -/
def deliverRank (launch : Launch) (execution : LaneExecution) (rank : Nat) (staging : Nat → Nat → V) :
    Option (List (OutputPut F.Byte)) :=
  let pe := (T.executionPes execution).getD rank 0
  match T.deliveryBranch execution rank with
  | none => none
  | some .none => some []
  | some .direct =>
    ((List.range launch.blockCount).mapM fun block =>
        T.deliverDirectPartialOutput F partials launch execution pe block).map List.flatten
  | some .complete =>
    ((List.range launch.blockCount).mapM fun block =>
        T.deliverCompleteOutputRange F partials launch execution pe block (staging block)).map List.flatten

/-- The puts of all ranks of one invocation. -/
def deliver (launches : Nat → Launch) (execution : LaneExecution) (staging : Nat → Nat → Nat → V) :
    Option (List (OutputPut F.Byte)) :=
  ((List.range (T.executionPes execution).length).mapM fun rank =>
      T.deliverRank F partials (launches rank) execution rank (staging rank)).map List.flatten

/-- What an AtnAgent rank returns to its caller, over what its buffer held. -/
def materializeOutput (execution : LaneExecution) (rank : Nat) (memory : Nat × Nat → F.Byte) (output : Nat → F.Byte) :
    Option (Nat → F.Byte) :=
  let i := execution.key.instanceIndex
  (deliveryVariant (T.instanceEntry i) execution.outputRequirement).map fun delivery offset =>
    if offset < T.payloadBytes execution then
      if T.receivesOutput i rank delivery then memory (T.atnagentPe i rank, offset) else F.zeroByte
    else output offset

/-- What the Coordinator leases, with what the arena is laid out for. -/
structure Deliverable (execution : LaneExecution) : Prop where
  valid : PublicationRecord.valid execution
  index : execution.key.instanceIndex < T.instanceCount
  layer : execution.layerOrdinal < (T.instanceEntry execution.key.instanceIndex).layers.length
  rows :
    execution.payloadRows ≤ (T.instanceEntry execution.key.instanceIndex).decodePayloadRowCapacity ∨
      execution.payloadRows ≤ (T.instanceEntry execution.key.instanceIndex).prefillPayloadRowCapacity
  rowBytes :
    (T.instanceEntry execution.key.instanceIndex).payloadRowBytes =
      (T.instanceEntry execution.key.instanceIndex).hiddenSize * F.size
  fits : T.payloadBytes execution ≤ T.lanePayloadCapacityBytes
  aligned : F.size ∣ T.lanePayloadCapacityBytes
  granted :
    execution.outputRequirement = .groupSumComplete →
      (T.instanceEntry execution.key.instanceIndex).groupSumCompleteAdmitted

end Topology

/-! ## The kernels do not abort -/

section Deliverable

open CrossPool.Fabric.Topology (blockRange)

variable {T : Topology} {V : Type} [AddCommMonoid V] {F : Scalar V} {e : LaneExecution}

namespace Topology.Deliverable

variable (deliverable : T.Deliverable F e)
include deliverable

theorem rows_pos : 0 < e.payloadRows := by
  have valid := deliverable.valid
  simp only [PublicationRecord.valid, Bool.and_eq_true, decide_eq_true_eq] at valid
  exact Nat.pos_of_ne_zero valid.1.2

theorem requirement : e.outputRequirement = .perRankComplete ∨ e.outputRequirement = .groupSumComplete := by
  have valid := deliverable.valid
  simp only [PublicationRecord.valid, Bool.and_eq_true] at valid
  have named := valid.2
  cases requirement : e.outputRequirement with
  | perRankComplete => exact .inl rfl
  | groupSumComplete => exact .inr rfl
  | other word unnamed =>
    rw [requirement] at named
    cases named

theorem instance_validate : (T.instanceEntry e.key.instanceIndex).validate T.atnagentCount T.ffnagentCount := by
  have valid := T.valid
  simp only [ArenaProjection.validate, Bool.and_eq_true, List.all_eq_true] at valid
  have index : e.key.instanceIndex < T.instances.length := deliverable.index
  have entry : T.instanceEntry e.key.instanceIndex = T.instances[e.key.instanceIndex] := List.getD_eq_getElem _ _ index
  rw [entry]
  exact valid.2 _ (List.getElem_mem index)

theorem hidden_pos : 0 < (T.instanceEntry e.key.instanceIndex).hiddenSize := by
  have valid := deliverable.instance_validate
  simp only [Instance.validate, Bool.and_eq_true, decide_eq_true_eq] at valid
  exact Nat.pos_of_ne_zero valid.1.1.1.1.1.1.1.1.2

/-- The AtnAgent ranks of the instance are its TP or DP ranks. -/
theorem ranks_eq :
    (T.atnagentPes e.key.instanceIndex).length =
      (T.instanceEntry e.key.instanceIndex).atnTpSize * (T.instanceEntry e.key.instanceIndex).atnDpSize := by
  have valid := deliverable.instance_validate
  simp only [Instance.validate, Bool.and_eq_true, decide_eq_true_eq] at valid
  exact valid.1.1.1.1.2.symm

theorem ranks_pos : 0 < (T.atnagentPes e.key.instanceIndex).length :=
  List.length_pos_iff.mpr (Topology.atnagentPes_ne_nil deliverable.index)

theorem layer_validate :
    (T.layerEntry e.key.instanceIndex e.layerOrdinal).validate (T.instanceEntry e.key.instanceIndex).ffnTpSize
      T.ffnagentCount :=
  Topology.layer_validate deliverable.layer

theorem width_eq : (T.executionPes e).length = (T.instanceEntry e.key.instanceIndex).ffnTpSize := by
  have valid := deliverable.layer_validate
  simp only [Layer.validate, Bool.and_eq_true, decide_eq_true_eq] at valid
  rw [Topology.executionPes, Topology.ffnagentPes, List.length_map]
  exact valid.1.1.1.2

theorem width_pos : 0 < (T.executionPes e).length := by
  have valid := deliverable.layer_validate
  simp only [Layer.validate, Bool.and_eq_true, decide_eq_true_eq] at valid
  rw [Topology.executionPes, Topology.ffnagentPes, List.length_map]
  exact List.length_pos_iff.mpr valid.1.1.1.1

theorem resolves {rank : Nat} (member : rank < (T.executionPes e).length) :
    T.resolveDelivery e ((T.executionPes e).getD rank 0) = some rank := by
  have pe : (T.executionPes e).getD rank 0 = (T.executionPes e)[rank] := List.getD_eq_getElem _ _ member
  have nodup : (T.executionPes e).Nodup := Topology.ffnagentPes_nodup
  have listed : (T.executionPes e)[rank] ∈ T.executionPes e := List.getElem_mem member
  have rows := deliverable.rows
  have index := deliverable.index
  have layer := deliverable.layer
  simp only [Topology.resolveDelivery, pe]
  rw [if_neg, nodup.idxOf_getElem rank member]
  rintro (invalid | unknown | deep | many | empty | odd | none | stranger)
  · rw [deliverable.valid] at invalid
    cases invalid
  · omega
  · omega
  · omega
  · have := deliverable.width_pos
    rw [empty] at this
    cases this
  · exact odd deliverable.width_eq
  · exact Topology.atnagentPes_ne_nil deliverable.index none
  · exact stranger listed

end Topology.Deliverable

theorem rankRange_eq {rank : Nat} :
    T.rankRange e rank =
      (shareBegin e.payloadRows (T.executionPes e).length rank * (T.instanceEntry e.key.instanceIndex).hiddenSize,
        (e.payloadRows / (T.executionPes e).length +
            if rank < e.payloadRows % (T.executionPes e).length then 1 else 0) *
          (T.instanceEntry e.key.instanceIndex).hiddenSize) := rfl

/-- A rank's elements end where those of the next begin. -/
theorem rankRange_end {rank : Nat} :
    (T.rankRange e rank).1 + (T.rankRange e rank).2 =
      shareBegin e.payloadRows (T.executionPes e).length (rank + 1) *
        (T.instanceEntry e.key.instanceIndex).hiddenSize := by
  rw [rankRange_eq, shareBegin_succ, ← Nat.add_mul]

theorem rankRange_le (some : 0 < (T.executionPes e).length) {rank : Nat} (member : rank < (T.executionPes e).length) :
    (T.rankRange e rank).1 + (T.rankRange e rank).2 ≤
      e.payloadRows * (T.instanceEntry e.key.instanceIndex).hiddenSize := by
  rw [rankRange_end]
  apply Nat.mul_le_mul_right
  calc
    shareBegin e.payloadRows (T.executionPes e).length (rank + 1) ≤
        shareBegin e.payloadRows (T.executionPes e).length (T.executionPes e).length := shareBegin_mono member
    _ = e.payloadRows := shareBegin_workers some

theorem blockRange_eq {begin count block blocks : Nat} :
    blockRange begin count block blocks = (begin + cutBegin count blocks block, begin + cutBegin count blocks (block + 1)) :=
  rfl

/-- The part of a block lies within its range. -/
theorem blockRange_le {begin count block blocks : Nat} (bound : block < blocks) :
    (blockRange begin count block blocks).1 ≤ (blockRange begin count block blocks).2 ∧
      (blockRange begin count block blocks).2 ≤ begin + count := by
  have some : 0 < blocks := by omega
  have ordered : cutBegin count blocks block ≤ cutBegin count blocks (block + 1) := cutBegin_mono (Nat.le_succ block)
  have within : cutBegin count blocks (block + 1) ≤ cutBegin count blocks blocks := cutBegin_mono bound
  rw [cutBegin_blocks some] at within
  rw [blockRange_eq]
  constructor
  · exact Nat.add_le_add_left ordered begin
  · exact Nat.add_le_add_left within begin

/-! ## The puts of every block -/

variable {partials : Nat → Nat → V} {launch : Launch}

/-- The puts of a block of the complete output. -/
def completePuts (T : Topology) (F : Scalar V) (partials : Nat → Nat → V) (launch : Launch) (e : LaneExecution)
    (rank block : Nat) (staging : Nat → V) : List (OutputPut F.Byte) :=
  let (first, stop) := blockRange (T.rankRange e rank).1 (T.rankRange e rank).2 block launch.blockCount
  if first = stop then []
  else
    (T.completeDestinations e).map fun destination =>
      { rank := rank
        block := block
        destination := destination
        begin := first * F.size
        size := (stop - first) * F.size
        data :=
          F.bytes
            (T.deliveredRange F partials launch e ((T.executionPes e).getD rank 0) first (stop - first) staging) }

/-- The put of a block of the direct partial. -/
def directPuts (T : Topology) (F : Scalar V) (partials : Nat → Nat → V) (launch : Launch) (e : LaneExecution)
    (rank block : Nat) : List (OutputPut F.Byte) :=
  let (first, stop) := blockRange 0 (T.payloadBytes e) block launch.blockCount
  if first = stop then []
  else
    [{  rank := rank
        block := block
        destination := (T.atnagentPes e.key.instanceIndex).getD rank 0
        begin := first
        size := stop - first
        data := fun k => F.bytes (partials ((T.executionPes e).getD rank 0)) (first + k) }]

theorem Topology.Deliverable.complete (deliverable : T.Deliverable F e) {rank block : Nat} {staging : Nat → V}
    (member : rank < (T.executionPes e).length)
    (variant : e.outputRequirement = .groupSumComplete →
      (T.atnagentPes e.key.instanceIndex).length < (T.executionPes e).length) :
    T.deliverCompleteOutputRange F partials launch e ((T.executionPes e).getD rank 0) block staging =
      some (completePuts T F partials launch e rank block staging) := by
  have admitted :
      ¬(e.outputRequirement ≠ .perRankComplete ∧
          (e.outputRequirement ≠ .groupSumComplete ∨
            (!(T.instanceEntry e.key.instanceIndex).groupSumCompleteAdmitted) = true ∨
              (T.executionPes e).length ≤ (T.atnagentPes e.key.instanceIndex).length)) := by
    rintro ⟨other, refused⟩
    rcases deliverable.requirement with requirement | requirement
    · exact other requirement
    · rcases refused with unknown | denied | narrow
      · exact unknown requirement
      · rw [deliverable.granted requirement] at denied
        cases denied
      · have := variant requirement
        omega
  have fits : T.lanePayloadCapacityBytes / F.size ≥ (T.rankRange e rank).1 + (T.rankRange e rank).2 := by
    have fits := deliverable.fits
    rw [Topology.payloadBytes, deliverable.rowBytes, ← Nat.mul_assoc] at fits
    exact (rankRange_le deliverable.width_pos member).trans ((Nat.le_div_iff_mul_le F.size_pos).mpr fits)
  have aligned := Nat.mod_eq_zero_of_dvd deliverable.aligned
  simp only [Topology.deliverCompleteOutputRange, deliverable.resolves member, if_neg admitted]
  by_cases idle : (T.rankRange e rank).2 = 0
  · rw [if_pos idle]
    have empty : cutBegin 0 launch.blockCount block = cutBegin 0 launch.blockCount (block + 1) := by simp [cutBegin]
    simp [completePuts, blockRange_eq, idle, empty]
  · rw [if_neg idle, Topology.deliverCompleteRange, if_neg (by omega)]
    simp only [completePuts]
    split <;> rfl

theorem Topology.Deliverable.direct (deliverable : T.Deliverable F e) {rank block : Nat}
    (member : rank < (T.executionPes e).length) (requirement : e.outputRequirement = .groupSumComplete)
    (narrow : (T.executionPes e).length ≤ (T.atnagentPes e.key.instanceIndex).length) :
    T.deliverDirectPartialOutput F partials launch e ((T.executionPes e).getD rank 0) block =
      some (directPuts T F partials launch e rank block) := by
  have admitted :
      ¬(e.outputRequirement ≠ .groupSumComplete ∨
          (!(T.instanceEntry e.key.instanceIndex).groupSumCompleteAdmitted) = true ∨
            (T.atnagentPes e.key.instanceIndex).length < (T.executionPes e).length) := by
    rintro (other | denied | wide)
    · exact other requirement
    · rw [deliverable.granted requirement] at denied
      cases denied
    · omega
  simp only [Topology.deliverDirectPartialOutput, deliverable.resolves member, if_neg admitted, directPuts]
  split <;> rfl

/-! ## What the puts come to -/

theorem Topology.Deliverable.payloadBytes_eq (deliverable : T.Deliverable F e) :
    T.payloadBytes e = e.payloadRows * (T.instanceEntry e.key.instanceIndex).hiddenSize * F.size := by
  rw [Topology.payloadBytes, deliverable.rowBytes, Nat.mul_assoc]

/-- The puts bring each receiver its content, each byte once and no byte more. -/
structure Delivered (T : Topology) (F : Scalar V) (e : LaneExecution) (receivers : List Nat) (content : Nat → Nat → V)
    (puts : List (OutputPut F.Byte)) : Prop where
  once :
    ∀ pe offset, puts.countP (·.covers pe offset) = if pe ∈ receivers ∧ offset < T.payloadBytes e then 1 else 0
  within : ∀ put ∈ puts, put.begin + put.size ≤ T.payloadBytes e
  addressed : ∀ put ∈ puts, put.destination ∈ receivers
  data : ∀ put ∈ puts, ∀ k < put.size, put.data k = F.bytes (content put.destination) (put.begin + k)

/-- The sum of all partials. -/
def completeOutput (T : Topology) (partials : Nat → Nat → V) (e : LaneExecution) : Nat → V :=
  orderedSum ((T.executionPes e).map partials)

/-- A block delivers the sums of its part. -/
theorem deliveredRange_eq {rank first count index : Nat} {staging : Nat → V} (member : rank < (T.executionPes e).length)
    (bound : index < count) :
    T.deliveredRange F partials launch e ((T.executionPes e).getD rank 0) first count staging index =
      completeOutput T partials e (first + index) := by
  have shifted : orderedSum (T.peerPartials partials e first) index = completeOutput T partials e (first + index) := by
    rw [completeOutput, orderedSum_eq, orderedSum_eq, Topology.peerPartials, List.map_map, List.map_map]
    rfl
  simp only [Topology.deliveredRange]
  split
  · exact (reduceTpPartials_staged F.lanes_pos launch.threads_pos bound (.refl _) staging).trans shifted
  · next single =>
    obtain ⟨pe, pes⟩ := List.length_eq_one_iff.mp (show (T.executionPes e).length = 1 by omega)
    obtain rfl : rank = 0 := by omega
    simp [completeOutput, orderedSum, pes]

theorem completePuts_data {rank block k : Nat} {staging : Nat → V} {put : OutputPut F.Byte}
    (member : rank < (T.executionPes e).length) (issued : put ∈ completePuts T F partials launch e rank block staging)
    (bound : k < put.size) : put.data k = F.bytes (completeOutput T partials e) (put.begin + k) := by
  simp only [completePuts] at issued
  split at issued
  · cases issued
  · obtain ⟨destination, -, rfl⟩ := List.mem_map.mp issued
    dsimp only at bound ⊢
    have inside : k / F.size < _ := (Nat.div_lt_iff_lt_mul F.size_pos).mpr bound
    rw [Scalar.bytes, Scalar.bytes, deliveredRange_eq member inside, Nat.mul_comm, Nat.mul_add_div F.size_pos,
      Nat.mul_add_mod]

theorem completeDestinations_nodup : (T.completeDestinations e).Nodup := by
  simp only [Topology.completeDestinations]
  split
  · exact Topology.atnagentPes_nodup
  · exact Topology.atnagentPes_nodup.sublist (List.take_sublist _ _)

/-- A block puts each byte of its part to each destination once. -/
theorem completePuts_once {rank block pe offset : Nat} {staging : Nat → V} :
    (completePuts T F partials launch e rank block staging).countP (·.covers pe offset) =
      if pe ∈ T.completeDestinations e ∧
          (blockRange (T.rankRange e rank).1 (T.rankRange e rank).2 block launch.blockCount).1 * F.size ≤ offset ∧
            offset < (blockRange (T.rankRange e rank).1 (T.rankRange e rank).2 block launch.blockCount).2 * F.size then 1
      else 0 := by
  simp only [completePuts]
  generalize (blockRange (T.rankRange e rank).1 (T.rankRange e rank).2 block launch.blockCount).1 = first
  generalize (blockRange (T.rankRange e rank).1 (T.rankRange e rank).2 block launch.blockCount).2 = stop
  have size : stop * F.size = first * F.size + (stop - first) * F.size ∨ stop * F.size ≤ first * F.size := by
    rcases Nat.le_total first stop with le | ge
    · left
      rw [← Nat.add_mul, Nat.add_sub_cancel' le]
    · right
      exact Nat.mul_le_mul_right _ ge
  have shrunk : stop ≤ first → (stop - first) * F.size = 0 := by
    intro le
    rw [Nat.sub_eq_zero_of_le le, Nat.zero_mul]
  split
  · next empty =>
    rw [empty, if_neg (by omega)]
    rfl
  · rw [List.countP_map]
    by_cases inside : first * F.size ≤ offset ∧ offset < stop * F.size
    · have low := inside.1
      have high : offset < first * F.size + (stop - first) * F.size := by omega
      have picks : ((fun put : OutputPut F.Byte => put.covers pe offset) ∘ fun destination =>
          { rank := rank
            block := block
            destination := destination
            begin := first * F.size
            size := (stop - first) * F.size
            data :=
              F.bytes
                (T.deliveredRange F partials launch e ((T.executionPes e).getD rank 0) first (stop - first) staging) }) =
          fun destination => destination == pe := by
        funext destination
        simp [OutputPut.covers, low, high, beq_eq_decide]
      rw [picks]
      have counted := completeDestinations_nodup.count (a := pe) (l := T.completeDestinations e)
      simpa [List.count, inside] using counted
    · rw [if_neg fun all => inside all.2]
      apply List.countP_eq_zero.mpr
      intro destination _ covered
      simp only [Function.comp, OutputPut.covers, Bool.and_eq_true, decide_eq_true_eq] at covered
      obtain ⟨⟨-, low⟩, high⟩ := covered
      rcases size with same | smaller
      · exact inside ⟨low, by omega⟩
      · have gone := shrunk (Nat.le_of_mul_le_mul_right smaller F.size_pos)
        omega

/-- The complete output arrives everywhere it is sent to. -/
theorem Topology.Deliverable.completeDelivered (deliverable : T.Deliverable F e) (launches : Nat → Launch)
    (staging : Nat → Nat → Nat → V) :
    Delivered T F e (T.completeDestinations e) (fun _ => completeOutput T partials e)
      ((List.range (T.executionPes e).length).flatMap fun rank =>
        (List.range (launches rank).blockCount).flatMap fun block =>
          completePuts T F partials (launches rank) e rank block (staging rank block)) := by
  have bytes := deliverable.payloadBytes_eq
  constructor
  · intro pe offset
    have ofRank (rank : Nat) :
        ((List.range (launches rank).blockCount).flatMap fun block =>
            completePuts T F partials (launches rank) e rank block (staging rank block)).countP (·.covers pe offset) =
          if pe ∈ T.completeDestinations e ∧
              (shareBegin e.payloadRows (T.executionPes e).length rank *
                    (T.instanceEntry e.key.instanceIndex).hiddenSize * F.size ≤ offset ∧
                offset < shareBegin e.payloadRows (T.executionPes e).length (rank + 1) *
                    (T.instanceEntry e.key.instanceIndex).hiddenSize * F.size) then 1
          else 0 := by
      rw [countP_flatMap_of _ fun block _ => completePuts_once]
      by_cases receives : pe ∈ T.completeDestinations e
      · simp only [receives, true_and, blockRange_eq]
        have mono : Monotone fun block =>
            ((T.rankRange e rank).1 + cutBegin (T.rankRange e rank).2 (launches rank).blockCount block) * F.size :=
          fun _ _ le => Nat.mul_le_mul_right _ (Nat.add_le_add_left (cutBegin_mono le) _)
        rw [count_tiles mono, cutBegin_zero, cutBegin_blocks (launches rank).blockCount_pos, rankRange_end, Nat.add_zero]
        rfl
      · simp [receives]
    rw [countP_flatMap_of _ fun rank _ => ofRank rank]
    by_cases receives : pe ∈ T.completeDestinations e
    · simp only [receives, true_and]
      have mono : Monotone fun rank =>
          shareBegin e.payloadRows (T.executionPes e).length rank * (T.instanceEntry e.key.instanceIndex).hiddenSize *
            F.size :=
        fun _ _ le => Nat.mul_le_mul_right _ (Nat.mul_le_mul_right _ (shareBegin_mono le))
      rw [count_tiles mono, shareBegin_zero, shareBegin_workers deliverable.width_pos, bytes]
      simp
    · simp [receives]
  · intro put member
    obtain ⟨rank, ranked, member⟩ := List.mem_flatMap.mp member
    obtain ⟨block, blocked, member⟩ := List.mem_flatMap.mp member
    have within := @blockRange_le (T.rankRange e rank).1 (T.rankRange e rank).2 block _ (List.mem_range.mp blocked)
    have rows := rankRange_le deliverable.width_pos (List.mem_range.mp ranked)
    simp only [completePuts] at member
    split at member
    · cases member
    · obtain ⟨destination, -, rfl⟩ := List.mem_map.mp member
      dsimp only
      rw [← Nat.add_mul, Nat.add_sub_cancel' within.1, bytes]
      exact Nat.mul_le_mul_right _ (within.2.trans rows)
  · intro put member
    obtain ⟨rank, -, member⟩ := List.mem_flatMap.mp member
    obtain ⟨block, -, member⟩ := List.mem_flatMap.mp member
    simp only [completePuts] at member
    split at member
    · cases member
    · obtain ⟨destination, listed, rfl⟩ := List.mem_map.mp member
      exact listed
  · intro put member k bound
    obtain ⟨rank, ranked, member⟩ := List.mem_flatMap.mp member
    obtain ⟨block, -, member⟩ := List.mem_flatMap.mp member
    exact completePuts_data (List.mem_range.mp ranked) member bound

/-- The PEs that the direct partials go to. -/
def directDestinations (T : Topology) (e : LaneExecution) : List Nat :=
  (T.atnagentPes e.key.instanceIndex).take (T.executionPes e).length

/-- The partial that goes to a PE. -/
def directOutput (T : Topology) (partials : Nat → Nat → V) (e : LaneExecution) (pe : Nat) : Nat → V :=
  partials ((T.executionPes e).getD ((T.atnagentPes e.key.instanceIndex).idxOf pe) 0)

theorem directPuts_once {rank block pe offset : Nat} :
    (directPuts T F partials launch e rank block).countP (·.covers pe offset) =
      if (T.atnagentPes e.key.instanceIndex).getD rank 0 = pe ∧
          (blockRange 0 (T.payloadBytes e) block launch.blockCount).1 ≤ offset ∧
            offset < (blockRange 0 (T.payloadBytes e) block launch.blockCount).2 then 1
      else 0 := by
  simp only [directPuts]
  generalize (blockRange 0 (T.payloadBytes e) block launch.blockCount).1 = first
  generalize (blockRange 0 (T.payloadBytes e) block launch.blockCount).2 = stop
  split
  · next empty =>
    rw [empty, if_neg (by omega)]
    rfl
  · rw [List.countP_singleton]
    by_cases here : (T.atnagentPes e.key.instanceIndex).getD rank 0 = pe ∧ first ≤ offset ∧ offset < stop
    · obtain ⟨same, low, high⟩ := here
      have covered : offset < first + (stop - first) := by omega
      have covers : (decide ((T.atnagentPes e.key.instanceIndex).getD rank 0 = pe) && decide (first ≤ offset) &&
          decide (offset < first + (stop - first))) = true := by
        rw [decide_eq_true same, decide_eq_true low, decide_eq_true covered]
        rfl
      exact (if_pos covers).trans (if_pos ⟨same, low, high⟩).symm
    · rw [if_neg here, if_neg]
      intro covered
      simp only [OutputPut.covers, Bool.and_eq_true, decide_eq_true_eq] at covered
      exact here ⟨covered.1.1, covered.1.2, by omega⟩

/-- Each partial arrives at the AtnAgent of its rank. -/
theorem directDelivered (launches : Nat → Launch)
    (narrow : (T.executionPes e).length ≤ (T.atnagentPes e.key.instanceIndex).length) :
    Delivered T F e (directDestinations T e) (directOutput T partials e)
      ((List.range (T.executionPes e).length).flatMap fun rank =>
        (List.range (launches rank).blockCount).flatMap fun block =>
          directPuts T F partials (launches rank) e rank block) := by
  have nodup : (T.atnagentPes e.key.instanceIndex).Nodup := Topology.atnagentPes_nodup
  have issued {put : OutputPut F.Byte} {rank block : Nat} (member : put ∈ directPuts T F partials (launches rank) e rank block)
      (ranked : rank < (T.executionPes e).length) (blocked : block < (launches rank).blockCount) :
      put.begin + put.size ≤ T.payloadBytes e ∧ put.destination = (T.atnagentPes e.key.instanceIndex).getD rank 0 ∧
        ∀ k, put.data k = F.bytes (partials ((T.executionPes e).getD rank 0)) (put.begin + k) := by
    have within := @blockRange_le 0 (T.payloadBytes e) block _ blocked
    simp only [directPuts] at member
    split at member
    · cases member
    · obtain rfl := List.mem_singleton.mp member
      exact ⟨by dsimp only; omega, rfl, fun _ => rfl⟩
  have listed {rank : Nat} (ranked : rank < (T.executionPes e).length) :
      (T.atnagentPes e.key.instanceIndex).getD rank 0 ∈ directDestinations T e ∧
        (T.atnagentPes e.key.instanceIndex).idxOf ((T.atnagentPes e.key.instanceIndex).getD rank 0) = rank := by
    have bound : rank < (T.atnagentPes e.key.instanceIndex).length := by omega
    rw [List.getD_eq_getElem _ _ bound]
    refine ⟨?_, nodup.idxOf_getElem rank bound⟩
    rw [directDestinations, List.mem_take_iff_getElem]
    exact ⟨rank, by omega, rfl⟩
  constructor
  · intro pe offset
    have ofRank (rank : Nat) :
        ((List.range (launches rank).blockCount).flatMap fun block =>
            directPuts T F partials (launches rank) e rank block).countP (·.covers pe offset) =
          if (T.atnagentPes e.key.instanceIndex).getD rank 0 = pe ∧ offset < T.payloadBytes e then 1 else 0 := by
      rw [countP_flatMap_of _ fun block _ => directPuts_once]
      by_cases receives : (T.atnagentPes e.key.instanceIndex).getD rank 0 = pe
      · simp only [receives, true_and, blockRange_eq, Nat.zero_add]
        rw [count_tiles cutBegin_mono, cutBegin_zero, cutBegin_blocks (launches rank).blockCount_pos]
        simp
      · simp only [receives, false_and, if_false]
        simp
    rw [countP_flatMap_of _ fun rank _ => ofRank rank]
    have ranks : (List.range (T.executionPes e).length).map (fun rank => (T.atnagentPes e.key.instanceIndex).getD rank 0) =
        directDestinations T e := by
      apply List.ext_getElem
      · simp [directDestinations, narrow]
      · intro rank bound _
        have inside : rank < (T.atnagentPes e.key.instanceIndex).length := by
          simp at bound
          omega
        simp [directDestinations, inside]
    have counted : (List.range (T.executionPes e).length).countP
          (fun rank => (T.atnagentPes e.key.instanceIndex).getD rank 0 = pe) =
        if pe ∈ directDestinations T e then 1 else 0 := by
      have distinct : (directDestinations T e).Nodup := nodup.sublist (List.take_sublist _ _)
      rw [← distinct.count, ← ranks, List.count, List.countP_map]
      rfl
    by_cases live : offset < T.payloadBytes e
    · simp only [live, and_true]
      exact counted
    · simp [live]
  · intro put member
    obtain ⟨rank, ranked, member⟩ := List.mem_flatMap.mp member
    obtain ⟨block, blocked, member⟩ := List.mem_flatMap.mp member
    exact (issued member (List.mem_range.mp ranked) (List.mem_range.mp blocked)).1
  · intro put member
    obtain ⟨rank, ranked, member⟩ := List.mem_flatMap.mp member
    obtain ⟨block, blocked, member⟩ := List.mem_flatMap.mp member
    rw [(issued member (List.mem_range.mp ranked) (List.mem_range.mp blocked)).2.1]
    exact (listed (List.mem_range.mp ranked)).1
  · intro put member k _
    obtain ⟨rank, ranked, member⟩ := List.mem_flatMap.mp member
    obtain ⟨block, blocked, member⟩ := List.mem_flatMap.mp member
    obtain ⟨-, destination, data⟩ := issued member (List.mem_range.mp ranked) (List.mem_range.mp blocked)
    rw [data, destination, directOutput, (listed (List.mem_range.mp ranked)).2]

/-- Whatever order the bytes land in, a receiver holds its content. -/
theorem Delivered.lands {receivers : List Nat} {content : Nat → Nat → V} {puts : List (OutputPut F.Byte)}
    (delivered : Delivered T F e receivers content puts) {order : List ((Nat × Nat) × F.Byte)}
    (permuted : order.Perm (puts.flatMap OutputPut.writes)) (memory : Nat × Nat → F.Byte) {pe offset : Nat}
    (receives : pe ∈ receivers) (live : offset < T.payloadBytes e) :
    scatter memory order (pe, offset) = F.bytes (content pe) offset := by
  have once := delivered.once pe offset
  rw [if_pos ⟨receives, live⟩] at once
  apply scatter_written
  · intro write member here
    obtain ⟨put, issued, written⟩ := List.mem_flatMap.mp (permuted.mem_iff.mp member)
    obtain ⟨k, bound, rfl⟩ := List.mem_map.mp written
    obtain ⟨rfl, rfl⟩ := Prod.mk.inj here
    exact delivered.data put issued k (List.mem_range.mp bound)
  · obtain ⟨put, issued, covers⟩ := List.countP_pos_iff.mp (Nat.lt_of_lt_of_eq Nat.zero_lt_one once.symm)
    simp only [OutputPut.covers, Bool.and_eq_true, decide_eq_true_eq] at covers
    obtain ⟨⟨destination, low⟩, high⟩ := covers
    refine ⟨((put.destination, put.begin + (offset - put.begin)), put.data (offset - put.begin)), ?_, ?_⟩
    · apply permuted.mem_iff.mpr
      exact List.mem_flatMap.mpr ⟨put, issued, List.mem_map.mpr ⟨offset - put.begin, List.mem_range.mpr (by omega), rfl⟩⟩
    · dsimp only
      rw [destination, Nat.add_sub_cancel' low]

/-- The puts of a complete delivery; ranks without rows have none. -/
theorem Topology.Deliverable.deliver_complete (deliverable : T.Deliverable F e) (launches : Nat → Launch)
    (staging : Nat → Nat → Nat → V) {delivery : DeliveryVariant}
    (variant : deliveryVariant (T.instanceEntry e.key.instanceIndex) e.outputRequirement = some delivery)
    (complete : delivery ≠ .directPartial)
    (wide : e.outputRequirement = .groupSumComplete →
      (T.atnagentPes e.key.instanceIndex).length < (T.executionPes e).length) :
    T.deliver F partials launches e staging =
      some
        ((List.range (T.executionPes e).length).flatMap fun rank =>
          (List.range (launches rank).blockCount).flatMap fun block =>
            completePuts T F partials (launches rank) e rank block (staging rank block)) := by
  apply mapM_flatten
  intro rank ranked
  have member := List.mem_range.mp ranked
  simp only [Topology.deliverRank, Topology.deliveryBranch, variant, Option.map_some, if_neg complete]
  by_cases active : rank < T.activeReaderCount e
  · simp only [if_pos active]
    exact mapM_flatten _ fun block _ => deliverable.complete member wide
  · simp only [if_neg active]
    have idle : (T.rankRange e rank).2 = 0 := by
      rw [rankRange_eq]
      have share : 0 < e.payloadRows / (T.executionPes e).length +
          (if rank < e.payloadRows % (T.executionPes e).length then 1 else 0) ↔ rank < T.activeReaderCount e :=
        share_pos_iff deliverable.width_pos member
      rw [Nat.eq_zero_of_not_pos (share.not.mpr active), Nat.zero_mul]
    have empty (block : Nat) : completePuts T F partials (launches rank) e rank block (staging rank block) = [] := by
      have ends : cutBegin 0 (launches rank).blockCount block = cutBegin 0 (launches rank).blockCount (block + 1) := by
        simp [cutBegin]
      simp [completePuts, blockRange_eq, idle, ends]
    rw [List.flatMap_eq_nil_iff.mpr fun block _ => empty block]

theorem Topology.Deliverable.deliver_direct (deliverable : T.Deliverable F e) (launches : Nat → Launch)
    (staging : Nat → Nat → Nat → V)
    (variant : deliveryVariant (T.instanceEntry e.key.instanceIndex) e.outputRequirement = some .directPartial)
    (requirement : e.outputRequirement = .groupSumComplete)
    (narrow : (T.executionPes e).length ≤ (T.atnagentPes e.key.instanceIndex).length) :
    T.deliver F partials launches e staging =
      some
        ((List.range (T.executionPes e).length).flatMap fun rank =>
          (List.range (launches rank).blockCount).flatMap fun block =>
            directPuts T F partials (launches rank) e rank block) := by
  apply mapM_flatten
  intro rank ranked
  simp only [Topology.deliverRank, Topology.deliveryBranch, variant, Option.map_some, if_true]
  exact mapM_flatten _ fun block _ => deliverable.direct (List.mem_range.mp ranked) requirement narrow

/-! ## Correctness -/

/-- The ranks that read their output buffer. -/
def Topology.receives (T : Topology) (e : LaneExecution) (rank : Nat) : Prop :=
  ∃ delivery, deliveryVariant (T.instanceEntry e.key.instanceIndex) e.outputRequirement = some delivery ∧
    T.receivesOutput e.key.instanceIndex rank delivery

theorem completeOutput_eq {x : Nat} :
    completeOutput T partials e x =
      ∑ rank ∈ Finset.range (T.executionPes e).length, partials ((T.executionPes e).getD rank 0) x := by
  rw [completeOutput, orderedSum_eq, List.map_map]
  generalize T.executionPes e = pes
  induction pes with
  | nil => rfl
  | cons pe rest ih =>
    rw [List.length_cons, Finset.sum_range_succ', List.map_cons, List.sum_cons, ih, add_comm]
    rfl

theorem mem_directDestinations {rank : Nat} (bound : rank < (T.atnagentPes e.key.instanceIndex).length) :
    T.atnagentPe e.key.instanceIndex rank ∈ directDestinations T e ↔ rank < (T.executionPes e).length := by
  have nodup : (T.atnagentPes e.key.instanceIndex).Nodup := Topology.atnagentPes_nodup
  rw [directDestinations, Topology.atnagentPe, List.getD_eq_getElem _ _ bound, List.mem_take_iff_getElem]
  constructor
  · rintro ⟨other, inside, same⟩
    have := nodup.getElem_inj_iff.mp same
    omega
  · intro inside
    exact ⟨rank, by omega, rfl⟩

/-- How an invocation is delivered: its puts, who receives, and what. -/
structure Routed (T : Topology) (F : Scalar V) (partials : Nat → Nat → V) (e : LaneExecution) (receivers : List Nat)
    (content : Nat → Nat → V) (puts : List (OutputPut F.Byte)) : Prop where
  delivered : Delivered T F e receivers content puts
  known : receivers ⊆ T.atnagentPes e.key.instanceIndex
  receives :
    ∀ rank < (T.atnagentPes e.key.instanceIndex).length,
      T.receives e rank ↔ T.atnagentPe e.key.instanceIndex rank ∈ receivers
  perRank :
    e.outputRequirement = .perRankComplete → ∀ rank < (T.atnagentPes e.key.instanceIndex).length,
      T.atnagentPe e.key.instanceIndex rank ∈ receivers ∧
        content (T.atnagentPe e.key.instanceIndex rank) = completeOutput T partials e
  groupSum :
    e.outputRequirement = .groupSumComplete → ∀ x,
      ∑ rank ∈ Finset.range (T.atnagentPes e.key.instanceIndex).length,
          (if T.atnagentPe e.key.instanceIndex rank ∈ receivers then content (T.atnagentPe e.key.instanceIndex rank) x
            else 0) =
        completeOutput T partials e x

theorem Topology.Deliverable.routed (deliverable : T.Deliverable F e) (launches : Nat → Launch)
    (partials : Nat → Nat → V) (staging : Nat → Nat → Nat → V) :
    ∃ puts receivers content, T.deliver F partials launches e staging = some puts ∧
      Routed T F partials e receivers content puts := by
  have ranks := deliverable.ranks_eq
  have width := deliverable.width_eq
  have atn {rank : Nat} (bound : rank < (T.atnagentPes e.key.instanceIndex).length) :
      T.atnagentPe e.key.instanceIndex rank ∈ T.atnagentPes e.key.instanceIndex := by
    rw [Topology.atnagentPe, List.getD_eq_getElem _ _ bound]
    exact List.getElem_mem bound
  rcases deliverable.requirement with requirement | requirement
  · have variant : deliveryVariant (T.instanceEntry e.key.instanceIndex) e.outputRequirement = some .replicatedComplete := by
      rw [requirement]
      rfl
    have everywhere : T.completeDestinations e = T.atnagentPes e.key.instanceIndex := by
      simp [Topology.completeDestinations, requirement]
    refine ⟨_, _, _, deliverable.deliver_complete launches staging variant (by decide) (by simp [requirement]),
      deliverable.completeDelivered launches staging, ?_, ?_, ?_, ?_⟩
    · rw [everywhere]
      exact List.Subset.refl _
    · intro rank bound
      rw [everywhere]
      exact iff_of_true ⟨_, variant, rfl⟩ (atn bound)
    · intro _ rank bound
      rw [everywhere]
      exact ⟨atn bound, rfl⟩
    · intro other
      rw [requirement] at other
      cases other
  · have granted := deliverable.granted requirement
    by_cases narrow : (T.executionPes e).length ≤ (T.atnagentPes e.key.instanceIndex).length
    · have variant : deliveryVariant (T.instanceEntry e.key.instanceIndex) e.outputRequirement = some .directPartial := by
        rw [width, ranks] at narrow
        rw [requirement, deliveryVariant, if_pos granted, if_pos narrow]
      refine ⟨_, _, _, deliverable.deliver_direct launches staging variant requirement narrow,
        directDelivered launches narrow, List.take_subset _ _, ?_, ?_, ?_⟩
      · intro rank bound
        rw [mem_directDestinations bound, Topology.receives, variant, width]
        simp [Topology.receivesOutput]
      · intro other
        rw [requirement] at other
        cases other
      · intro _ x
        rw [completeOutput_eq]
        have nodup : (T.atnagentPes e.key.instanceIndex).Nodup := Topology.atnagentPes_nodup
        symm
        calc
          _ = ∑ rank ∈ Finset.range (T.executionPes e).length,
                (if T.atnagentPe e.key.instanceIndex rank ∈ directDestinations T e then
                  directOutput T partials e (T.atnagentPe e.key.instanceIndex rank) x
                else 0) := by
            apply Finset.sum_congr rfl
            intro rank member
            have inside := Finset.mem_range.mp member
            have bound : rank < (T.atnagentPes e.key.instanceIndex).length := by omega
            have own : (T.atnagentPes e.key.instanceIndex).idxOf (T.atnagentPe e.key.instanceIndex rank) = rank := by
              rw [Topology.atnagentPe, List.getD_eq_getElem _ _ bound, nodup.idxOf_getElem rank bound]
            rw [if_pos ((mem_directDestinations bound).mpr inside), directOutput, own]
          _ = _ := by
            apply Finset.sum_subset (Finset.range_mono narrow)
            intro rank member outside
            have bound := Finset.mem_range.mp member
            exact if_neg fun receives => outside (Finset.mem_range.mpr ((mem_directDestinations bound).mp receives))
    · have variant : deliveryVariant (T.instanceEntry e.key.instanceIndex) e.outputRequirement = some .singleComplete := by
        rw [width, ranks] at narrow
        rw [requirement, deliveryVariant, if_pos granted, if_neg narrow]
      have only : T.completeDestinations e = (T.atnagentPes e.key.instanceIndex).take 1 := by
        simp [Topology.completeDestinations, requirement]
      have first {rank : Nat} (bound : rank < (T.atnagentPes e.key.instanceIndex).length) :
          T.atnagentPe e.key.instanceIndex rank ∈ T.completeDestinations e ↔ rank = 0 := by
        have nodup : (T.atnagentPes e.key.instanceIndex).Nodup := Topology.atnagentPes_nodup
        rw [only, Topology.atnagentPe, List.getD_eq_getElem _ _ bound, List.mem_take_iff_getElem]
        constructor
        · rintro ⟨other, inside, same⟩
          have := nodup.getElem_inj_iff.mp same
          omega
        · rintro rfl
          exact ⟨0, by omega, rfl⟩
      refine ⟨_, _, _, deliverable.deliver_complete launches staging variant (by decide) fun _ => by omega,
        deliverable.completeDelivered launches staging, ?_, ?_, ?_, ?_⟩
      · rw [only]
        exact List.take_subset _ _
      · intro rank bound
        rw [first bound, Topology.receives, variant]
        simp [Topology.receivesOutput]
      · intro other
        rw [requirement] at other
        cases other
      · intro _ x
        rw [Finset.sum_eq_single 0]
        · exact if_pos ((first deliverable.ranks_pos).mpr rfl)
        · intro rank member other
          exact if_neg fun receives => other ((first (Finset.mem_range.mp member)).mp receives)
        · intro missing
          exact absurd (Finset.mem_range.mpr deliverable.ranks_pos) missing

/-- What a rank returns: what came to it, or zeros. -/
theorem Routed.materialized {receivers : List Nat} {content : Nat → Nat → V} {puts : List (OutputPut F.Byte)}
    (routed : Routed T F partials e receivers content puts) (deliverable : T.Deliverable F e)
    {order : List ((Nat × Nat) × F.Byte)} (permuted : order.Perm (puts.flatMap OutputPut.writes))
    (memory : Nat × Nat → F.Byte) (output : Nat → F.Byte) {rank : Nat}
    (bound : rank < (T.atnagentPes e.key.instanceIndex).length) :
    ∃ result, T.materializeOutput F e rank (scatter memory order) output = some result ∧
      ∀ x < e.payloadRows * (T.instanceEntry e.key.instanceIndex).hiddenSize,
        F.element result x =
          if T.atnagentPe e.key.instanceIndex rank ∈ receivers then
            content (T.atnagentPe e.key.instanceIndex rank) x
          else 0 := by
  obtain ⟨delivery, variant⟩ : ∃ delivery,
      deliveryVariant (T.instanceEntry e.key.instanceIndex) e.outputRequirement = some delivery := by
    rcases deliverable.requirement with requirement | requirement
    · exact ⟨.replicatedComplete, by rw [requirement]; rfl⟩
    · rw [requirement, deliveryVariant, if_pos (deliverable.granted requirement)]
      split
      · exact ⟨_, rfl⟩
      · exact ⟨_, rfl⟩
  have receives : T.receivesOutput e.key.instanceIndex rank delivery ↔
      T.atnagentPe e.key.instanceIndex rank ∈ receivers := by
    rw [← routed.receives rank bound, Topology.receives, variant]
    simp
  simp only [Topology.materializeOutput, variant, Option.map_some]
  refine ⟨_, rfl, ?_⟩
  intro x inside
  have live {k : Nat} (small : k < F.size) : x * F.size + k < T.payloadBytes e := by
    rw [deliverable.payloadBytes_eq]
    calc
      x * F.size + k < (x + 1) * F.size := by rw [Nat.succ_mul]; omega
      _ ≤ _ := Nat.mul_le_mul_right _ inside
  by_cases here : T.atnagentPe e.key.instanceIndex rank ∈ receivers
  · rw [if_pos here]
    apply F.element_of_bytes
    intro k small
    rw [if_pos (live small), if_pos (receives.mpr here), routed.delivered.lands permuted memory here (live small)]
  · rw [if_neg here]
    apply F.element_of_zero
    intro k small
    rw [if_pos (live small), if_neg (receives.not.mpr here)]

/-- One invocation is delivered: with per-rank output every rank returns the sum of
all partials, with group-sum output the ranks' results add up to it; each byte that
is read is put once, no put leaves the payload, and those that are put to are those
that read. -/
theorem delivery_correct (T : Topology) {V : Type} [AddCommMonoid V] (F : Scalar V) (e : LaneExecution)
    (deliverable : T.Deliverable F e) (launches : Nat → Launch) (partials : Nat → Nat → V)
    (staging : Nat → Nat → Nat → V) :
    ∃ puts, T.deliver F partials launches e staging = some puts ∧
      (∀ memory order, order.Perm (puts.flatMap OutputPut.writes) → ∀ outputs : Nat → Nat → F.Byte,
        ∃ results : Nat → Nat → F.Byte,
          (∀ rank < (T.atnagentPes e.key.instanceIndex).length,
              T.materializeOutput F e rank (scatter memory order) (outputs rank) = some (results rank)) ∧
            ∀ row < e.payloadRows, ∀ column < (T.instanceEntry e.key.instanceIndex).hiddenSize,
              (e.outputRequirement = .perRankComplete →
                  ∀ rank < (T.atnagentPes e.key.instanceIndex).length,
                    F.element (results rank) (row * (T.instanceEntry e.key.instanceIndex).hiddenSize + column) =
                      ∑ source ∈ Finset.range (T.executionPes e).length,
                        partials ((T.executionPes e).getD source 0)
                          (row * (T.instanceEntry e.key.instanceIndex).hiddenSize + column)) ∧
                (e.outputRequirement = .groupSumComplete →
                  ∑ rank ∈ Finset.range (T.atnagentPes e.key.instanceIndex).length,
                      F.element (results rank) (row * (T.instanceEntry e.key.instanceIndex).hiddenSize + column) =
                    ∑ source ∈ Finset.range (T.executionPes e).length,
                      partials ((T.executionPes e).getD source 0)
                        (row * (T.instanceEntry e.key.instanceIndex).hiddenSize + column))) ∧
        (∀ rank < (T.atnagentPes e.key.instanceIndex).length, T.receives e rank → ∀ offset < T.payloadBytes e,
            puts.countP (·.covers (T.atnagentPe e.key.instanceIndex rank) offset) = 1) ∧
          (∀ put ∈ puts, put.begin + put.size ≤ T.payloadBytes e) ∧
            ∀ pe, (∃ put ∈ puts, put.destination = pe ∧ 0 < put.size) ↔
              ∃ rank < (T.atnagentPes e.key.instanceIndex).length,
                T.atnagentPe e.key.instanceIndex rank = pe ∧ T.receives e rank := by
  obtain ⟨puts, receivers, content, issued, routed⟩ := deliverable.routed launches partials staging
  refine ⟨puts, issued, ?_, ?_, routed.delivered.within, ?_⟩
  · intro memory order permuted outputs
    have materialized (rank : Nat) : ∃ result, rank < (T.atnagentPes e.key.instanceIndex).length →
        T.materializeOutput F e rank (scatter memory order) (outputs rank) = some result ∧
          ∀ x < e.payloadRows * (T.instanceEntry e.key.instanceIndex).hiddenSize,
            F.element result x =
              if T.atnagentPe e.key.instanceIndex rank ∈ receivers then
                content (T.atnagentPe e.key.instanceIndex rank) x
              else 0 := by
      by_cases bound : rank < (T.atnagentPes e.key.instanceIndex).length
      · obtain ⟨result, returned, elements⟩ := routed.materialized deliverable permuted memory (outputs rank) bound
        exact ⟨result, fun _ => ⟨returned, elements⟩⟩
      · exact ⟨outputs rank, fun inside => absurd inside bound⟩
    choose results returned using materialized
    refine ⟨results, fun rank bound => (returned rank bound).1, ?_⟩
    intro row rows column columns
    have inside : row * (T.instanceEntry e.key.instanceIndex).hiddenSize + column <
        e.payloadRows * (T.instanceEntry e.key.instanceIndex).hiddenSize := by
      calc
        row * (T.instanceEntry e.key.instanceIndex).hiddenSize + column <
            (row + 1) * (T.instanceEntry e.key.instanceIndex).hiddenSize := by rw [Nat.succ_mul]; omega
        _ ≤ _ := Nat.mul_le_mul_right _ rows
    rw [← completeOutput_eq]
    constructor
    · intro requirement rank bound
      obtain ⟨receives, content⟩ := routed.perRank requirement rank bound
      rw [(returned rank bound).2 _ inside, if_pos receives, content]
    · intro requirement
      rw [← routed.groupSum requirement]
      apply Finset.sum_congr rfl
      intro rank member
      exact (returned rank (Finset.mem_range.mp member)).2 _ inside
  · intro rank bound receives offset live
    rw [routed.delivered.once, if_pos ⟨(routed.receives rank bound).mp receives, live⟩]
  · intro pe
    constructor
    · rintro ⟨put, member, rfl, -⟩
      have received := routed.delivered.addressed put member
      obtain ⟨rank, bound, same⟩ := List.mem_iff_getElem.mp (routed.known received)
      have pe : T.atnagentPe e.key.instanceIndex rank = put.destination := by
        rw [Topology.atnagentPe, List.getD_eq_getElem _ _ bound, same]
      exact ⟨rank, bound, pe, (routed.receives rank bound).mpr (pe ▸ received)⟩
    · rintro ⟨rank, bound, rfl, receives⟩
      have some : 0 < T.payloadBytes e := by
        rw [deliverable.payloadBytes_eq]
        exact Nat.mul_pos (Nat.mul_pos deliverable.rows_pos deliverable.hidden_pos) F.size_pos
      have once := routed.delivered.once (T.atnagentPe e.key.instanceIndex rank) 0
      rw [if_pos ⟨(routed.receives rank bound).mp receives, some⟩] at once
      obtain ⟨put, member, covers⟩ := List.countP_pos_iff.mp (Nat.lt_of_lt_of_eq Nat.zero_lt_one once.symm)
      simp only [OutputPut.covers, Bool.and_eq_true, decide_eq_true_eq] at covers
      exact ⟨put, member, covers.1.1, by omega⟩

end Deliverable

/-- Three FfnAgents deliver for two AtnAgent ranks, of which one reads. -/
def threeToTwo : Topology where
  atnagentCount := 2
  ffnagentCount := 3
  executorLaneCount := 1
  lanePayloadCapacityBytes := 16
  instances :=
    [{  groupSumCompleteAdmitted := true
        hiddenSize := 1
        payloadRowBytes := 2
        decodePayloadRowCapacity := 8
        prefillPayloadRowCapacity := 8
        atnTpSize := 2
        atnDpSize := 1
        atnagentIndices := [0, 1]
        layers := [⟨.dense, 0, [0, 1, 2]⟩] }]
  valid := by decide
  capacities _ _ _ := [⟨8, 0⟩]
  signatureCount _ := 1
  deliveryBlockCount := 2
  deliveryBlockCount_pos := Nat.two_pos

/-- Two bytes of a number: its name and which of the two. -/
def twoBytes : Scalar Nat where
  Byte := Nat × Nat
  size := 2
  size_pos := Nat.two_pos
  size_le := by decide
  store value k := (value, k)
  load bytes := (bytes 0).1
  zeroByte := (0, 0)
  load_store value bytes same := by rw [same 0 (by decide)]
  load_zero bytes zero := by rw [zero 0 (by decide)]

theorem delivery_correct_single :
    ∃ puts, threeToTwo.deliver twoBytes (fun pe index => 10 * pe + index) (fun _ => ⟨2, by decide, 32, by decide, 0, 0⟩)
        ⟨⟨0, 1⟩, 1, 0, 5, .groupSumComplete⟩ (fun _ _ _ => 0) = some puts ∧
      (∀ put ∈ puts, put.begin + put.size ≤ 10) ∧ ∀ offset < 10, puts.countP (·.covers 0 offset) = 1 := by
  have deliverable : threeToTwo.Deliverable twoBytes ⟨⟨0, 1⟩, 1, 0, 5, .groupSumComplete⟩ :=
    ⟨by decide, by decide, by decide, by decide, by decide, by decide, ⟨8, rfl⟩, fun _ => rfl⟩
  obtain ⟨puts, issued, -, once, within, -⟩ :=
    delivery_correct threeToTwo twoBytes _ deliverable (fun _ => ⟨2, by decide, 32, by decide, 0, 0⟩)
      (fun pe index => 10 * pe + index) (fun _ _ _ => 0)
  exact ⟨puts, issued, within, once 0 (by decide) ⟨.singleComplete, rfl, rfl⟩⟩

end CrossPool.Fabric
