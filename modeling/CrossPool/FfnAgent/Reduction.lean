import CrossPool.Lib.Loops
import CrossPool.Fabric.Delivery
import Mathlib.Data.Nat.Bitwise

/-!
# Reduction of TP partials

The reduction of one block at the addresses it accesses: a scalar prologue up to the
first place where the local partial and the staging buffer are both aligned, `uint4`s
from there, and a scalar epilogue. Bytes, scalars and the accumulator are of any types,
and the addition is any operation. The partials are not written while they are read.
-/

namespace CrossPool.FfnAgent

open CrossPool.Lib
open CrossPool.Fabric (alignedBegin alignedBegin_le)

/-- A payload type with the type it is summed in. A `uint4` is a whole number of
scalars, or its `bit_cast` would not compile. -/
structure Accumulation (Byte Scalar Float : Type) where
  size : Nat
  lanes : Nat
  lanes_mul_size : lanes * size = 16
  load : List Byte → Scalar
  widen : Scalar → Float
  zero : Float
  add : Float → Float → Float
  narrow : Float → Scalar

/-- The buffers of a PE. A peer that is mapped has its partial at an address of the same
alignment, as heaps are symmetric. -/
structure PartialBuffers where
  pe : Nat
  localPartial : Nat
  staging : Nat
  nvshmemPtr : Nat → Option Nat
  congruent : ∀ peer address, nvshmemPtr peer = some address → address % 16 = localPartial % 16

/-- One store to the staging block, with the addresses that its sums were read from. A
packed one is a `uint4`, and so are its reads. -/
structure Transfer (Scalar : Type) where
  index : Nat
  values : List Scalar
  packed : Bool
  sources : List Nat
  target : Nat

/-- The elements that a store writes. -/
def Transfer.writes {Scalar : Type} (transfer : Transfer Scalar) : List (Nat × Scalar) :=
  transfer.values.mapIdx fun lane value => (transfer.index + lane, value)

/-- `count` bytes of memory. -/
def bytesAt {Byte : Type} (memory : Nat → Byte) (address count : Nat) : List Byte :=
  (List.range count).map fun k => memory (address + k)

/-- `partial_pointer`; `none` where it aborts. -/
def PartialBuffers.partialPointer (B : PartialBuffers) (source : Nat) : Option Nat :=
  if source = B.pe then some B.localPartial else B.nvshmemPtr source

/-! ## The kernel -/

section Reduce

variable {Byte Scalar Float : Type} (A : Accumulation Byte Scalar Float) (B : PartialBuffers) (memory : Nat → Byte)
  (pes : List Nat)

/-- `ordered_sum` -/
def orderedSum (index : Nat) : Option Scalar := do
  let sum ← pes.foldlM (fun sum source => do
    let pointer ← B.partialPointer source
    pure (A.add sum (A.widen (A.load (bytesAt memory (pointer + index * A.size) A.size))))) A.zero
  pure (A.narrow sum)

/-- The addresses that are read for the elements from `index` on. -/
def sourceAddresses (index : Nat) : Option (List Nat) :=
  pes.mapM fun source => (B.partialPointer source).map (· + index * A.size)

/-- One turn of the scalar loops. -/
def scalarTransfer (index : Nat) : Option (Transfer Scalar) := do
  let value ← orderedSum A B memory pes index
  let sources ← sourceAddresses A B pes index
  pure
    { index := index
      values := [value]
      packed := false
      sources := sources
      target := B.staging + index * A.size }

/-- The sums of one `uint4`: each source is read whole and taken apart. -/
def vectorSums (index : Nat) : Option (List Float) :=
  pes.foldlM (fun sums source => do
    let pointer ← B.partialPointer source
    let packed := bytesAt memory (pointer + index * A.size) 16
    let values := (List.range A.lanes).map fun lane => A.load ((packed.drop (lane * A.size)).take A.size)
    pure (List.zipWith (fun sum value => A.add sum (A.widen value)) sums values)) (List.replicate A.lanes A.zero)

/-- One turn of the vector loop. -/
def vectorTransfer (index : Nat) : Option (Transfer Scalar) := do
  let sums ← vectorSums A B memory pes index
  let sources ← sourceAddresses A B pes index
  pure
    { index := index
      values := sums.map A.narrow
      packed := true
      sources := sources
      target := B.staging + index * A.size }

/-- Both buffers are aligned at this element. -/
def vectorAligned (index : Nat) : Bool :=
  ((B.localPartial + index * A.size) ||| (B.staging + index * A.size)) &&& (16 - 1) = 0

def vectorBegin (count : Nat) : Nat :=
  alignedBegin (vectorAligned A B) count 0

def vectorEnd (count : Nat) : Nat :=
  vectorBegin A B count + (count - vectorBegin A B count) / A.lanes * A.lanes

/-- What one thread of the block does. -/
def reduceThread (threads count thread : Nat) : Option (List (Transfer Scalar)) := do
  let first ← (strided threads (vectorBegin A B count) thread).mapM (scalarTransfer A B memory pes)
  let middle ← (strided (threads * A.lanes) (vectorEnd A B count) (vectorBegin A B count + thread * A.lanes)).mapM
    (vectorTransfer A B memory pes)
  let last ← (strided threads count (vectorEnd A B count + thread)).mapM (scalarTransfer A B memory pes)
  pure (first ++ middle ++ last)

/-- `reduce_tp_partials` on a block of `threads` threads, over `count` elements. -/
def reduceTpPartials (threads count : Nat) : Option (List (Transfer Scalar)) :=
  ((List.range threads).mapM (reduceThread A B memory pes threads count)).map List.flatten

end Reduce

/-! ## Sums -/

section Sums

variable {Byte Scalar Float : Type} {A : Accumulation Byte Scalar Float} {B : PartialBuffers} {memory : Nat → Byte}
  {pes : List Nat} {index : Nat}

theorem Accumulation.lanes_pos : 0 < A.lanes := by
  have whole := A.lanes_mul_size
  apply Nat.pos_of_ne_zero
  intro none
  rw [none] at whole
  omega

/-- Every source has its partial mapped. -/
def Mapped (B : PartialBuffers) (pes : List Nat) : Prop :=
  ∀ source ∈ pes, ∃ pointer, B.partialPointer source = some pointer

/-- The pointer to a partial that is mapped. -/
def pointerTo (B : PartialBuffers) (source : Nat) : Nat :=
  (B.partialPointer source).getD 0

/-- One element of a partial. -/
def elementAt (A : Accumulation Byte Scalar Float) (B : PartialBuffers) (memory : Nat → Byte) (index source : Nat) : Float :=
  A.widen (A.load (bytesAt memory (pointerTo B source + index * A.size) A.size))

/-- The sum before its cast. -/
def accumulated (A : Accumulation Byte Scalar Float) (B : PartialBuffers) (memory : Nat → Byte) (pes : List Nat)
    (index : Nat) : Float :=
  pes.foldl (fun sum source => A.add sum (elementAt A B memory index source)) A.zero

theorem Mapped.pointer (mapped : Mapped B pes) {source : Nat} (member : source ∈ pes) :
    B.partialPointer source = some (pointerTo B source) := by
  obtain ⟨pointer, found⟩ := mapped source member
  rw [pointerTo, found]
  rfl

/-- A loop over mapped sources is a loop over their pointers. -/
theorem Mapped.foldlM {β : Type} (mapped : Mapped B pes) (next : β → Nat → β) (start : β) :
    pes.foldlM (fun state source => do
      let pointer ← B.partialPointer source
      pure (next state pointer)) start =
      some (pes.foldl (fun state source => next state (pointerTo B source)) start) := by
  induction pes generalizing start with
  | nil => rfl
  | cons source rest ih =>
    rw [List.foldlM_cons, mapped.pointer List.mem_cons_self]
    exact ih (fun other member => mapped other (List.mem_cons_of_mem _ member)) (next start (pointerTo B source))

theorem orderedSum_eq (mapped : Mapped B pes) :
    orderedSum A B memory pes index = some (A.narrow (accumulated A B memory pes index)) := by
  have folded := mapped.foldlM
    (fun sum pointer => A.add sum (A.widen (A.load (bytesAt memory (pointer + index * A.size) A.size)))) A.zero
  rw [orderedSum, folded]
  rfl

/-- A scalar within a `uint4` is the scalar at its own address. -/
theorem bytesAt_lane {address lane : Nat} (inside : lane < A.lanes) :
    ((bytesAt memory address 16).drop (lane * A.size)).take A.size = bytesAt memory (address + lane * A.size) A.size := by
  have fits : lane * A.size + A.size ≤ 16 := by
    rw [← A.lanes_mul_size, ← Nat.succ_mul]
    exact Nat.mul_le_mul_right _ inside
  apply List.ext_getElem
  · simp only [bytesAt, List.length_take, List.length_drop, List.length_map, List.length_range]
    omega
  · intro k _ _
    simp [bytesAt, Nat.add_assoc]

theorem vectorSums_eq (mapped : Mapped B pes) :
    vectorSums A B memory pes index = some ((List.range A.lanes).map fun lane => accumulated A B memory pes (index + lane)) := by
  have folded := mapped.foldlM
    (fun sums pointer => List.zipWith (fun sum value => A.add sum (A.widen value)) sums
      ((List.range A.lanes).map fun lane =>
        A.load (((bytesAt memory (pointer + index * A.size) 16).drop (lane * A.size)).take A.size)))
    (List.replicate A.lanes A.zero)
  have step (starts : Nat → Float) :
      pes.foldl (fun sums source => List.zipWith (fun sum value => A.add sum (A.widen value)) sums
          ((List.range A.lanes).map fun lane =>
            A.load (((bytesAt memory (pointerTo B source + index * A.size) 16).drop (lane * A.size)).take A.size)))
        ((List.range A.lanes).map starts) =
        (List.range A.lanes).map fun lane =>
          pes.foldl (fun sum source => A.add sum (elementAt A B memory (index + lane) source)) (starts lane) := by
    clear folded mapped
    induction pes generalizing starts with
    | nil => rfl
    | cons source rest ih =>
      have added : List.zipWith (fun sum value => A.add sum (A.widen value)) ((List.range A.lanes).map starts)
          ((List.range A.lanes).map fun lane =>
            A.load (((bytesAt memory (pointerTo B source + index * A.size) 16).drop (lane * A.size)).take A.size)) =
          (List.range A.lanes).map fun lane => A.add (starts lane) (elementAt A B memory (index + lane) source) := by
        rw [List.zipWith_map, List.zipWith_self]
        apply List.map_congr_left
        intro lane inside
        rw [bytesAt_lane (List.mem_range.mp inside), elementAt, Nat.add_mul, Nat.add_assoc]
      rw [List.foldl_cons, added, ih]
      rfl
  have zeros : List.replicate A.lanes A.zero = (List.range A.lanes).map fun _ => A.zero := by simp
  rw [vectorSums, folded, zeros, step]
  rfl

theorem sourceAddresses_eq (mapped : Mapped B pes) :
    sourceAddresses A B pes index = some (pes.map fun source => pointerTo B source + index * A.size) := by
  apply mapM_some
  intro source member
  rw [mapped.pointer member]
  rfl

end Sums

/-! ## What a block does -/

section Block

variable {Byte Scalar Float : Type} {A : Accumulation Byte Scalar Float} {B : PartialBuffers} {memory : Nat → Byte}
  {pes : List Nat} {index count threads : Nat}

/-- A store of `width` sums from mapped sources. -/
def transferOf (A : Accumulation Byte Scalar Float) (B : PartialBuffers) (memory : Nat → Byte) (pes : List Nat)
    (packed : Bool) (width index : Nat) : Transfer Scalar where
  index := index
  values := (List.range width).map fun lane => A.narrow (accumulated A B memory pes (index + lane))
  packed := packed
  sources := pes.map fun source => pointerTo B source + index * A.size
  target := B.staging + index * A.size

theorem scalarTransfer_eq (mapped : Mapped B pes) :
    scalarTransfer A B memory pes index = some (transferOf A B memory pes false 1 index) := by
  rw [scalarTransfer, orderedSum_eq mapped, sourceAddresses_eq mapped]
  rfl

theorem vectorTransfer_eq (mapped : Mapped B pes) :
    vectorTransfer A B memory pes index = some (transferOf A B memory pes true A.lanes index) := by
  rw [vectorTransfer, vectorSums_eq mapped, sourceAddresses_eq mapped]
  simp [transferOf]

/-- What one thread stores. -/
def threadTransfers (A : Accumulation Byte Scalar Float) (B : PartialBuffers) (memory : Nat → Byte) (pes : List Nat)
    (threads count thread : Nat) : List (Transfer Scalar) :=
  (strided threads (vectorBegin A B count) thread).map (transferOf A B memory pes false 1) ++
    (strided (threads * A.lanes) (vectorEnd A B count) (vectorBegin A B count + thread * A.lanes)).map
        (transferOf A B memory pes true A.lanes) ++
      (strided threads count (vectorEnd A B count + thread)).map (transferOf A B memory pes false 1)

theorem reduceThread_eq (mapped : Mapped B pes) {thread : Nat} :
    reduceThread A B memory pes threads count thread = some (threadTransfers A B memory pes threads count thread) := by
  rw [reduceThread, mapM_some fun index _ => scalarTransfer_eq mapped, mapM_some fun index _ => vectorTransfer_eq mapped,
    mapM_some fun index _ => scalarTransfer_eq mapped]
  rfl

theorem reduceTpPartials_eq (mapped : Mapped B pes) :
    reduceTpPartials A B memory pes threads count =
      some ((List.range threads).flatMap (threadTransfers A B memory pes threads count)) :=
  mapM_flatten _ fun _ _ => reduceThread_eq mapped

/-! ### Bounds -/

theorem vectorBegin_le : vectorBegin A B count ≤ count := by
  have bounds := @alignedBegin_le 0 count (vectorAligned A B)
  unfold vectorBegin
  omega

theorem vectorEnd_le : vectorBegin A B count ≤ vectorEnd A B count ∧ vectorEnd A B count ≤ count := by
  have begins := @vectorBegin_le _ _ _ A B count
  have whole := Nat.div_mul_le_self (count - vectorBegin A B count) A.lanes
  unfold vectorEnd
  omega

/-- The search for an aligned element ends at one, or behind the last. -/
theorem alignedBegin_aligned {aligned : Nat → Bool} {left first : Nat} :
    alignedBegin aligned left first = first + left ∨ aligned (alignedBegin aligned left first) = true := by
  induction left generalizing first with
  | zero => exact .inl rfl
  | succ left ih =>
    rw [alignedBegin]
    split
    · rename_i here
      exact .inr here
    · rcases @ih (first + 1) with last | found
      · left
        omega
      · exact .inr found

theorem vectorAligned_iff :
    vectorAligned A B index = true ↔ (B.localPartial + index * A.size) % 16 = 0 ∧ (B.staging + index * A.size) % 16 = 0 := by
  have masked (address : Nat) : address &&& (16 - 1) = address % 16 := Nat.and_two_pow_sub_one_eq_mod address 4
  rw [vectorAligned, decide_eq_true_eq, Nat.and_or_distrib_right, Nat.or_eq_zero_iff, masked, masked]

/-- Whole vectors behind an aligned element are aligned. -/
theorem vector_aligned {turn : Nat} (some' : vectorBegin A B count + turn * A.lanes < vectorEnd A B count) :
    (B.localPartial + (vectorBegin A B count + turn * A.lanes) * A.size) % 16 = 0 ∧
      (B.staging + (vectorBegin A B count + turn * A.lanes) * A.size) % 16 = 0 := by
  have ends := (@vectorEnd_le _ _ _ A B count).2
  have found : vectorAligned A B (vectorBegin A B count) = true := by
    rcases @alignedBegin_aligned (vectorAligned A B) count 0 with last | found
    · have last : vectorBegin A B count = 0 + count := last
      omega
    · exact found
  obtain ⟨partials, staging⟩ := vectorAligned_iff.mp found
  have whole : turn * A.lanes * A.size = 16 * turn := by
    rw [Nat.mul_assoc, A.lanes_mul_size, Nat.mul_comm]
  rw [Nat.add_mul, whole]
  omega

/-! ### Writes -/

theorem transferOf_writes {packed : Bool} {width : Nat} :
    (transferOf A B memory pes packed width index).writes =
      (List.range width).map fun lane => (index + lane, A.narrow (accumulated A B memory pes (index + lane))) := by
  apply List.ext_getElem
  · simp [Transfer.writes, transferOf]
  · intro lane _ _
    simp [Transfer.writes, transferOf]

/-- The elements that a thread writes, in its order. -/
theorem threadTransfers_indices {thread : Nat} :
    ((threadTransfers A B memory pes threads count thread).flatMap Transfer.writes).map Prod.fst =
      strided threads (vectorBegin A B count) thread ++
        ((strided (threads * A.lanes) (vectorEnd A B count) (vectorBegin A B count + thread * A.lanes)).flatMap fun first =>
            (List.range A.lanes).map fun lane => first + lane) ++
          strided threads count (vectorEnd A B count + thread) := by
  have scalars (indices : List Nat) :
      ((indices.map (transferOf A B memory pes false 1)).flatMap Transfer.writes).map Prod.fst = indices := by
    rw [List.flatMap_map, List.map_flatMap]
    simp [transferOf_writes]
  have vectors (indices : List Nat) :
      ((indices.map (transferOf A B memory pes true A.lanes)).flatMap Transfer.writes).map Prod.fst =
        indices.flatMap fun first => (List.range A.lanes).map fun lane => first + lane := by
    rw [List.flatMap_map, List.map_flatMap]
    simp [transferOf_writes, Function.comp_def]
  rw [threadTransfers, List.flatMap_append, List.flatMap_append, List.map_append, List.map_append, scalars, vectors, scalars]

/-- Every element of the block is written once, and no other. -/
theorem count_writes (some : 0 < threads) :
    (((List.range threads).flatMap (threadTransfers A B memory pes threads count)).flatMap Transfer.writes).countP
      (·.1 = index) = if index < count then 1 else 0 := by
  have begins := @vectorBegin_le _ _ _ A B count
  have ends := @vectorEnd_le _ _ _ A B count
  have whole : A.lanes ∣ vectorEnd A B count - vectorBegin A B count := by
    rw [vectorEnd, Nat.add_sub_cancel_left]
    exact Nat.dvd_mul_left _ _
  have indices : (((List.range threads).flatMap (threadTransfers A B memory pes threads count)).flatMap Transfer.writes).map
      Prod.fst = (List.range threads).flatMap fun thread =>
        (strided threads (vectorBegin A B count) (0 + thread) ++
          ((strided (threads * A.lanes) (vectorEnd A B count) (vectorBegin A B count + thread * A.lanes)).flatMap fun first =>
            (List.range A.lanes).map fun lane => first + lane)) ++
          strided threads count (vectorEnd A B count + thread) := by
    rw [List.flatMap_assoc, List.map_flatMap]
    simp only [threadTransfers_indices, Nat.zero_add]
  have counted : (((List.range threads).flatMap (threadTransfers A B memory pes threads count)).flatMap
      Transfer.writes).countP (·.1 = index) =
      ((((List.range threads).flatMap (threadTransfers A B memory pes threads count)).flatMap Transfer.writes).map
        Prod.fst).count index := by
    rw [List.count_eq_countP, List.countP_map]
    apply List.countP_congr
    intro write _
    simp
  rw [counted, indices, List.count_eq_countP, countP_flatMap_append, countP_flatMap_append, ← List.count_eq_countP,
    ← List.count_eq_countP, ← List.count_eq_countP, count_strides_one some,
    count_strides some Accumulation.lanes_pos whole, count_strides_one some]
  by_cases head : index < vectorBegin A B count
  · rw [if_pos (by omega), if_neg (by omega), if_neg (by omega), if_pos (by omega)]
  · by_cases middle : index < vectorEnd A B count
    · rw [if_neg (by omega), if_pos (by omega), if_neg (by omega), if_pos (by omega)]
    · by_cases inside : index < count
      · rw [if_neg (by omega), if_neg (by omega), if_pos (by omega), if_pos inside]
      · rw [if_neg (by omega), if_neg (by omega), if_neg (by omega), if_neg inside]

/-! ### Addresses -/

theorem pointerTo_congruent (mapped : Mapped B pes) {source : Nat} (member : source ∈ pes) :
    pointerTo B source % 16 = B.localPartial % 16 := by
  have found := mapped.pointer member
  rw [PartialBuffers.partialPointer] at found
  split at found
  · rw [← Option.some.inj found]
  · exact B.congruent source _ found

/-- A store lies in the block and reads what it writes; a `uint4` is at an aligned
address, and so is each of its reads. -/
structure Lies (A : Accumulation Byte Scalar Float) (B : PartialBuffers) (pes : List Nat) (count : Nat)
    (transfer : Transfer Scalar) : Prop where
  inside : transfer.index + transfer.values.length ≤ count
  target : transfer.target = B.staging + transfer.index * A.size
  sources : sourceAddresses A B pes transfer.index = some transfer.sources
  whole : transfer.packed = true → transfer.values.length = A.lanes
  aligned : transfer.packed = true → transfer.target % 16 = 0 ∧ ∀ source ∈ transfer.sources, source % 16 = 0

theorem transferOf_lies (mapped : Mapped B pes) {packed : Bool} {width : Nat} (inside : index + width ≤ count)
    (whole : packed = true → width = A.lanes)
    (aligned : packed = true → (B.localPartial + index * A.size) % 16 = 0 ∧ (B.staging + index * A.size) % 16 = 0) :
    Lies A B pes count (transferOf A B memory pes packed width index) := by
  constructor
  · simpa [transferOf] using inside
  · rfl
  · exact sourceAddresses_eq mapped
  · simpa [transferOf] using whole
  · intro vector
    refine ⟨(aligned vector).2, ?_⟩
    intro source read
    obtain ⟨peer, member, rfl⟩ := List.mem_map.mp read
    have congruent := pointerTo_congruent mapped member
    have here := (aligned vector).1
    omega

theorem threadTransfers_lies (some : 0 < threads) (mapped : Mapped B pes) {thread : Nat} {transfer : Transfer Scalar}
    (member : transfer ∈ threadTransfers A B memory pes threads count thread) : Lies A B pes count transfer := by
  have begins := @vectorBegin_le _ _ _ A B count
  have ends := @vectorEnd_le _ _ _ A B count
  have stride : 0 < threads * A.lanes := Nat.mul_pos some Accumulation.lanes_pos
  rcases List.mem_append.mp member with front | last
  · rcases List.mem_append.mp front with first | middle
    · obtain ⟨index, listed, rfl⟩ := List.mem_map.mp first
      obtain ⟨turn, rfl, bound⟩ := (mem_strided some).mp listed
      exact transferOf_lies mapped (by omega) (by simp) (by simp)
    · obtain ⟨index, listed, rfl⟩ := List.mem_map.mp middle
      obtain ⟨turn, rfl, bound⟩ := (mem_strided stride).mp listed
      have position : vectorBegin A B count + thread * A.lanes + turn * (threads * A.lanes) =
          vectorBegin A B count + (thread + turn * threads) * A.lanes := by ring
      rw [position] at bound ⊢
      refine transferOf_lies mapped ?_ (fun _ => rfl) fun _ => vector_aligned bound
      -- the vectors fill the middle, so one that begins in it ends in it
      have begun : (thread + turn * threads) * A.lanes < (count - vectorBegin A B count) / A.lanes * A.lanes := by
        unfold vectorEnd at bound
        omega
      have ended := Nat.mul_le_mul_right A.lanes (Nat.lt_of_mul_lt_mul_right begun)
      rw [Nat.succ_mul] at ended
      unfold vectorEnd at ends
      omega
  · obtain ⟨index, listed, rfl⟩ := List.mem_map.mp last
    obtain ⟨turn, rfl, bound⟩ := (mem_strided some).mp listed
    exact transferOf_lies mapped (by omega) (by simp) (by simp)

theorem threadTransfers_writes {thread : Nat} {write : Nat × Scalar}
    (member : write ∈ (threadTransfers A B memory pes threads count thread).flatMap Transfer.writes) :
    write.2 = A.narrow (accumulated A B memory pes write.1) := by
  obtain ⟨transfer, listed, written⟩ := List.mem_flatMap.mp member
  have made : ∃ packed width index, transfer = transferOf A B memory pes packed width index := by
    rcases List.mem_append.mp listed with front | last
    · rcases List.mem_append.mp front with first | middle
      · obtain ⟨index, -, rfl⟩ := List.mem_map.mp first
        exact ⟨false, 1, index, rfl⟩
      · obtain ⟨index, -, rfl⟩ := List.mem_map.mp middle
        exact ⟨true, A.lanes, index, rfl⟩
    · obtain ⟨index, -, rfl⟩ := List.mem_map.mp last
      exact ⟨false, 1, index, rfl⟩
  obtain ⟨packed, width, index, rfl⟩ := made
  rw [transferOf_writes] at written
  obtain ⟨lane, -, rfl⟩ := List.mem_map.mp written
  rfl

/-! ### Aborts -/

theorem mapped_of_sourceAddresses {sources : List Nat} (returned : sourceAddresses A B pes index = some sources) :
    Mapped B pes := by
  intro source member
  obtain ⟨position, listed⟩ := List.getElem?_of_mem member
  obtain ⟨address, -, found⟩ := getElem?_of_mapM_eq_some returned listed
  obtain ⟨pointer, mapped, -⟩ := Option.map_eq_some_iff.mp found
  exact ⟨pointer, mapped⟩

theorem mapped_of_scalarTransfer {transfer : Transfer Scalar}
    (returned : scalarTransfer A B memory pes index = some transfer) : Mapped B pes := by
  simp only [scalarTransfer, Option.bind_eq_bind, Option.bind_eq_some_iff] at returned
  obtain ⟨-, -, sources, read, -⟩ := returned
  exact mapped_of_sourceAddresses read

theorem mapped_of_vectorTransfer {transfer : Transfer Scalar}
    (returned : vectorTransfer A B memory pes index = some transfer) : Mapped B pes := by
  simp only [vectorTransfer, Option.bind_eq_bind, Option.bind_eq_some_iff] at returned
  obtain ⟨-, -, sources, read, -⟩ := returned
  exact mapped_of_sourceAddresses read

/-- The first thread has something to do in a block that is not empty, and it aborts
where a partial is not mapped. -/
theorem mapped_of_reduceThread (some' : 0 < threads) (nonempty : 0 < count) {transfers : List (Transfer Scalar)}
    (returned : reduceThread A B memory pes threads count 0 = some transfers) : Mapped B pes := by
  simp only [reduceThread, Option.bind_eq_bind, Option.bind_eq_some_iff] at returned
  obtain ⟨first, prologue, middle, vectors, last, epilogue, -⟩ := returned
  have head {step stop start : Nat} (inside : 0 < step ∧ start < stop) : (strided step stop start)[0]? = some start := by
    rw [strided, if_pos inside]
    rfl
  by_cases unaligned : 0 < vectorBegin A B count
  · obtain ⟨transfer, -, made⟩ := getElem?_of_mapM_eq_some prologue (head ⟨some', unaligned⟩)
    exact mapped_of_scalarTransfer made
  · by_cases packed : vectorBegin A B count < vectorEnd A B count
    · have stride : 0 < threads * A.lanes := Nat.mul_pos some' Accumulation.lanes_pos
      obtain ⟨transfer, -, made⟩ := getElem?_of_mapM_eq_some vectors (head ⟨stride, by omega⟩)
      exact mapped_of_vectorTransfer made
    · have ends := @vectorEnd_le _ _ _ A B count
      obtain ⟨transfer, -, made⟩ := getElem?_of_mapM_eq_some epilogue (head ⟨some', by omega⟩)
      exact mapped_of_scalarTransfer made

theorem reduceTpPartials_empty : reduceTpPartials A B memory pes threads 0 = some [] := by
  have none {step start : Nat} : strided step 0 start = [] := by
    rw [strided, if_neg (by omega)]
  have begins : vectorBegin A B 0 = 0 := Nat.le_zero.mp vectorBegin_le
  have ends : vectorEnd A B 0 = 0 := Nat.le_zero.mp vectorEnd_le.2
  have each (thread : Nat) : reduceThread A B memory pes threads 0 thread = some [] := by
    rw [reduceThread, begins, ends, none, none, none]
    rfl
  have whole : ((List.range threads).mapM (reduceThread A B memory pes threads 0)).map List.flatten =
      some ((List.range threads).flatMap fun _ => []) := mapM_flatten _ fun thread _ => each thread
  rw [reduceTpPartials, whole]
  simp

/-- A block aborts just where it has something to reduce and a partial is not mapped.
Where it does not, every element of the block is written once, with its ordered sum, and
nothing else is; every store and every read lies in the block, and each `uint4` is at an
aligned address. -/
theorem reduceTpPartials_exact (A : Accumulation Byte Scalar Float) (B : PartialBuffers) (memory : Nat → Byte)
    (pes : List Nat) (threads count : Nat) (some' : 0 < threads) :
    ((∃ transfers, reduceTpPartials A B memory pes threads count = some transfers) ↔ count = 0 ∨ Mapped B pes) ∧
      ∀ transfers, reduceTpPartials A B memory pes threads count = some transfers →
        (∀ index, (transfers.flatMap Transfer.writes).countP (·.1 = index) = if index < count then 1 else 0) ∧
          (∀ write ∈ transfers.flatMap Transfer.writes, orderedSum A B memory pes write.1 = some write.2) ∧
            ∀ transfer ∈ transfers, Lies A B pes count transfer := by
  have abort : (∃ transfers, reduceTpPartials A B memory pes threads count = some transfers) ↔ count = 0 ∨ Mapped B pes := by
    constructor
    · rintro ⟨transfers, returned⟩
      by_cases empty : count = 0
      · exact .inl empty
      · obtain ⟨parts, mapped, -⟩ := Option.map_eq_some_iff.mp returned
        have first : (List.range threads)[0]? = some 0 := by simp [some']
        obtain ⟨part, -, made⟩ := getElem?_of_mapM_eq_some mapped first
        exact .inr (mapped_of_reduceThread some' (Nat.pos_of_ne_zero empty) made)
    · rintro (rfl | mapped)
      · exact ⟨_, reduceTpPartials_empty⟩
      · exact ⟨_, reduceTpPartials_eq mapped⟩
  refine ⟨abort, ?_⟩
  intro transfers returned
  rcases abort.mp ⟨transfers, returned⟩ with rfl | mapped
  · obtain rfl := Option.some.inj (reduceTpPartials_empty.symm.trans returned)
    simp
  · obtain rfl := Option.some.inj ((reduceTpPartials_eq mapped).symm.trans returned)
    refine ⟨fun index => count_writes some', ?_, ?_⟩
    · intro write member
      rw [List.flatMap_assoc] at member
      obtain ⟨thread, -, written⟩ := List.mem_flatMap.mp member
      rw [orderedSum_eq mapped, threadTransfers_writes written]
    · intro transfer member
      obtain ⟨thread, -, listed⟩ := List.mem_flatMap.mp member
      exact threadTransfers_lies some' mapped listed

end Block

/-! ## A block of eleven halves -/

/-- Halves of two bytes, summed as numbers. -/
def halves : Accumulation Nat Nat Nat where
  size := 2
  lanes := 8
  lanes_mul_size := rfl
  load bytes := bytes.getD 0 0 + 256 * bytes.getD 1 0
  widen value := value
  zero := 0
  add := Nat.add
  narrow sum := sum % 65536

/-- Buffers at the thirteenth element of a vector; a peer's heap is a kilobyte behind. -/
def unevenBuffers : PartialBuffers where
  pe := 1
  localPartial := 2074
  staging := 4122
  nvshmemPtr peer := some (2074 + 1024 * peer)
  congruent peer address found := by
    obtain rfl := Option.some.inj found
    omega

theorem reduceTpPartials_exact_halves :
    0 < 4 ∧ Mapped unevenBuffers [1, 2] ∧
      ∃ transfers, reduceTpPartials halves unevenBuffers (fun address => address % 7) [1, 2] 4 11 = some transfers ∧
        (transfers.filter Transfer.packed).map Transfer.target = [4128] ∧
          ∀ transfer ∈ transfers, Lies halves unevenBuffers [1, 2] 11 transfer := by
  have exact' := reduceTpPartials_exact halves unevenBuffers (fun address => address % 7) [1, 2] 4 11 (by decide)
  have mapped : Mapped unevenBuffers [1, 2] := by
    intro source member
    rw [PartialBuffers.partialPointer]
    split
    · exact ⟨_, rfl⟩
    · exact ⟨_, rfl⟩
  obtain ⟨transfers, returned⟩ := exact'.1.mpr (.inr mapped)
  have packed : ((reduceTpPartials halves unevenBuffers (fun address => address % 7) [1, 2] 4 11).map fun transfers =>
      (transfers.filter Transfer.packed).map Transfer.target) = some [4128] := by decide +kernel
  rw [returned, Option.map_some] at packed
  exact ⟨by decide, mapped, transfers, returned, Option.some.inj packed, (exact'.2 transfers returned).2.2⟩

end CrossPool.FfnAgent
