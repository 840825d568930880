import Mathlib.Algebra.Group.Defs
import Mathlib.Algebra.Order.Ring.Int
import Mathlib.Data.List.Nodup
import Mathlib.Logic.Function.Basic

/-!
# Blocks of lanes

A program of a kernel works on a block of lanes at once. A reduction folds an operation
over the lanes, a store writes the lanes that its mask lets through, and a launch runs
one program for each index of a grid, in some order.
-/

namespace CrossPool.Lib

section reduction

variable {α : Type} {op : α → α → α} {block : Nat} {lanes : Nat → α}

/-- An operation folded over the lanes of a block, which has one at least. -/
def reduce (op : α → α → α) (block : Nat) (lanes : Nat → α) : α :=
  (List.range (block - 1)).foldl (fun reduced lane => op reduced (lanes (lane + 1))) (lanes 0)

theorem reduce_succ (filled : 0 < block) : reduce op (block + 1) lanes = op (reduce op block lanes) (lanes block) := by
  obtain ⟨rest, rfl⟩ : ∃ rest, block = rest + 1 := ⟨block - 1, by omega⟩
  simp [reduce, List.range_succ]

/-- A rule for what holds of every reduction. -/
theorem reduce_induction (holds : Nat → α → Prop) (one : holds 1 (lanes 0))
    (step : ∀ block, 0 < block → holds block (reduce op block lanes) →
      holds (block + 1) (op (reduce op block lanes) (lanes block))) (filled : 0 < block) :
    holds block (reduce op block lanes) := by
  induction block with
  | zero => cases filled
  | succ block ih =>
    rcases Nat.eq_zero_or_pos block with rfl | more
    · exact one
    · rw [reduce_succ more]
      exact step block more (ih more)

/-- The operation that chooses one of two values finds a lane that is first of the
block. -/
theorem reduce_chosen (first : α → α → Prop) (trans : ∀ a b c, first a b → first b c → first a c)
    (refl : ∀ a, first a a) (chooses : ∀ a b, op a b = a ∨ op a b = b) (left : ∀ a b, first (op a b) a)
    (right : ∀ a b, first (op a b) b) (filled : 0 < block) :
    (∀ lane < block, first (reduce op block lanes) (lanes lane)) ∧ ∃ lane < block, reduce op block lanes = lanes lane := by
  refine reduce_induction
    (fun block reduced => (∀ lane < block, first reduced (lanes lane)) ∧ ∃ lane < block, reduced = lanes lane) ?_ ?_ filled
  · refine ⟨fun lane inside => ?_, 0, Nat.one_pos, rfl⟩
    obtain rfl : lane = 0 := by omega
    exact refl _
  · rintro block - ⟨before, lane, inside, same⟩
    refine ⟨fun other within => ?_, ?_⟩
    · rcases Nat.lt_succ_iff_lt_or_eq.mp within with within | rfl
      · exact trans _ _ _ (left _ _) (before other within)
      · exact right _ _
    · rcases chooses (reduce op block lanes) (lanes block) with keeps | takes
      · exact ⟨lane, by omega, keeps.trans same⟩
      · exact ⟨block, by omega, takes⟩

variable [LinearOrder α] {value : α}

/-- The maximum of a block is the value that bounds it and that a lane has. -/
theorem reduce_max_eq (bound : ∀ lane < block, lanes lane ≤ value) (attained : ∃ lane < block, lanes lane = value) :
    reduce max block lanes = value := by
  obtain ⟨lane, inside, rfl⟩ := attained
  have filled : 0 < block := by omega
  obtain ⟨above, other, within, same⟩ : (∀ lane < block, lanes lane ≤ reduce max block lanes) ∧
      ∃ lane < block, reduce max block lanes = lanes lane :=
    reduce_chosen (fun a b => b ≤ a) (fun _ _ _ ab bc => le_trans bc ab) le_refl max_choice le_max_left le_max_right filled
  exact le_antisymm (same ▸ bound other within) (above lane inside)

/-- The minimum of a block is the value that bounds it and that a lane has. -/
theorem reduce_min_eq (bound : ∀ lane < block, value ≤ lanes lane) (attained : ∃ lane < block, lanes lane = value) :
    reduce min block lanes = value :=
  @reduce_max_eq αᵒᵈ block lanes _ value bound attained

/-- The sum of a block in which one lane counts. -/
theorem reduce_add_single {α : Type} [AddZeroClass α] {lanes : Nat → α} {block chosen : Nat} (inside : chosen < block)
    (others : ∀ lane < block, lane ≠ chosen → lanes lane = 0) : reduce (· + ·) block lanes = lanes chosen := by
  have summed : ∀ block, 0 < block → (∀ lane < block, lane ≠ chosen → lanes lane = 0) →
      reduce (· + ·) block lanes = if chosen < block then lanes chosen else 0 := by
    intro block filled
    refine reduce_induction (fun block reduced => (∀ lane < block, lane ≠ chosen → lanes lane = 0) →
      reduced = if chosen < block then lanes chosen else 0) (fun others => ?_) (fun block _ before others => ?_) filled
    · by_cases first : chosen = 0
      · simp [first]
      · rw [if_neg (by omega)]
        exact others 0 Nat.one_pos (Ne.symm first)
    · rw [before fun lane inside => others lane (by omega)]
      rcases Nat.lt_trichotomy chosen block with less | rfl | more
      · rw [if_pos less, if_pos (by omega), others block (by omega) (by omega), add_zero]
      · rw [if_neg (by omega), if_pos (by omega), zero_add]
      · rw [if_neg (by omega), if_neg (by omega), others block (by omega) (by omega), add_zero]
  rw [summed block (by omega) others, if_pos inside]

end reduction

section store

variable {α P : Type} [DecidableEq P] {block : Nat} {mask : Nat → Bool} {offset : Nat → P} {value : Nat → α} {memory : P → α}

/-- The lanes that the mask lets through, written at their offsets. -/
def storeLanes (block : Nat) (mask : Nat → Bool) (offset : Nat → P) (value : Nat → α) (memory : P → α) : P → α :=
  (List.range block).foldl
    (fun memory lane => if mask lane then Function.update memory (offset lane) (value lane) else memory) memory

/-- The offsets that a store writes, in order of the lanes. -/
def storedOffsets {P : Type} (block : Nat) (mask : Nat → Bool) (offset : Nat → P) : List P :=
  ((List.range block).filter mask).map offset

theorem storeLanes_succ : storeLanes (block + 1) mask offset value memory =
    if mask block then Function.update (storeLanes block mask offset value memory) (offset block) (value block)
    else storeLanes block mask offset value memory := by
  simp [storeLanes, List.range_succ]

/-- What no lane writes stays. -/
theorem storeLanes_miss {place : P} (apart : ∀ lane < block, mask lane → offset lane ≠ place) :
    storeLanes block mask offset value memory place = memory place := by
  induction block with
  | zero => rfl
  | succ block ih =>
    rw [storeLanes_succ]
    have before := ih fun lane inside => apart lane (by omega)
    split
    · next masked => rw [Function.update_of_ne (apart block (by omega) masked).symm, before]
    · exact before

/-- What one lane writes is read back. -/
theorem storeLanes_hit (apart : ∀ i < block, ∀ j < block, offset i = offset j → i = j) {lane : Nat} (inside : lane < block)
    (masked : mask lane) : storeLanes block mask offset value memory (offset lane) = value lane := by
  induction block with
  | zero => cases inside
  | succ block ih =>
    rw [storeLanes_succ]
    have before := ih fun i first j second => apart i (by omega) j (by omega)
    rcases Nat.lt_succ_iff_lt_or_eq.mp inside with earlier | rfl
    · have other : offset lane ≠ offset block := fun same => by
        have := apart lane inside block (by omega) same
        omega
      split
      · rw [Function.update_of_ne other, before earlier]
      · exact before earlier
    · rw [if_pos masked, Function.update_self]

end store

section launch

variable {M R W : Type} {program : Nat → M → M} {order : List Nat}

/-- The programs of a launch, run in some order. -/
def launch (program : Nat → M → M) (order : List Nat) (memory : M) : M :=
  order.foldl (fun memory index => program index memory) memory

/-- A program of a launch that reads and writes what no other writes leaves the result it
has alone. -/
theorem launch_result (reads : Nat → M → R) (writes : Nat → M → W) (post : Nat → R → W → Prop)
    (runs : ∀ index ∈ order, ∀ memory, post index (reads index memory) (writes index (program index memory)))
    (apart : ∀ index ∈ order, ∀ other ∈ order, ∀ memory, index ≠ other →
      reads other (program index memory) = reads other memory ∧ writes other (program index memory) = writes other memory)
    (distinct : order.Nodup) {index : Nat} (listed : index ∈ order) (memory : M) :
    post index (reads index memory) (writes index (launch program order memory)) := by
  have later : ∀ (rest : List Nat) (memory : M), rest ⊆ order → index ∉ rest →
      writes index (launch program rest memory) = writes index memory := by
    intro rest
    induction rest with
    | nil => exact fun _ _ _ => rfl
    | cons first rest ih =>
      intro memory within unlisted
      have other := List.ne_of_not_mem_cons unlisted
      rw [show launch program (first :: rest) memory = launch program rest (program first memory) from rfl]
      exact (ih (program first memory) (List.subset_of_cons_subset within) (List.not_mem_of_not_mem_cons unlisted)).trans
        (apart first (within List.mem_cons_self) index listed memory (Ne.symm other)).2
  have result : ∀ (rest : List Nat) (memory : M), rest ⊆ order → rest.Nodup → index ∈ rest →
      post index (reads index memory) (writes index (launch program rest memory)) := by
    intro rest
    induction rest with
    | nil =>
      intro _ _ _ listed
      cases listed
    | cons first rest ih =>
      intro memory within distinct listed
      obtain ⟨fresh, distinct⟩ := List.nodup_cons.mp distinct
      have within' := List.subset_of_cons_subset within
      have run : launch program (first :: rest) memory = launch program rest (program first memory) := rfl
      rcases List.mem_cons.mp listed with rfl | listed
      · rw [run, later rest (program index memory) within' fresh]
        exact runs index (within List.mem_cons_self) memory
      · have other : first ≠ index := fun same => fresh (same ▸ listed)
        have after := ih (program first memory) within' distinct listed
        rw [(apart first (within List.mem_cons_self) index (within' listed) memory other).1] at after
        rwa [run]
  exact result order memory (List.Subset.refl order) distinct listed

end launch

end CrossPool.Lib
