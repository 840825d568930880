import Mathlib.Algebra.BigOperators.Group.List.Basic
import Mathlib.Algebra.BigOperators.Ring.List
import Mathlib.Algebra.Order.BigOperators.Group.List
import Mathlib.Algebra.Order.Ring.Int
import Mathlib.Data.List.Perm.Basic
import Mathlib.Data.List.Nodup
import Mathlib.Tactic.Ring

/-!
# Tallies

Sums over lists as programs write them: over what a filter or a nested loop leaves, over
items with their positions, and over the distinct items of a list. A tally of the distinct
items that satisfy a condition is the tally of any list with just these.
-/

namespace CrossPool.Lib

variable {α β : Type}

theorem sum_flatMap (items : List α) (f : α → List β) (cost : β → Int) :
    ((items.flatMap f).map cost).sum = (items.map fun item => ((f item).map cost).sum).sum := by
  induction items with
  | nil => rfl
  | cons item items ih => rw [List.flatMap_cons, List.map_append, List.sum_append, ih, List.map_cons, List.sum_cons]

theorem sum_filterMap (items : List α) (f : α → Option β) (cost : β → Int) :
    ((items.filterMap f).map cost).sum = (items.map fun item => (f item).elim 0 cost).sum := by
  induction items with
  | nil => rfl
  | cons item items ih =>
    rw [List.filterMap_cons, List.map_cons, List.sum_cons, ← ih]
    cases f item with
    | none => exact (zero_add _).symm
    | some other => rfl

theorem sum_filter (items : List α) (holds : α → Bool) (cost : α → Int) :
    ((items.filter holds).map cost).sum = (items.map fun item => cost item * (holds item).toInt).sum := by
  induction items with
  | nil => rfl
  | cons item items ih =>
    rw [List.filter_cons, List.map_cons, List.sum_cons, ← ih]
    cases holds item with
    | false => simp
    | true => simp

/-- A sum over positions, of which one counts. -/
theorem sum_zipIdx_single (items : List α) (cost : α → Int) (offset place : Nat) :
    ((items.zipIdx offset).map fun entry => cost entry.1 * if entry.2 = offset + place then 1 else 0).sum =
      items[place]?.elim 0 cost := by
  induction items generalizing offset place with
  | nil => rfl
  | cons item items ih =>
    rw [List.zipIdx_cons, List.map_cons, List.sum_cons]
    cases place with
    | zero =>
      have none :
          ((items.zipIdx (offset + 1)).map fun entry => cost entry.1 * if entry.2 = offset + 0 then 1 else 0).sum = 0 := by
        apply List.sum_eq_zero
        intro value member
        obtain ⟨entry, listed, rfl⟩ := List.mem_map.mp member
        have later := List.le_snd_of_mem_zipIdx listed
        rw [if_neg (by omega), mul_zero]
      rw [none]
      simp
    | succ place =>
      have shifted := ih (offset + 1) place
      rw [Nat.add_right_comm, Nat.add_assoc] at shifted
      rw [shifted, if_neg (by simp), mul_zero, zero_add]
      rfl

/-- A sum over positions that counts what satisfies a condition. -/
theorem sum_zipIdx_filter (items : List α) (present : Nat → Bool) (holds : α → Bool) (cost : α → Int)
    (same : ∀ index item, items[index]? = some item → present index = holds item) :
    (items.zipIdx.map fun entry => cost entry.1 * (present entry.2).toInt).sum = ((items.filter holds).map cost).sum := by
  have positions : items.zipIdx.map (fun entry => cost entry.1 * (present entry.2).toInt) =
      (items.zipIdx.map Prod.fst).map fun item => cost item * (holds item).toInt := by
    rw [List.map_map]
    apply List.map_congr_left
    intro entry member
    rw [same entry.2 entry.1 (List.mem_zipIdx_iff_getElem?.mp member)]
    rfl
  rw [positions, List.zipIdx_map_fst, sum_filter]

/-- A sum over what is present lies between nothing and everything. -/
theorem sum_zipIdx_present {items : List α} {cost : α → Int} (nonneg : ∀ item ∈ items, 0 ≤ cost item)
    (present : α → Nat → Bool) :
    0 ≤ (items.zipIdx.map fun entry => cost entry.1 * (present entry.1 entry.2).toInt).sum ∧
      (items.zipIdx.map fun entry => cost entry.1 * (present entry.1 entry.2).toInt).sum ≤ (items.map cost).sum := by
  have whole : (items.map cost).sum = (items.zipIdx.map fun entry => cost entry.1).sum := by
    conv_lhs => rw [← List.zipIdx_map_fst 0 items, List.map_map]
    rfl
  have each : ∀ entry ∈ items.zipIdx, 0 ≤ cost entry.1 * (present entry.1 entry.2).toInt ∧
      cost entry.1 * (present entry.1 entry.2).toInt ≤ cost entry.1 := by
    intro entry member
    have some' := nonneg entry.1 (List.mem_of_getElem? (List.mem_zipIdx_iff_getElem?.mp member))
    cases present entry.1 entry.2 with
    | false => simpa using some'
    | true => simpa using some'
  rw [whole]
  constructor
  · apply List.sum_nonneg
    intro value member
    obtain ⟨entry, listed, rfl⟩ := List.mem_map.mp member
    exact (each entry listed).1
  · exact List.sum_le_sum fun entry listed => (each entry listed).2

theorem sum_flatten_replicate (count : Nat) (items : List Int) :
    (List.replicate count items).flatten.sum = count * items.sum := by
  rw [List.sum_flatten, List.map_replicate, List.sum_replicate, nsmul_eq_mul]

theorem length_flatMap (items : List α) (f : α → List β) :
    ((items.flatMap f).length : Int) = (items.map fun item => ((f item).length : Int)).sum := by
  induction items with
  | nil => rfl
  | cons item items ih =>
    rw [List.flatMap_cons, List.length_append, Nat.cast_add, ih, List.map_cons, List.sum_cons]

theorem length_flatten_replicate (count : Nat) (items : List α) :
    (List.replicate count items).flatten.length = count * items.length := by
  rw [List.length_flatten, List.map_replicate, List.sum_replicate_nat]

section Distinct

variable [DecidableEq α]

theorem nodup_eraseDups (items : List α) : items.eraseDups.Nodup := by
  induction length : items.length using Nat.strongRecOn generalizing items with
  | ind length' ih =>
    cases items with
    | nil => exact List.nodup_nil
    | cons item rest =>
      rw [List.eraseDups_cons, List.nodup_cons]
      constructor
      · rw [List.mem_eraseDups, List.mem_filter]
        simp
      · apply ih _ ?_ _ rfl
        have shorter := List.length_filter_le (fun other => !other == item) rest
        rw [List.length_cons] at length
        omega

/-- The distinct items that satisfy a condition are those of any list with just these. -/
theorem eraseDups_perm {items others : List α} {holds : α → Bool}
    (same : ∀ item, item ∈ others ↔ item ∈ items ∧ holds item = true) :
    (items.eraseDups.filter holds).Perm others.eraseDups := by
  apply (List.perm_ext_iff_of_nodup ((nodup_eraseDups items).filter _) (nodup_eraseDups others)).mpr
  intro item
  rw [List.mem_filter, List.mem_eraseDups, List.mem_eraseDups, same]

end Distinct

end CrossPool.Lib
