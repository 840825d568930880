import Mathlib.Data.List.Induction
import Mathlib.Data.List.Nodup
import Mathlib.Data.List.Perm.Basic

/-!
# Grouping by key

Items filed under their key one after the other, a new key last. The groups divide the
items: none is lost or repeated, no group is empty, and its items all have its key.
-/

namespace CrossPool.Lib

variable {α κ : Type} [DecidableEq κ]

/-- File an item under its key. -/
def file (key : κ) (item : α) : List (κ × List α) → List (κ × List α)
  | [] => [(key, [item])]
  | (other, items) :: rest =>
    if other = key then (other, items ++ [item]) :: rest else (other, items) :: file key item rest

/-- The items by key, keys in the order of their first items. -/
def group (key : α → κ) (items : List α) : List (κ × List α) :=
  items.foldl (fun grouped item => file (key item) item grouped) []

variable {key : κ} {item : α} {grouped : List (κ × List α)}

theorem file_perm : ((file key item grouped).flatMap Prod.snd).Perm (grouped.flatMap Prod.snd ++ [item]) := by
  induction grouped with
  | nil => simp [file]
  | cons entry rest ih =>
    obtain ⟨first, items⟩ := entry
    rw [file]
    split
    · simp only [List.flatMap_cons, List.append_assoc]
      apply List.Perm.append_left
      exact List.perm_append_comm
    · simp only [List.flatMap_cons, List.append_assoc]
      exact ih.append_left items

theorem mem_file {other : κ} {items : List α} (member : (other, items) ∈ file key item grouped) :
    (other, items) ∈ grouped ∨ other = key ∧ ∃ prior, items = prior ++ [item] ∧ (prior = [] ∨ (key, prior) ∈ grouped) := by
  induction grouped with
  | nil =>
    obtain ⟨rfl, rfl⟩ := Prod.mk.inj (List.mem_singleton.mp member)
    exact .inr ⟨rfl, [], rfl, .inl rfl⟩
  | cons entry rest ih =>
    obtain ⟨first, there⟩ := entry
    rw [file] at member
    split at member
    · rename_i same
      rcases List.mem_cons.mp member with here | later
      · obtain ⟨rfl, rfl⟩ := Prod.mk.inj here
        exact .inr ⟨same, there, rfl, .inr (same ▸ List.mem_cons_self)⟩
      · exact .inl (List.mem_cons_of_mem _ later)
    · rcases List.mem_cons.mp member with here | later
      · exact .inl (here ▸ List.mem_cons_self)
      · rcases ih later with before | ⟨same, prior, made, before⟩
        · exact .inl (List.mem_cons_of_mem _ before)
        · exact .inr ⟨same, prior, made, before.imp_right (List.mem_cons_of_mem _)⟩

variable {keyOf : α → κ} {items : List α}

theorem group_concat : group keyOf (items ++ [item]) = file (keyOf item) item (group keyOf items) := by
  rw [group, List.foldl_append]
  rfl

/-- Grouping neither loses nor repeats an item. -/
theorem group_perm : ((group keyOf items).flatMap Prod.snd).Perm items := by
  induction items using List.reverseRecOn with
  | nil => exact .nil
  | append_singleton items item ih =>
    rw [group_concat]
    exact file_perm.trans (ih.append_right [item])

/-- A group's items have its key. -/
theorem group_keyed {first : κ} {there : List α} (member : (first, there) ∈ group keyOf items) :
    ∀ item ∈ there, keyOf item = first := by
  induction items using List.reverseRecOn generalizing first there with
  | nil => exact absurd member List.not_mem_nil
  | append_singleton items item ih =>
    rw [group_concat] at member
    rcases mem_file member with before | ⟨rfl, prior, rfl, before⟩
    · exact ih before
    · intro other inside
      rcases List.mem_append.mp inside with inside | inside
      · rcases before with rfl | before
        · exact absurd inside List.not_mem_nil
        · exact ih before other inside
      · rw [List.mem_singleton.mp inside]

/-- No group is empty. -/
theorem group_nonempty {first : κ} {there : List α} (member : (first, there) ∈ group keyOf items) : there ≠ [] := by
  induction items using List.reverseRecOn generalizing first there with
  | nil => exact absurd member List.not_mem_nil
  | append_singleton items item ih =>
    rw [group_concat] at member
    rcases mem_file member with before | ⟨-, prior, rfl, -⟩
    · exact ih before
    · exact List.append_ne_nil_of_right_ne_nil prior (List.cons_ne_nil item [])

/-- The items of a part of distinct items stand in one part only. -/
theorem group_pairwise_disjoint (distinct : items.Nodup) :
    (group keyOf items).Pairwise fun first second => first.2.Disjoint second.2 :=
  (List.nodup_flatMap.mp (group_perm.nodup_iff.mpr distinct)).2

theorem group_nodup (distinct : items.Nodup) {first : κ} {there : List α} (member : (first, there) ∈ group keyOf items) :
    there.Nodup :=
  (List.nodup_flatMap.mp (group_perm.nodup_iff.mpr distinct)).1 _ member

end CrossPool.Lib
