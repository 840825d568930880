import CrossPool.Lib.Layout

/-!
# Rows of different lengths

Entries of some items, row behind row. An entry is found by where its row starts and its
place in the row, and every entry has such a place.
-/

namespace CrossPool.Lib

section Rows

variable {α β : Type} {width : α → Nat} {entry : Nat → α → Nat → β} {items : List α} {first : Nat}

/-- The rows of the items, which are numbered from `first` on. -/
def rows (width : α → Nat) (entry : Nat → α → Nat → β) : Nat → List α → List β
  | _, [] => []
  | first, item :: rest => (List.range (width item)).map (entry first item) ++ rows width entry (first + 1) rest

/-- Where the row of an item starts. -/
def rowStart (width : α → Nat) (items : List α) (row : Nat) : Nat :=
  ((items.take row).map width).sum

@[simp] theorem rowStart_zero (items : List α) : rowStart width items 0 = 0 :=
  rfl

@[simp] theorem rowStart_cons_succ (item : α) (rest : List α) (row : Nat) :
    rowStart width (item :: rest) (row + 1) = width item + rowStart width rest row := by
  rw [rowStart, List.take_succ_cons, List.map_cons, List.sum_cons, rowStart]

theorem getElem?_rows {row place : Nat} {item : α} (found : items[row]? = some item) (inside : place < width item) :
    (rows width entry first items)[rowStart width items row + place]? = some (entry (first + row) item place) := by
  induction items generalizing first row with
  | nil => cases found
  | cons other rest ih =>
    cases row with
    | zero =>
      obtain rfl := Option.some.inj found
      rw [rows, rowStart_zero, Nat.zero_add, List.getElem?_append_left (by simpa using inside), List.getElem?_map,
        List.getElem?_range inside]
      rfl
    | succ row =>
      have later := @ih (first + 1) row found
      rw [rows, rowStart_cons_succ, List.getElem?_append_right (by simp; omega), List.length_map, List.length_range,
        Nat.add_assoc, Nat.add_sub_cancel_left, later, Nat.add_assoc, Nat.add_comm 1]

/-- Every entry has a place in a row. -/
theorem exists_of_getElem?_rows {index : Nat} {b : β} (found : (rows width entry first items)[index]? = some b) :
    ∃ row item place, items[row]? = some item ∧ place < width item ∧ index = rowStart width items row + place ∧
      b = entry (first + row) item place := by
  induction items generalizing first index with
  | nil => cases found
  | cons item rest ih =>
    rw [rows] at found
    by_cases here : index < width item
    · rw [List.getElem?_append_left (by simpa using here), List.getElem?_map, List.getElem?_range here] at found
      exact ⟨0, item, index, rfl, here, by rw [rowStart_zero, Nat.zero_add], (Option.some.inj found).symm⟩
    · rw [List.getElem?_append_right (by simp; omega), List.length_map, List.length_range] at found
      obtain ⟨row, item', place, listed, inside, is, value⟩ := ih found
      refine ⟨row + 1, item', place, listed, inside, ?_, ?_⟩
      · rw [rowStart_cons_succ]
        omega
      · rw [value, Nat.add_assoc, Nat.add_comm 1]

theorem length_rows : (rows width entry first items).length = (items.map width).sum := by
  induction items generalizing first with
  | nil => rfl
  | cons item rest ih => rw [rows, List.length_append, List.length_map, List.length_range, ih, List.map_cons, List.sum_cons]

/-- Rows, written as a loop over the numbered items. -/
theorem flatMap_zipIdx : ((items.zipIdx first).flatMap fun numbered => (List.range (width numbered.1)).map (entry numbered.2 numbered.1)) =
    rows width entry first items := by
  induction items generalizing first with
  | nil => rfl
  | cons item rest ih => rw [List.zipIdx_cons, List.flatMap_cons, ih, rows]

end Rows

end CrossPool.Lib
