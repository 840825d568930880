import Mathlib.Data.List.Nodup
import Mathlib.Logic.Function.Basic
import Mathlib.Tactic.Common

/-!
# Undoing writes and removals

Snapshots of a function are undone the newest first: what is found then is what was
there before the oldest, whatever was written in between to the places they name. Items
taken out of a list are put back by the positions that they had in it, in ascending
order.
-/

namespace CrossPool.Lib

variable {α β : Type} [DecidableEq α]

/-! ## Snapshots -/

/-- Write values at some places, one after the other. -/
def assign (f : α → β) : List (α × β) → α → β
  | [] => f
  | entry :: rest => assign (Function.update f entry.1 entry.2) rest

/-- The values at some places. -/
def snapshot (f : α → β) (places : List α) : List (α × β) :=
  places.map fun place => (place, f place)

/-- Restore snapshots, the newest first. -/
def undo (f : α → β) : List (List (α × β)) → α → β
  | [] => f
  | newest :: older => undo (assign f newest) older

section Snapshots

variable {f : α → β} {entries : List (α × β)} {snapshots : List (List (α × β))} {place : α}

theorem assign_snapshot (f : α → β) (places : List α) : assign f (snapshot f places) = f := by
  induction places with
  | nil => rfl
  | cons place places ih =>
    rw [snapshot, List.map_cons, assign, Function.update_eq_self]
    exact ih

theorem assign_update_of_mem (value : β) (member : place ∈ entries.map Prod.fst) :
    assign (Function.update f place value) entries = assign f entries := by
  induction entries generalizing f with
  | nil => cases member
  | cons entry rest ih =>
    rw [assign, assign]
    by_cases same : place = entry.1
    · rw [same, Function.update_idem]
    · rw [Function.update_comm same]
      apply ih
      exact (List.mem_cons.mp member).resolve_left same

theorem assign_update_of_not_mem (value : β) (absent : place ∉ entries.map Prod.fst) :
    assign (Function.update f place value) entries = Function.update (assign f entries) place value := by
  induction entries generalizing f with
  | nil => rfl
  | cons entry rest ih =>
    rw [List.map_cons, List.mem_cons, not_or] at absent
    rw [assign, assign, Function.update_comm absent.1]
    exact ih absent.2

/-- Writing what a function has at some places makes it that function, if it is
elsewhere. -/
theorem assign_eq {g : α → β} (listed : ∀ entry ∈ entries, entry.2 = g entry.1)
    (rest : ∀ place, place ∉ entries.map Prod.fst → f place = g place) : assign f entries = g := by
  induction entries generalizing f with
  | nil =>
    funext place
    exact rest place List.not_mem_nil
  | cons entry later ih =>
    rw [assign]
    apply ih
    · intro other member
      exact listed other (List.mem_cons_of_mem _ member)
    · intro place absent
      by_cases same : place = entry.1
      · rw [same, Function.update_self]
        exact listed entry List.mem_cons_self
      · rw [Function.update_of_ne same]
        apply rest
        rw [List.map_cons, List.mem_cons, not_or]
        exact ⟨same, absent⟩

/-- Another snapshot changes nothing by itself. -/
theorem undo_snapshot (f : α → β) (places : List α) (snapshots : List (List (α × β))) :
    undo f (snapshot f places :: snapshots) = undo f snapshots := by
  rw [undo, assign_snapshot]

/-- A write to a place that some snapshot names is undone. -/
theorem undo_update (value : β) (named : ∃ entries ∈ snapshots, place ∈ entries.map Prod.fst) :
    undo (Function.update f place value) snapshots = undo f snapshots := by
  induction snapshots generalizing f with
  | nil =>
    obtain ⟨entries, none, -⟩ := named
    cases none
  | cons newest older ih =>
    rw [undo, undo]
    by_cases member : place ∈ newest.map Prod.fst
    · rw [assign_update_of_mem value member]
    · rw [assign_update_of_not_mem value member]
      apply ih
      obtain ⟨entries, listed, inside⟩ := named
      rcases List.mem_cons.mp listed with rfl | earlier
      · exact absurd inside member
      · exact ⟨entries, earlier, inside⟩

end Snapshots

/-! ## Positions -/

/-- `list.insert`: a position beyond the end is the end. -/
def insertAt (items : List α) (position : Nat) (item : α) : List α :=
  items.take position ++ item :: items.drop position

/-- Put back what is missing, by position. -/
def reinsert : List α → List (α × Nat) → List α
  | items, [] => items
  | items, entry :: rest =>
    if entry.1 ∈ items then reinsert items rest else reinsert (insertAt items entry.2 entry.1) rest

section Positions

variable {whole : List α} {kept : α → Bool}

/-- An item whose predecessors are all there goes to its own position. -/
theorem insertAt_filter (distinct : whole.Nodup) {item : α} (member : item ∈ whole) (missing : kept item = false)
    (before : ∀ other ∈ whole, whole.idxOf other < whole.idxOf item → kept other) :
    insertAt (whole.filter kept) (whole.idxOf item) item = whole.filter fun other => kept other || other = item := by
  obtain ⟨front, back, rfl⟩ := List.append_of_mem member
  obtain ⟨distinctFront, distinctBack, apart⟩ := List.nodup_append.mp distinct
  have fresh : item ∉ front := fun inside => apart item inside item List.mem_cons_self rfl
  have fresh' : item ∉ back := (List.nodup_cons.mp distinctBack).1
  have place : (front ++ item :: back).idxOf item = front.length := by
    rw [List.idxOf_append_of_notMem fresh, List.idxOf_cons_self, Nat.add_zero]
  have all : ∀ other ∈ front, kept other = true := by
    intro other inside
    apply before other (List.mem_append_left _ inside)
    rw [place, List.idxOf_append_of_mem inside]
    exact List.idxOf_lt_length_of_mem inside
  have whole' : front.filter (fun other => kept other || other = item) = front := by
    apply List.filter_eq_self.mpr
    intro other inside
    rw [all other inside, Bool.true_or]
  have rest : back.filter (fun other => kept other || other = item) = back.filter kept := by
    apply List.filter_congr
    intro other inside
    have differs : other ≠ item := fun same => fresh' (same ▸ inside)
    simp [differs]
  rw [place, List.filter_append, List.filter_append, List.filter_eq_self.mpr all, whole',
    List.filter_cons_of_neg (by simp [missing]), List.filter_cons_of_pos (by simp), rest, insertAt, List.take_left,
    List.drop_left]

/-- An item with nothing taken out ahead of it keeps its position. -/
theorem idxOf_filter {item : α} (there : kept item = true)
    (before : ∀ other ∈ whole, whole.idxOf other < whole.idxOf item → kept other) :
    (whole.filter kept).idxOf item = whole.idxOf item := by
  induction whole with
  | nil => rfl
  | cons head rest ih =>
    by_cases same : head = item
    · rw [same, List.filter_cons_of_pos there, List.idxOf_cons_self, List.idxOf_cons_self]
    · have first : kept head = true := by
        apply before head List.mem_cons_self
        rw [List.idxOf_cons_self, List.idxOf_cons_ne _ same]
        exact Nat.succ_pos _
      rw [List.filter_cons_of_pos first, List.idxOf_cons_ne _ same, List.idxOf_cons_ne _ same, ih]
      intro other member ahead
      by_cases leads : head = other
      · rwa [← leads]
      · apply before other (List.mem_cons_of_mem _ member)
        rw [List.idxOf_cons_ne _ leads, List.idxOf_cons_ne _ same]
        exact Nat.succ_lt_succ ahead

/-- What was taken out of a list comes back to where it was, if the positions are those in
the whole list and taken in ascending order. -/
theorem reinsert_eq (distinct : whole.Nodup) {entries : List (α × Nat)} (kept : α → Bool)
    (ascending : entries.Pairwise fun first second => first.2 ≤ second.2)
    (placed : ∀ entry ∈ entries, entry.1 ∉ whole.filter kept → entry.1 ∈ whole ∧ entry.2 = whole.idxOf entry.1)
    (complete : ∀ item ∈ whole, kept item = false → ∃ position, (item, position) ∈ entries) :
    reinsert (whole.filter kept) entries = whole := by
  induction entries generalizing kept with
  | nil =>
    rw [reinsert]
    apply List.filter_eq_self.mpr
    intro item member
    by_contra missing
    obtain ⟨position, none⟩ := complete item member (Bool.not_eq_true _ ▸ missing)
    cases none
  | cons entry rest ih =>
    obtain ⟨first, ascending⟩ := List.pairwise_cons.mp ascending
    rw [reinsert]
    split
    · rename_i present
      apply ih kept ascending
      · intro other member
        exact placed other (List.mem_cons_of_mem _ member)
      · intro item member missing
        obtain ⟨position, listed⟩ := complete item member missing
        refine ⟨position, (List.mem_cons.mp listed).resolve_left ?_⟩
        rintro rfl
        exact absurd (List.mem_filter.mp present).2 (by simp [missing])
    · rename_i absent
      obtain ⟨member, position⟩ := placed entry List.mem_cons_self absent
      have missing : kept entry.1 = false := by
        by_contra there
        exact absent (List.mem_filter.mpr ⟨member, by simpa using there⟩)
      rw [position, insertAt_filter distinct member missing ?_]
      · apply ih _ ascending
        · intro other listed gone
          apply placed other (List.mem_cons_of_mem _ listed)
          intro present
          apply gone
          have present := List.mem_filter.mp present
          exact List.mem_filter.mpr ⟨present.1, by simp [present.2]⟩
        · intro item inside gone
          rw [Bool.or_eq_false_iff, decide_eq_false_iff_not] at gone
          obtain ⟨position, listed⟩ := complete item inside gone.1
          refine ⟨position, (List.mem_cons.mp listed).resolve_left ?_⟩
          rintro rfl
          exact gone.2 rfl
      · intro other inside earlier
        by_contra gone
        rw [Bool.not_eq_true] at gone
        obtain ⟨place, listed⟩ := complete other inside gone
        rcases List.mem_cons.mp listed with same | later
        · rw [← same] at earlier
          exact Nat.lt_irrefl _ earlier
        · have order := first _ later
          have absent' : other ∉ whole.filter kept := by
            intro present
            rw [(List.mem_filter.mp present).2] at gone
            cases gone
          have known := (placed _ (List.mem_cons_of_mem _ later) absent').2
          dsimp only at order known
          omega

end Positions

end CrossPool.Lib
