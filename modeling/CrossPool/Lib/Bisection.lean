import Mathlib.Tactic.Common

/-!
# Bisection

A search for the largest number of an interval that a probe selects. A probe may also send the search
up without selecting, or raise. Where the numbers that send it down lie above all that
it selects, the search finds the largest of these.
-/

namespace CrossPool.Lib

variable {ε α : Type}

/-- What a probe tells the search. -/
inductive Verdict (α : Type) where
  | select (value : α)
  | higher
  | lower
deriving DecidableEq, Repr

/-- The loop. The upper end is the number after the last candidate. -/
def bisect (probe : Nat → Except ε (Verdict α)) (lower past : Nat) (best : Option α) : Except ε (Option α) :=
  if lower < past then
    let middle := (lower + (past - 1)) / 2
    match probe middle with
    | .error raised => .error raised
    | .ok (.select value) => bisect probe (middle + 1) past (some value)
    | .ok .higher => bisect probe (middle + 1) past best
    | .ok .lower => bisect probe lower middle best
  else .ok best
termination_by past - lower

/-- The verdicts are such that the search misses none: none below a selected number sends it down,
none above sends it up. -/
structure Searchable (verdict : Nat → Verdict α) (lower past : Nat) : Prop where
  reaches : ∀ {middle chosen value}, lower ≤ middle → middle ≤ chosen → chosen < past →
    verdict chosen = .select value → verdict middle ≠ .lower
  keeps : ∀ {middle chosen value}, lower ≤ chosen → chosen ≤ middle → middle < past →
    verdict chosen = .select value → verdict middle ≠ .higher

/-- The selection of the largest number of the interval that is selected, if any is. -/
def IsLargest (verdict : Nat → Verdict α) (lower past : Nat) : Option α → Prop
  | none => ∀ number value, lower ≤ number → number < past → verdict number ≠ .select value
  | some chosen => ∃ largest, (lower ≤ largest ∧ largest < past) ∧ verdict largest = .select chosen ∧
      ∀ number value, largest < number → number < past → verdict number ≠ .select value

namespace Searchable

variable {verdict : Nat → Verdict α} {lower past : Nat}

theorem narrow (searchable : Searchable verdict lower past) {lower' past' : Nat} (above : lower ≤ lower')
    (below : past' ≤ past) : Searchable verdict lower' past' where
  reaches := by
    intro middle chosen value first second third
    exact searchable.reaches (by omega) second (by omega)
  keeps := by
    intro middle chosen value first second third
    exact searchable.keeps (by omega) second (by omega)

end Searchable

namespace IsLargest

variable {verdict : Nat → Verdict α} {lower past middle : Nat} {found : Option α}

/-- The search has selected a number and gone up. -/
theorem of_select {value : α} (within : lower ≤ middle ∧ middle < past) (selected : verdict middle = .select value)
    (rest : IsLargest verdict (middle + 1) past found) : IsLargest verdict lower past (found.or (some value)) := by
  cases found with
  | none =>
    refine ⟨middle, within, selected, ?_⟩
    intro number other above below
    exact rest number other above below
  | some chosen =>
    obtain ⟨largest, inside, same, none⟩ := rest
    exact ⟨largest, ⟨by omega, inside.2⟩, same, none⟩

/-- None of the numbers that the search leaves out is selected. -/
theorem widen {lower' past' : Nat} (rest : IsLargest verdict lower' past' found) (above : lower ≤ lower')
    (below : past' ≤ past)
    (outside : ∀ number value, lower ≤ number → number < past → verdict number = .select value →
      lower' ≤ number ∧ number < past') : IsLargest verdict lower past found := by
  cases found with
  | none =>
    intro number value first second selected
    obtain ⟨left, right⟩ := outside number value first second selected
    exact rest number value left right selected
  | some chosen =>
    obtain ⟨largest, inside, same, none⟩ := rest
    refine ⟨largest, ⟨by omega, by omega⟩, same, ?_⟩
    intro number value first second selected
    obtain ⟨left, right⟩ := outside number value (by omega) second selected
    exact none number value first right selected

end IsLargest

/-- A search whose probes answer returns the largest selection, else what it had. -/
theorem bisect_ok {probe : Nat → Except ε (Verdict α)} {verdict : Nat → Verdict α} {lower past : Nat}
    (best : Option α) (searchable : Searchable verdict lower past)
    (answers : ∀ number, lower ≤ number → number < past → probe number = .ok (verdict number)) :
    ∃ found, bisect probe lower past best = .ok (found.or best) ∧ IsLargest verdict lower past found := by
  fun_induction bisect probe lower past best with
  | case1 lower past best open_ middle raised failed =>
    have answered := answers middle (by omega) (by omega)
    rw [failed] at answered
    cases answered
  | case2 lower past best open_ middle value selected ih =>
    have answered := answers middle (by omega) (by omega)
    rw [selected] at answered
    obtain ⟨found, returned, largest⟩ := ih (searchable.narrow (by omega) (by omega))
      (fun number above below => answers number (by omega) below)
    refine ⟨found.or (some value), ?_, ?_⟩
    · simpa [Option.or_assoc] using returned
    · apply largest.of_select ⟨by omega, by omega⟩
      simpa using answered.symm
  | case3 lower past best open_ middle raised ih =>
    have answered : verdict middle = .higher := by
      simpa [raised] using (answers middle (by omega) (by omega)).symm
    obtain ⟨found, returned, largest⟩ := ih (searchable.narrow (by omega) (by omega))
      (fun number above below => answers number (by omega) below)
    refine ⟨found, returned, ?_⟩
    apply largest.widen (by omega) (Nat.le_refl past)
    intro number value first second selected
    refine ⟨?_, second⟩
    by_contra before
    exact searchable.keeps first (by omega) (by omega) selected answered
  | case4 lower past best open_ middle sent ih =>
    have answered : verdict middle = .lower := by
      simpa [sent] using (answers middle (by omega) (by omega)).symm
    obtain ⟨found, returned, largest⟩ := ih (searchable.narrow (by omega) (by omega))
      (fun number above below => answers number above (by omega))
    refine ⟨found, returned, ?_⟩
    apply largest.widen (Nat.le_refl lower) (by omega)
    intro number value first second selected
    refine ⟨first, ?_⟩
    by_contra after
    exact searchable.reaches (by omega) (by omega) second selected answered
  | case5 lower past best closed =>
    refine ⟨none, rfl, ?_⟩
    intro number value first second
    omega

end CrossPool.Lib
