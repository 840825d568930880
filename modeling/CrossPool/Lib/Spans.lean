import Mathlib.Algebra.Order.Ring.Int
import Mathlib.Order.Interval.Finset.Nat
import Mathlib.Data.List.Basic
import Mathlib.Tactic.Ring

/-!
# Cells on a line

A line is cut into cells of one width and, independently, into cells of another.
The cells of the second cut that meet a run of cells of the first form an interval,
whose ends are one quotient rounded down and one rounded up; meeting is symmetric, so
the two conversions are inverse relations, whatever divides what.

Intervals are counted by their ends: a running sum over `+1` at each start and `-1` at
each end is, at a place, the number of intervals that hold it.
-/

namespace CrossPool.Lib

/-! ## Overlapping cells -/

/-- Cell `x` of width `u` and cell `y` of width `v` have a point in common. -/
def Overlaps (u x v y : Nat) : Prop :=
  x * u < (y + 1) * v ∧ y * v < (x + 1) * u

/-- The first cell of width `v` that meets cell `x` of width `u` or a later one. -/
def firstCell (u v x : Nat) : Nat :=
  x * u / v

/-- The first cell of width `v` beyond all cells of width `u` before `x`. -/
def pastCell (u v x : Nat) : Nat :=
  (x * u + v - 1) / v

section Cells

variable {u v x x' y : Nat}

theorem Overlaps.symm (overlap : Overlaps u x v y) : Overlaps v y u x :=
  ⟨overlap.2, overlap.1⟩

theorem overlaps_comm : Overlaps u x v y ↔ Overlaps v y u x :=
  ⟨Overlaps.symm, Overlaps.symm⟩

/-- Widths in a finer measure. -/
theorem overlaps_scale {c : Nat} (positive : 0 < c) : Overlaps (u * c) x (v * c) y ↔ Overlaps u x v y := by
  rw [Overlaps, Overlaps, ← Nat.mul_assoc, ← Nat.mul_assoc, ← Nat.mul_assoc, ← Nat.mul_assoc,
    Nat.mul_lt_mul_right positive, Nat.mul_lt_mul_right positive]

theorem overlaps_iff_point (wide : 0 < u) (wide' : 0 < v) :
    Overlaps u x v y ↔ ∃ point, (x * u ≤ point ∧ point < (x + 1) * u) ∧ y * v ≤ point ∧ point < (y + 1) * v := by
  rw [Overlaps, Nat.succ_mul, Nat.succ_mul]
  constructor
  · rintro ⟨before, after⟩
    exact ⟨max (x * u) (y * v), by omega, by omega⟩
  · rintro ⟨point, inside, inside'⟩
    omega

theorem firstCell_le (wide : 0 < v) : firstCell u v x ≤ y ↔ x * u < (y + 1) * v := by
  rw [firstCell, ← Nat.lt_succ_iff, Nat.div_lt_iff_lt_mul wide]

theorem lt_pastCell (wide : 0 < v) : y < pastCell u v x ↔ y * v < x * u := by
  rw [pastCell, ← Nat.succ_le_iff, Nat.le_div_iff_mul_le wide, Nat.succ_mul]
  omega

/-- The interval of cells that meet a run of cells. -/
theorem mem_cells_iff (wide : 0 < u) (wide' : 0 < v) (run : x < x') :
    firstCell u v x ≤ y ∧ y < pastCell u v x' ↔ ∃ i, (x ≤ i ∧ i < x') ∧ Overlaps u i v y := by
  rw [firstCell_le wide', lt_pastCell wide']
  constructor
  · rintro ⟨before, after⟩
    -- The cell that holds the later of the two left ends.
    refine ⟨max x (y * v / u), ⟨le_max_left _ _, ?_⟩, ?_⟩
    · rw [max_lt_iff, Nat.div_lt_iff_lt_mul wide]
      exact ⟨run, after⟩
    · rcases le_total (y * v / u) x with left | right
      · rw [max_eq_left left]
        refine ⟨before, ?_⟩
        rw [← Nat.div_lt_iff_lt_mul wide]
        omega
      · rw [max_eq_right right]
        have floor := Nat.div_mul_le_self (y * v) u
        refine ⟨?_, ?_⟩
        · rw [Nat.succ_mul]
          omega
        · rw [← Nat.div_lt_iff_lt_mul wide]
          omega
  · rintro ⟨i, ⟨lower, upper⟩, before, after⟩
    have left := Nat.mul_le_mul_right u lower
    have right := Nat.mul_le_mul_right u (Nat.succ_le_of_lt upper)
    exact ⟨left.trans_lt before, after.trans_le right⟩

/-- The cells that meet a single one. -/
theorem mem_cell_iff (wide : 0 < v) :
    firstCell u v x ≤ y ∧ y < pastCell u v (x + 1) ↔ Overlaps u x v y := by
  rw [firstCell_le wide, lt_pastCell wide, Overlaps]

theorem firstCell_lt_pastCell (wide : 0 < u) (wide' : 0 < v) (run : x < x') : firstCell u v x < pastCell u v x' := by
  rw [lt_pastCell wide', firstCell]
  have floor := Nat.div_mul_le_self (x * u) v
  have more := Nat.mul_lt_mul_of_pos_right run wide
  omega

theorem pastCell_mono (run : x ≤ x') : pastCell u v x ≤ pastCell u v x' := by
  apply Nat.div_le_div_right
  have more := Nat.mul_le_mul_right u run
  omega

/-- Rounding up to whole cells and back does not move an end within them. -/
theorem pastCell_le {limit : Nat} (wide : 0 < v) : pastCell u v x ≤ limit ↔ x * u ≤ limit * v := by
  rw [← not_lt, lt_pastCell wide, not_lt]

end Cells

/-! ## Difference arrays -/

/-- Add a value at each of some places; `none` where one of them does not exist. -/
def scatterAdd (value : Int) : List Int → List Int → Option (List Int)
  | xs, [] => some xs
  | xs, place :: rest =>
    if 0 ≤ place ∧ place < xs.length then scatterAdd value (xs.modify place.toNat (· + value)) rest else none

/-- Running sums. -/
def cumsum (xs : List Int) : List Int :=
  (List.range xs.length).map fun i => (xs.take (i + 1)).sum

/-- How many of some intervals, given by their ends, hold each place below a size. -/
def coverage (size : Nat) (starts ends : List Int) : Option (List Int) := do
  let opened ← scatterAdd 1 (List.replicate (size + 1) 0) starts
  let differences ← scatterAdd (-1) opened ends
  some (cumsum differences).dropLast

section Differences

variable {value : Int} {xs : List Int}

theorem take_modify_sum (place bound : Nat) (inside : place < xs.length) :
    ((xs.modify place (· + value)).take bound).sum = (xs.take bound).sum + if place < bound then value else 0 := by
  induction xs generalizing place bound with
  | nil => exact absurd inside (Nat.not_lt_zero _)
  | cons x xs ih =>
    cases bound with
    | zero => simp
    | succ bound =>
      cases place with
      | zero =>
        simp only [List.modify_zero_cons, List.take_succ_cons, List.sum_cons, Nat.zero_lt_succ, if_true]
        ring
      | succ place =>
        simp only [List.modify_succ_cons, List.take_succ_cons, List.sum_cons, Nat.succ_lt_succ_iff]
        rw [ih place bound (Nat.succ_lt_succ_iff.mp inside)]
        ring

theorem scatterAdd_eq_some (places : List Nat) (inside : ∀ place ∈ places, place < xs.length) :
    ∃ ys, scatterAdd value xs (places.map Int.ofNat) = some ys ∧ ys.length = xs.length ∧
      ∀ bound, (ys.take bound).sum = (xs.take bound).sum + value * (places.countP (· < bound) : Nat) := by
  induction places generalizing xs with
  | nil => exact ⟨xs, rfl, rfl, by simp⟩
  | cons place rest ih =>
    have here := inside place List.mem_cons_self
    have later : ∀ other ∈ rest, other < (xs.modify place (· + value)).length := by
      intro other member
      rw [List.length_modify]
      exact inside other (List.mem_cons_of_mem _ member)
    obtain ⟨ys, added, length, sums⟩ := ih later
    refine ⟨ys, ?_, by rw [length, List.length_modify], ?_⟩
    · rw [List.map_cons, scatterAdd, if_pos]
      · exact added
      · simp only [Int.ofNat_eq_natCast]
        omega
    · intro bound
      rw [sums bound, take_modify_sum place bound here, List.countP_cons]
      by_cases before : place < bound
      · simp only [before, if_true, decide_true]
        push_cast
        ring
      · simp only [before, if_false, decide_false, Bool.false_eq_true]
        push_cast
        ring

/-- What the ends count: the starts so far less the ends so far. -/
theorem coverage_eq_sub {size : Nat} (spans : List (Nat × Nat)) (inside : ∀ span ∈ spans, span.1 ≤ size ∧ span.2 ≤ size) :
    coverage size (spans.map fun span => (span.1 : Int)) (spans.map fun span => (span.2 : Int)) =
      some ((List.range size).map fun i => (spans.countP (·.1 ≤ i) : Int) - (spans.countP (·.2 ≤ i) : Nat)) := by
  have bounded : ∀ place ∈ spans.map Prod.fst, place < (List.replicate (size + 1) (0 : Int)).length := by
    intro place member
    obtain ⟨span, found, rfl⟩ := List.mem_map.mp member
    have := inside span found
    rw [List.length_replicate]
    omega
  obtain ⟨opened, adding, length, sums⟩ := @scatterAdd_eq_some 1 _ (spans.map Prod.fst) bounded
  have bounded' : ∀ place ∈ spans.map Prod.snd, place < opened.length := by
    intro place member
    obtain ⟨span, found, rfl⟩ := List.mem_map.mp member
    have := inside span found
    rw [length, List.length_replicate]
    omega
  obtain ⟨differences, closing, length', sums'⟩ := @scatterAdd_eq_some (-1) _ (spans.map Prod.snd) bounded'
  have total : differences.length = size + 1 := by
    rw [length', length, List.length_replicate]
  rw [List.map_map] at adding closing
  have starts : (spans.map fun span => (span.1 : Int)) = spans.map (Int.ofNat ∘ Prod.fst) := rfl
  have ends : (spans.map fun span => (span.2 : Int)) = spans.map (Int.ofNat ∘ Prod.snd) := rfl
  rw [coverage, starts, ends, adding]
  change (scatterAdd (-1) opened _).bind _ = _
  rw [closing]
  change some _ = some _
  rw [Option.some.injEq, cumsum, total, List.range_succ, List.map_append, List.map_singleton, List.dropLast_concat]
  apply List.map_congr_left
  intro i _
  have zero : ((List.replicate (size + 1) (0 : Int)).take (i + 1)).sum = 0 := by
    rw [List.take_replicate]
    simp
  rw [sums' (i + 1), sums (i + 1), zero, List.countP_map, List.countP_map]
  simp only [Function.comp_def, Nat.lt_succ_iff]
  omega

/-- The intervals that have started and not yet ended. -/
theorem coverage_eq_some {size : Nat} (spans : List (Nat × Nat)) (ordered : ∀ span ∈ spans, span.1 ≤ span.2 ∧ span.2 ≤ size) :
    coverage size (spans.map fun span => (span.1 : Int)) (spans.map fun span => (span.2 : Int)) =
      some ((List.range size).map fun i => (spans.countP fun span => span.1 ≤ i ∧ i < span.2 : Int)) := by
  rw [coverage_eq_sub spans fun span found => ⟨(ordered span found).1.trans (ordered span found).2, (ordered span found).2⟩]
  congr 1
  apply List.map_congr_left
  intro i _
  induction spans with
  | nil => simp
  | cons span rest ih =>
    have ordered' := ordered span List.mem_cons_self
    have rest' := ih fun other member => ordered other (List.mem_cons_of_mem _ member)
    simp only [List.countP_cons, decide_eq_true_eq] at rest' ⊢
    by_cases started : span.1 ≤ i
    · by_cases ended : span.2 ≤ i
      · rw [if_pos started, if_pos ended, if_neg (by omega)]
        push_cast
        omega
      · rw [if_pos started, if_neg ended, if_pos (by omega)]
        push_cast
        omega
    · rw [if_neg started, if_neg (by omega), if_neg (by omega)]
      push_cast
      omega

/-- Values are added at places that exist. -/
theorem inside_of_scatterAdd {places ys : List Int} (added : scatterAdd value xs places = some ys) :
    ys.length = xs.length ∧ ∀ place ∈ places, 0 ≤ place ∧ place < xs.length := by
  induction places generalizing xs with
  | nil =>
    obtain rfl := Option.some.inj added
    exact ⟨rfl, by simp⟩
  | cons place rest ih =>
    rw [scatterAdd] at added
    split at added
    · next here =>
      obtain ⟨length, later⟩ := ih added
      rw [List.length_modify] at length later
      refine ⟨length, ?_⟩
      intro other member
      rcases List.mem_cons.mp member with rfl | member
      · exact here
      · exact later other member
    · cases added

/-- Intervals are counted where their ends are places or one past them. -/
theorem inside_of_coverage {size : Nat} {starts ends counts : List Int} (counted : coverage size starts ends = some counts) :
    ∀ place ∈ starts ++ ends, 0 ≤ place ∧ place ≤ size := by
  obtain ⟨opened, adding, closes⟩ := Option.bind_eq_some_iff.mp counted
  obtain ⟨differences, closing, -⟩ := Option.bind_eq_some_iff.mp closes
  obtain ⟨length, starts'⟩ := inside_of_scatterAdd adding
  obtain ⟨-, ends'⟩ := inside_of_scatterAdd closing
  rw [List.length_replicate] at length starts'
  rw [length] at ends'
  intro place member
  rcases List.mem_append.mp member with start | stop
  · have := starts' place start
    omega
  · have := ends' place stop
    omega

/-- Running sums from zero are the sums of the beginnings. -/
theorem getElem?_zero_cumsum {bound : Nat} (within : bound ≤ xs.length) :
    (0 :: cumsum xs)[bound]? = some (xs.take bound).sum := by
  cases bound with
  | zero => simp
  | succ bound =>
    rw [List.getElem?_cons_succ, cumsum, List.getElem?_map, List.getElem?_range (Nat.lt_of_succ_le within)]
    rfl

/-- The sum between two places of a running sum over a range of flags counts the flags. -/
theorem take_sum_sub {size first past : Nat} (ordered : first ≤ past) (within : past ≤ size) (flag : Nat → Bool) :
    (((List.range size).map fun i => if flag i then (1 : Int) else 0).take past).sum -
        (((List.range size).map fun i => if flag i then (1 : Int) else 0).take first).sum =
      ((List.range' first (past - first)).countP flag : Nat) := by
  have counts (bound : Nat) (inside : bound ≤ size) :
      (((List.range size).map fun i => if flag i then (1 : Int) else 0).take bound).sum =
        ((List.range bound).countP flag : Nat) := by
    rw [← List.map_take, List.take_range, min_eq_left inside]
    induction bound with
    | zero => rfl
    | succ bound ih =>
      rw [List.range_succ, List.map_append, List.sum_append, ih (by omega), List.countP_append]
      by_cases here : flag bound
      · simp [here]
      · simp [here]
  have split : List.range past = List.range first ++ List.range' first (past - first) := by
    have pieces := @List.range'_append_1 0 first (past - first)
    rw [Nat.zero_add, Nat.add_sub_cancel' ordered] at pieces
    rw [List.range_eq_range', List.range_eq_range', pieces]
  rw [counts past within, counts first (ordered.trans within), split, List.countP_append]
  push_cast
  omega

/-- Distinct places of an interval are as many as it is long just where they are all of it. -/
theorem countP_interval_iff {places : List Nat} (distinct : places.Nodup) {first past : Nat} :
    (places.countP fun place => first ≤ place ∧ place < past) = past - first ↔
      ∀ place, first ≤ place → place < past → place ∈ places := by
  have inside : (places.filter fun place => first ≤ place ∧ place < past).toFinset ⊆ Finset.Ico first past := by
    intro place member
    rw [List.mem_toFinset, List.mem_filter, decide_eq_true_eq] at member
    exact Finset.mem_Ico.mpr member.2
  rw [List.countP_eq_length_filter, ← List.toFinset_card_of_nodup (distinct.filter _), ← Nat.card_Ico]
  constructor
  · intro count place lower upper
    have all := Finset.eq_of_subset_of_card_le inside count.ge
    have member : place ∈ (places.filter fun place => first ≤ place ∧ place < past).toFinset := by
      rw [all]
      exact Finset.mem_Ico.mpr ⟨lower, upper⟩
    exact (List.mem_filter.mp (List.mem_toFinset.mp member)).1
  · intro all
    congr 1
    apply inside.antisymm
    intro place member
    obtain ⟨lower, upper⟩ := Finset.mem_Ico.mp member
    rw [List.mem_toFinset, List.mem_filter, decide_eq_true_eq]
    exact ⟨all place lower upper, lower, upper⟩

end Differences

end CrossPool.Lib
