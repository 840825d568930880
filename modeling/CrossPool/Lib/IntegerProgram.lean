import Mathlib.Algebra.BigOperators.Fin
import Mathlib.Algebra.Order.BigOperators.Group.Finset
import Mathlib.Algebra.Order.Ring.Int
import Mathlib.Data.Int.ConditionallyCompleteOrder
import Mathlib.Data.Int.Interval
import Mathlib.Data.Set.Finite.Lattice
import Mathlib.Data.Set.Finite.Lemmas
import Mathlib.Order.ConditionallyCompleteLattice.Basic
import Mathlib.Order.PiLex
import Mathlib.Tactic.Ring

/-!
# Integer programs

Linear constraints over integer variables in one common domain, solvers that prove the
optima they return, and the optimum that is found by minimizing one variable after the
other. A covering program loses no optimum to a domain that ends at its largest target.
-/

namespace CrossPool.Lib

variable {n : Nat}

/-- A linear expression in `n` variables. -/
structure Linear (n : Nat) where
  coefficients : Fin n → Int
  constant : Int

/-- The value of an expression. -/
def Linear.value (e : Linear n) (x : Fin n → Int) : Int :=
  ∑ i, e.coefficients i * x i + e.constant

/-- One variable as an expression. -/
def Linear.variable (i : Fin n) : Linear n :=
  ⟨Pi.single i 1, 0⟩

@[simp] theorem Linear.variable_value (i : Fin n) (x : Fin n → Int) : (Linear.variable i).value x = x i := by
  simp [Linear.variable, Linear.value, Pi.single_apply]

inductive Constraint (n : Nat) where
  | atLeast (e : Linear n) (bound : Int)
  | equal (e : Linear n) (bound : Int)

def Constraint.Holds (x : Fin n → Int) : Constraint n → Prop
  | .atLeast e bound => bound ≤ e.value x
  | .equal e bound => e.value x = bound

/-- Variables from zero to a common bound, under constraints. -/
structure IntegerProgram (n : Nat) where
  upper : Int
  constraints : List (Constraint n)

namespace IntegerProgram

variable {P : IntegerProgram n} {objective : Linear n} {x y : Fin n → Int}

def add (P : IntegerProgram n) (constraint : Constraint n) : IntegerProgram n :=
  { P with constraints := P.constraints ++ [constraint] }

structure Feasible (P : IntegerProgram n) (x : Fin n → Int) : Prop where
  domain : ∀ i, 0 ≤ x i ∧ x i ≤ P.upper
  holds : ∀ constraint ∈ P.constraints, constraint.Holds x

theorem feasible_add {constraint : Constraint n} : (P.add constraint).Feasible x ↔ P.Feasible x ∧ constraint.Holds x := by
  constructor
  · intro feasible
    exact ⟨⟨feasible.domain, fun other listed => feasible.holds other (List.mem_append_left _ listed)⟩,
      feasible.holds constraint (List.mem_append_right _ (List.mem_singleton.mpr rfl))⟩
  · rintro ⟨feasible, own⟩
    refine ⟨feasible.domain, fun other listed => ?_⟩
    rcases List.mem_append.mp listed with listed | listed
    · exact feasible.holds other listed
    · rw [List.mem_singleton.mp listed]
      exact own

/-- A feasible assignment that no other undercuts. -/
structure Optimal (P : IntegerProgram n) (objective : Linear n) (x : Fin n → Int) : Prop where
  feasible : P.Feasible x
  least : ∀ y, P.Feasible y → objective.value x ≤ objective.value y

/-- The domain is finite. -/
theorem finite_feasible (P : IntegerProgram n) : {x | P.Feasible x}.Finite := by
  apply (Set.Finite.pi fun _ : Fin n => Set.finite_Icc 0 P.upper).subset
  intro x feasible i _
  exact feasible.domain i

theorem exists_optimal (feasible : P.Feasible x) (objective : Linear n) : ∃ y, P.Optimal objective y := by
  obtain ⟨y, member, least⟩ := Set.exists_min_image {x | P.Feasible x} objective.value P.finite_feasible ⟨x, feasible⟩
  exact ⟨y, member, least⟩

end IntegerProgram

/-- What a solver returns, `none` unless it has proved an optimum. -/
abbrev Solver (n : Nat) := IntegerProgram n → Linear n → Option (Fin n → Int)

/-- A solver that proves an optimum wherever there is one. -/
structure ExactSolver (solve : Solver n) : Prop where
  optimal : ∀ {P objective x}, solve P objective = some x → P.Optimal objective x
  complete : ∀ {P x}, P.Feasible x → ∀ objective, ∃ y, solve P objective = some y

theorem exists_exactSolver (n : Nat) : ∃ solve : Solver n, ExactSolver solve := by
  classical
  refine ⟨fun P objective => if some : ∃ x, P.Optimal objective x then some.choose else none, ?_, ?_⟩
  · intro P objective x solved
    simp only [Option.dite_none_right_eq_some, Option.some.injEq] at solved
    obtain ⟨some, rfl⟩ := solved
    exact some.choose_spec
  · intro P x feasible objective
    have some := P.exists_optimal feasible objective
    exact ⟨some.choose, dif_pos some⟩

/-! ## One variable after the other -/

section lex

variable {Feasible : (Fin n → Int) → Prop} {x : Fin n → Int}

/-- Each variable least under the values of those before it: that is the first of all in
the lexicographic order. -/
theorem lex_least (least : ∀ i y, Feasible y → (∀ j < i, y j = x j) → x i ≤ y i) {y : Fin n → Int} (feasible : Feasible y) :
    toLex x ≤ toLex y := by
  by_contra less
  rw [not_le] at less
  obtain ⟨i, same, smaller⟩ := less
  exact absurd (least i y feasible fun j earlier => same j earlier) (not_le.mpr smaller)

/-- An earlier part of `finRange` holds the indices below the next. -/
theorem mem_of_finRange {done rest : List (Fin n)} {i j : Fin n} (whole : List.finRange n = done ++ i :: rest) :
    j ∈ done ↔ j < i := by
  have sorted : (done ++ i :: rest).Pairwise (· < ·) := whole ▸ List.pairwise_lt_finRange n
  obtain ⟨-, later, across⟩ := List.pairwise_append.mp sorted
  constructor
  · exact fun listed => across j listed i List.mem_cons_self
  · intro below
    have listed : j ∈ done ++ i :: rest := whole ▸ List.mem_finRange j
    rcases List.mem_append.mp listed with early | late
    · exact early
    · rcases List.mem_cons.mp late with rfl | late
      · exact absurd below (lt_irrefl _)
      · exact absurd below (lt_asymm (List.rel_of_pairwise_cons later late))

end lex

/-! ## Covers -/

section cover

variable {row x : Fin n → Int} {target cap : Int}

/-- Values above the largest target can be cut down to it. -/
theorem cover_cap (nonneg : ∀ i, 0 ≤ row i) (domain : ∀ i, 0 ≤ x i) (enough : target ≤ cap) (low : 0 ≤ cap)
    (covers : target ≤ ∑ i, row i * x i) : target ≤ ∑ i, row i * min (x i) cap := by
  by_cases high : ∃ i, 0 < row i ∧ cap < x i
  · obtain ⟨i, counts, above⟩ := high
    calc
      target ≤ cap := enough
      _ ≤ row i * cap := le_mul_of_one_le_left low counts
      _ = row i * min (x i) cap := by rw [min_eq_right above.le]
      _ ≤ ∑ j, row j * min (x j) cap :=
        Finset.single_le_sum (fun j _ => mul_nonneg (nonneg j) (le_min (domain j) low)) (Finset.mem_univ i)
  · push Not at high
    have same : ∑ i, row i * min (x i) cap = ∑ i, row i * x i := by
      refine Finset.sum_congr rfl fun i _ => ?_
      rcases (nonneg i).eq_or_lt with zero | counts
      · rw [← zero, zero_mul, zero_mul]
      · rw [min_eq_left (high i counts)]
    rw [same]
    exact covers

theorem sum_cap_le (nonneg : ∀ i, 0 ≤ row i) : ∑ i, row i * min (x i) cap ≤ ∑ i, row i * x i :=
  Finset.sum_le_sum fun i _ => mul_le_mul_of_nonneg_left (min_le_left _ _) (nonneg i)

end cover

end CrossPool.Lib
