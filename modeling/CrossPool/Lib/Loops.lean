import Mathlib.Tactic.Common

/-!
# Loops that may raise

Rules for loops over a list in `Except`: a loop whose steps keep an invariant on the
part gone through returns with the invariant on the whole list, and a search whose
questions are answered finds what a search of the answers finds.
-/

namespace CrossPool.Lib

variable {ε α β : Type}

/-- An invariant of the items gone through, kept by every step, holds at the end. -/
theorem foldlM_ok {items : List α} {f : β → α → Except ε β} {start : β} (inv : List α → β → Prop) (init : inv [] start)
    (step : ∀ done item rest state, items = done ++ item :: rest → inv done state →
      ∃ next, f state item = .ok next ∧ inv (done ++ [item]) next) :
    ∃ last, items.foldlM f start = .ok last ∧ inv items last := by
  suffices holds : ∀ rest done state, items = done ++ rest → inv done state →
      ∃ last, rest.foldlM f state = .ok last ∧ inv items last from holds items [] start rfl init
  intro rest
  induction rest with
  | nil =>
    intro done state whole here
    rw [List.append_nil] at whole
    exact ⟨state, rfl, whole ▸ here⟩
  | cons item rest ih =>
    intro done state whole here
    obtain ⟨next, stepped, after⟩ := step done item rest state whole here
    obtain ⟨last, folded, ended⟩ := ih (done ++ [item]) next (by rw [whole, List.append_assoc]; rfl) after
    refine ⟨last, ?_, ended⟩
    rw [List.foldlM_cons, stepped]
    exact folded

/-- The rule for a counted loop. -/
theorem foldlM_range_ok {count : Nat} {f : β → Nat → Except ε β} {start : β} (inv : Nat → β → Prop) (init : inv 0 start)
    (step : ∀ round < count, ∀ state, inv round state → ∃ next, f state round = .ok next ∧ inv (round + 1) next) :
    ∃ last, (List.range count).foldlM f start = .ok last ∧ inv count last := by
  have each : ∀ done round rest state, List.range count = done ++ round :: rest → inv done.length state →
      ∃ next, f state round = .ok next ∧ inv (done ++ [round]).length next := by
    intro done round rest state whole here
    have place : done.length < (List.range count).length := by simp [whole]
    have same : done.length = round := by
      have read : (List.range count)[done.length]? = some round := by simp [whole]
      rw [List.getElem?_eq_getElem place, List.getElem_range] at read
      exact Option.some.inj read
    rw [List.length_range] at place
    obtain ⟨next, stepped, after⟩ := step done.length place state here
    exact ⟨next, same ▸ stepped, by simpa using after⟩
  have folded := foldlM_ok (fun done state => inv done.length state) init each
  rwa [List.length_range] at folded

/-- A search asks what a search of the answers asks. -/
theorem findM?_ok {items : List α} {ask : α → Except ε Bool} {answer : α → Bool}
    (answers : ∀ item ∈ items, ask item = .ok (answer item)) : items.findM? ask = .ok (items.find? answer) := by
  induction items with
  | nil => rfl
  | cons item items ih =>
    rw [List.findM?, answers item List.mem_cons_self, List.find?_cons]
    cases answer item with
    | true => rfl
    | false => exact ih fun other member => answers other (List.mem_cons_of_mem item member)

/-- Questions that are all answered give the list of answers. -/
theorem mapM_ok {items : List α} {ask : α → Except ε β} {answer : α → β}
    (answers : ∀ item ∈ items, ask item = .ok (answer item)) : items.mapM ask = .ok (items.map answer) := by
  induction items with
  | nil => rfl
  | cons item items ih =>
    rw [List.mapM_cons, answers item List.mem_cons_self, ih fun other member => answers other (List.mem_cons_of_mem item member)]
    rfl

/-- A folding loop that returns keeps what its steps keep. -/
theorem foldlM_some {items : List α} {f : β → α → Option β} {start last : β} (inv : β → Prop) (init : inv start)
    (step : ∀ item ∈ items, ∀ state next, inv state → f state item = some next → inv next)
    (returned : items.foldlM f start = some last) : inv last := by
  induction items generalizing start with
  | nil =>
    cases returned
    exact init
  | cons item rest ih =>
    simp only [List.foldlM_cons, Option.bind_eq_bind, Option.bind_eq_some_iff] at returned
    obtain ⟨next, stepped, returned⟩ := returned
    apply ih ?_ ?_ returned
    · exact step item List.mem_cons_self start next init stepped
    · intro other member
      exact step other (List.mem_cons_of_mem item member)

/-- The answers of a mapping loop, by position. -/
theorem getElem?_of_mapM_eq_some {items : List α} {ask : α → Option β} {answers : List β}
    (returned : items.mapM ask = some answers) {index : Nat} {item : α} (listed : items[index]? = some item) :
    ∃ answer, answers[index]? = some answer ∧ ask item = some answer := by
  induction items generalizing answers index with
  | nil => cases listed
  | cons head rest ih =>
    simp only [List.mapM_cons, Option.bind_eq_bind, Option.pure_def, Option.bind_eq_some_iff] at returned
    obtain ⟨first, asked, others, later, last⟩ := returned
    cases last
    cases index with
    | zero =>
      cases listed
      exact ⟨first, rfl, asked⟩
    | succ index => exact ih later listed

theorem mapM_some {items : List α} {ask : α → Option β} {answer : α → β}
    (answers : ∀ item ∈ items, ask item = some (answer item)) : items.mapM ask = some (items.map answer) := by
  induction items with
  | nil => rfl
  | cons item items ih =>
    rw [List.mapM_cons, answers item List.mem_cons_self, ih fun other member => answers other (List.mem_cons_of_mem item member)]
    rfl

theorem forM_ok {items : List α} {check : α → Except ε Unit} (passes : ∀ item ∈ items, check item = .ok ()) :
    items.forM check = .ok () := by
  induction items with
  | nil => rfl
  | cons item items ih =>
    change (check item >>= fun _ => items.forM check) = .ok ()
    rw [passes item List.mem_cons_self]
    exact ih fun other member => passes other (List.mem_cons_of_mem item member)

end CrossPool.Lib
