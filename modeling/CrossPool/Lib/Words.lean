import Mathlib.Data.List.Basic
import Mathlib.Data.List.Pairwise
import Mathlib.Tactic.Common
import Mathlib.Algebra.Order.Ring.Nat

/-!
# Words in byte strings

Numbers as little-endian words of a fixed width, and byte strings with holes of one width
that do not overlap. Filling the holes changes no other byte, a string that agrees outside
the holes is got back by filling in its own words, and filling some holes again changes
just these.
-/

namespace CrossPool.Lib

/-! ## Words -/

/-- The bytes of a number, the least significant first. -/
def encode : Nat → Nat → List UInt8
  | 0, _ => []
  | width + 1, value => UInt8.ofNat value :: encode width (value / 256)

def decode : List UInt8 → Nat
  | [] => 0
  | byte :: rest => byte.toNat + 256 * decode rest

@[simp] theorem length_encode (width value : Nat) : (encode width value).length = width := by
  induction width generalizing value with
  | zero => rfl
  | succ width ih => rw [encode, List.length_cons, ih]

theorem encode_decode (bytes : List UInt8) : encode bytes.length (decode bytes) = bytes := by
  induction bytes with
  | nil => rfl
  | cons byte rest ih =>
    have small := byte.toNat_lt
    have rest' : (byte.toNat + 256 * decode rest) / 256 = decode rest := by omega
    rw [List.length_cons, decode, encode, rest', ih]
    congr 1
    rw [← UInt8.toNat_inj, UInt8.toNat_ofNat']
    omega

/-! ## Windows -/

section Windows

variable {α : Type} {items word : List α} {place width i : Nat}

/-- Some items from a place on. -/
def window (items : List α) (place width : Nat) : List α :=
  (items.drop place).take width

/-- Replace the items from a place on. -/
def overwrite (items : List α) (place : Nat) (word : List α) : List α :=
  items.take place ++ word ++ items.drop (place + word.length)

theorem length_window (inside : place + width ≤ items.length) : (window items place width).length = width := by
  rw [window, List.length_take, List.length_drop]
  omega

theorem getElem?_window (covered : i < width) : (window items place width)[i]? = items[place + i]? := by
  rw [window, List.getElem?_take_of_lt covered, List.getElem?_drop]

theorem length_overwrite (inside : place + word.length ≤ items.length) : (overwrite items place word).length = items.length := by
  simp only [overwrite, List.length_append, List.length_take, List.length_drop]
  omega

theorem getElem?_overwrite (inside : place + word.length ≤ items.length) :
    (overwrite items place word)[i]? = if place ≤ i ∧ i < place + word.length then word[i - place]? else items[i]? := by
  have start : (items.take place).length = place := by
    rw [List.length_take]
    omega
  rw [overwrite, List.append_assoc]
  by_cases before : i < place
  · rw [List.getElem?_append_left (by omega), List.getElem?_take_of_lt before, if_neg (by omega)]
  · rw [List.getElem?_append_right (by omega), start]
    by_cases covered : i < place + word.length
    · rw [List.getElem?_append_left (by omega), if_pos (by omega)]
    · rw [List.getElem?_append_right (by omega), List.getElem?_drop, if_neg (by omega)]
      congr 1
      omega

end Windows

/-! ## Holes -/

section Holes

variable {η : Type} {value : η → List UInt8} {width size i : Nat} {holes : List (Nat × η)} {bytes other : List UInt8}

/-- Fill the holes. -/
def overlay (value : η → List UInt8) (holes : List (Nat × η)) (bytes : List UInt8) : List UInt8 :=
  holes.foldl (fun bytes hole => overwrite bytes hole.1 (value hole.2)) bytes

/-- Holes of one width, in order, that do not overlap and lie within a size. -/
structure Spaced (width size : Nat) (holes : List (Nat × η)) : Prop where
  ordered : holes.Pairwise fun first second => first.1 + width ≤ second.1
  within : ∀ hole ∈ holes, hole.1 + width ≤ size

/-- A place lies in some hole. -/
def InHole (width : Nat) (holes : List (Nat × η)) (i : Nat) : Prop :=
  ∃ hole ∈ holes, hole.1 ≤ i ∧ i < hole.1 + width

theorem Spaced.nil : Spaced width size ([] : List (Nat × η)) :=
  ⟨List.Pairwise.nil, by simp⟩

theorem Spaced.tail {hole : Nat × η} (spaced : Spaced width size (hole :: holes)) : Spaced width size holes :=
  ⟨(List.pairwise_cons.mp spaced.ordered).2, fun other listed => spaced.within other (List.mem_cons_of_mem _ listed)⟩

theorem Spaced.filter (spaced : Spaced width size holes) (p : Nat × η → Bool) : Spaced width size (holes.filter p) :=
  ⟨spaced.ordered.filter p, fun hole listed => spaced.within hole (List.mem_of_mem_filter listed)⟩

/-- A further hole behind all others. -/
theorem Spaced.snoc {hole : Nat × η} (spaced : Spaced width size holes) (behind : ∀ other ∈ holes, other.1 + width ≤ hole.1)
    (inside : hole.1 + width ≤ size) : Spaced width size (holes ++ [hole]) := by
  refine ⟨?_, ?_⟩
  · apply List.pairwise_append.mpr
    refine ⟨spaced.ordered, List.pairwise_singleton _ _, ?_⟩
    intro first listed second last
    rw [List.mem_singleton.mp last]
    exact behind first listed
  · intro other listed
    rcases List.mem_append.mp listed with early | last
    · exact spaced.within other early
    · rw [List.mem_singleton.mp last]
      exact inside

/-- Two holes that cover one place are the same. -/
theorem Spaced.unique (spaced : Spaced width size holes) {first second : Nat × η} (listed : first ∈ holes) (listed' : second ∈ holes)
    (covers : first.1 ≤ i ∧ i < first.1 + width) (covers' : second.1 ≤ i ∧ i < second.1 + width) : first = second := by
  induction holes with
  | nil => cases listed
  | cons hole holes ih =>
    have gaps := (List.pairwise_cons.mp spaced.ordered).1
    rcases List.mem_cons.mp listed with rfl | later
    · rcases List.mem_cons.mp listed' with rfl | later'
      · rfl
      · have gap := gaps second later'
        omega
    · rcases List.mem_cons.mp listed' with rfl | later'
      · have gap := gaps first later
        omega
      · exact ih spaced.tail later later'

theorem overlay_append (holes' : List (Nat × η)) :
    overlay value (holes ++ holes') bytes = overlay value holes' (overlay value holes bytes) := by
  rw [overlay, List.foldl_append]
  rfl

theorem length_overlay (spaced : Spaced width bytes.length holes) (sized : ∀ h, (value h).length = width) :
    (overlay value holes bytes).length = bytes.length := by
  induction holes generalizing bytes with
  | nil => rfl
  | cons hole holes ih =>
    have first : (overwrite bytes hole.1 (value hole.2)).length = bytes.length := by
      apply length_overwrite
      rw [sized]
      exact spaced.within hole List.mem_cons_self
    have rest := @ih (overwrite bytes hole.1 (value hole.2)) (first.symm ▸ spaced.tail)
    exact rest.trans first

/-- In a hole there is its value, elsewhere what was there. -/
theorem getElem?_overlay (spaced : Spaced width bytes.length holes) (sized : ∀ h, (value h).length = width) :
    (∀ hole ∈ holes, hole.1 ≤ i → i < hole.1 + width → (overlay value holes bytes)[i]? = (value hole.2)[i - hole.1]?) ∧
      (¬InHole width holes i → (overlay value holes bytes)[i]? = bytes[i]?) := by
  induction holes generalizing bytes with
  | nil =>
    refine ⟨?_, fun _ => rfl⟩
    intro hole impossible
    cases impossible
  | cons hole holes ih =>
    have inside := spaced.within hole List.mem_cons_self
    have inside' : hole.1 + (value hole.2).length ≤ bytes.length := by
      rw [sized]
      exact inside
    obtain ⟨filled, kept⟩ := @ih (overwrite bytes hole.1 (value hole.2)) ((length_overwrite inside').symm ▸ spaced.tail)
    change (∀ other ∈ _, _ → _ → (overlay value holes (overwrite bytes hole.1 (value hole.2)))[i]? = _) ∧
      (_ → (overlay value holes (overwrite bytes hole.1 (value hole.2)))[i]? = _)
    constructor
    · intro other listed low high
      rcases List.mem_cons.mp listed with rfl | later
      · rw [kept, getElem?_overwrite inside', if_pos ⟨low, by rw [sized]; exact high⟩]
        rintro ⟨second, later, low', high'⟩
        have gap := (List.pairwise_cons.mp spaced.ordered).1 second later
        omega
      · exact filled other later low high
    · intro clear
      rw [kept, getElem?_overwrite inside', if_neg]
      · rintro ⟨low, high⟩
        rw [sized] at high
        exact clear ⟨hole, List.mem_cons_self, low, high⟩
      · rintro ⟨second, later, low, high⟩
        exact clear ⟨second, List.mem_cons_of_mem _ later, low, high⟩

/-- A string that agrees outside the holes is got back with its own words. -/
theorem overlay_eq (spaced : Spaced width bytes.length holes) (sized : ∀ h, (value h).length = width)
    (same : other.length = bytes.length) (words : ∀ hole ∈ holes, value hole.2 = window other hole.1 width)
    (agrees : ∀ i, i < bytes.length → ¬InHole width holes i → bytes[i]? = other[i]?) : overlay value holes bytes = other := by
  apply List.ext_getElem?
  intro i
  obtain ⟨filled, kept⟩ := @getElem?_overlay _ value width i holes bytes spaced sized
  by_cases covered : InHole width holes i
  · obtain ⟨hole, listed, low, high⟩ := covered
    rw [filled hole listed low high, words hole listed, getElem?_window (by omega)]
    congr 1
    omega
  · rw [kept covered]
    by_cases inside : i < bytes.length
    · exact agrees i inside covered
    · rw [List.getElem?_eq_none (by omega), List.getElem?_eq_none (by omega)]

/-- Filling some of the holes again changes just these. -/
theorem overlay_filter (spaced : Spaced width bytes.length holes) {value' : η → List UInt8} (sized : ∀ h, (value h).length = width)
    (sized' : ∀ h, (value' h).length = width) (p : η → Bool) :
    overlay value' (holes.filter fun hole => p hole.2) (overlay value holes bytes) =
      overlay (fun h => if p h then value' h else value h) holes bytes := by
  have sized'' : ∀ h, (if p h then value' h else value h).length = width := by
    intro h
    split
    · exact sized' h
    · exact sized h
  have length := length_overlay spaced sized
  apply List.ext_getElem?
  intro i
  obtain ⟨filled, kept⟩ := @getElem?_overlay _ value width i holes bytes spaced sized
  obtain ⟨filled', kept'⟩ := @getElem?_overlay _ value' width i (holes.filter fun hole => p hole.2) (overlay value holes bytes)
    (length.symm ▸ spaced.filter _) sized'
  obtain ⟨filled'', kept''⟩ := @getElem?_overlay _ _ width i holes bytes spaced sized''
  by_cases covered : InHole width holes i
  · obtain ⟨hole, listed, low, high⟩ := covered
    rw [filled'' hole listed low high]
    by_cases chosen : p hole.2
    · rw [filled' hole (List.mem_filter.mpr ⟨listed, chosen⟩) low high, if_pos chosen]
    · rw [kept', filled hole listed low high, if_neg chosen]
      rintro ⟨second, listed', low', high'⟩
      obtain ⟨listed', chosen'⟩ := List.mem_filter.mp listed'
      rw [spaced.unique listed listed' ⟨low, high⟩ ⟨low', high'⟩] at chosen
      exact chosen chosen'
  · rw [kept'' covered, kept', kept covered]
    rintro ⟨hole, listed, low, high⟩
    exact covered ⟨hole, List.mem_of_mem_filter listed, low, high⟩

end Holes

end CrossPool.Lib
