import CrossPool.FfnAgent.Parameterization

/-!
# Templates of captured graphs

What a graph that was parameterized has in common with the two captures: a graph with holes,
one for each place that reads as a declared address. The captures and the graph of the lane
fill these holes with their own addresses, and differ in nothing else.
-/

namespace CrossPool.FfnAgent.Parameterization

open CrossPool.Lib

/-! ## Bindings -/

/-- Neither address lies in the range. -/
def LaneAddressReplacement.Outside (range : LaneAddressReplacement) (primary control : Nat) : Prop :=
  within range.primaryAddress range.bytes primary = false ∧ within range.controlAddress range.bytes control = false

/-- The two addresses are at one offset in one range, and in no other. -/
structure InRange (laneReplacements : List LaneAddressReplacement) (primary control index offset : Nat)
    (range : LaneAddressReplacement) : Prop where
  found : laneReplacements[index]? = some range
  inside : offset < range.bytes
  atPrimary : primary = range.primaryAddress + offset
  atControl : control = range.controlAddress + offset
  only : ∀ other range', laneReplacements[other]? = some range' → other ≠ index → range'.Outside primary control
  target : range.targetAddress + offset < wordLimit

/-- The two addresses are those of one weight, and of no other. -/
structure OfWeight (resources : List ResourceReplacement) (primary control index : Nat) (resource : ResourceReplacement) : Prop where
  found : resources[index]? = some resource
  atPrimary : primary = resource.primaryAddress
  atControl : control = resource.controlAddress
  only : ∀ other resource', resources[other]? = some resource' → other ≠ index →
    ¬(primary = resource'.primaryAddress ∧ control = resource'.controlAddress)

namespace Declarations

/-- No range holds either address. -/
def NoRange (d : Declarations) (primary control : Nat) : Prop :=
  ∀ range ∈ d.laneReplacements, range.Outside primary control

/-- No weight has the two addresses. -/
def NoWeight (d : Declarations) (primary control : Nat) : Prop :=
  ∀ resource ∈ d.resources, ¬(primary = resource.primaryAddress ∧ control = resource.controlAddress)

/-- The two addresses are declared to be what the binding says, and nothing else. -/
def Declares (d : Declarations) (primary control : Nat) : Hole → Prop
  | .weight index => (∃ resource, OfWeight d.resources primary control index resource) ∧ d.NoRange primary control
  | .range index offset =>
    (∃ range, InRange d.laneReplacements primary control index offset range) ∧ d.NoWeight primary control

end Declarations

section Bindings

variable {α γ : Type} {meets : α → Except String Bool} {ambiguous : String} {check : α → Except String γ} {items : List α}
  {index primary control : Nat} {d : Declarations}

/-- What the loops over the declarations find is the only item that meets the condition. -/
theorem findOnly_eq_ok {found result : Option (Nat × γ)}
    (returned : findOnly meets ambiguous check index items found = .ok result) :
    (result = found ∧ ∀ item ∈ items, meets item = .ok false) ∨
      found = none ∧ ∃ i item a, items[i]? = some item ∧ meets item = .ok true ∧ check item = .ok a ∧
        result = some (index + i, a) ∧ ∀ j item', items[j]? = some item' → j ≠ i → meets item' = .ok false := by
  induction items generalizing index found with
  | nil =>
    obtain rfl := Except.ok.inj returned
    exact .inl ⟨rfl, by simp⟩
  | cons item rest ih =>
    rw [findOnly] at returned
    obtain ⟨met, asked, returned⟩ := bind_eq_ok.mp returned
    cases met with
    | true =>
      rw [if_pos rfl] at returned
      cases found with
      | some first => cases returned
      | none =>
        obtain ⟨a, checked, returned⟩ := bind_eq_ok.mp returned
        rcases ih returned with ⟨same, others⟩ | ⟨impossible, -⟩
        · refine .inr ⟨rfl, 0, item, a, rfl, asked, checked, same, ?_⟩
          intro j item' found differ
          cases j with
          | zero => exact absurd rfl differ
          | succ j => exact others item' (List.mem_of_getElem? found)
        · cases impossible
    | false =>
      rw [if_neg Bool.false_ne_true] at returned
      rcases ih returned with ⟨same, others⟩ | ⟨none, i, item', a, found, met, checked, result, others⟩
      · refine .inl ⟨same, ?_⟩
        intro other listed
        rcases List.mem_cons.mp listed with rfl | later
        · exact asked
        · exact others other later
      · refine .inr ⟨none, i + 1, item', a, found, met, checked, ?_, ?_⟩
        · rw [result, Nat.add_assoc, Nat.add_comm 1]
        · intro j other found' differ
          cases j with
          | zero =>
            obtain rfl := Option.some.inj found'
            exact asked
          | succ j => exact others j other found' fun same => differ (congrArg _ same)

theorem sumAddresses_eq_ok {base offset total : Nat} (returned : sumAddresses base offset = .ok total) :
    total = base + offset ∧ total < wordLimit := by
  rw [sumAddresses] at returned
  cases sum : checkedSum base [offset] with
  | none =>
    rw [sum] at returned
    cases returned
  | some value =>
    rw [sum] at returned
    obtain rfl := Except.ok.inj returned
    exact checkedSum_one sum

theorem meets_eq_false {mismatch : String} {range : LaneAddressReplacement}
    (returned : range.meets mismatch primary control = .ok false) : range.Outside primary control := by
  rw [LaneAddressReplacement.meets] at returned
  dsimp only at returned
  split at returned
  · next neither =>
    simpa [LaneAddressReplacement.Outside] using neither
  · split at returned
    · cases returned
    · cases returned

theorem meets_eq_true {mismatch : String} {range : LaneAddressReplacement}
    (returned : range.meets mismatch primary control = .ok true) :
    ∃ offset, offset < range.bytes ∧ primary = range.primaryAddress + offset ∧ control = range.controlAddress + offset := by
  rw [LaneAddressReplacement.meets] at returned
  dsimp only at returned
  split at returned
  · cases returned
  · split at returned
    · cases returned
    · next both =>
      simp only [within, Bool.not_eq_true', Bool.not_eq_false, Bool.and_eq_true, decide_eq_true_eq] at both
      exact ⟨primary - range.primaryAddress, by omega, by omega, by omega⟩

theorem inRange_of_found {mismatch : String} {laneReplacements : List LaneAddressReplacement} {i : Nat}
    {range : LaneAddressReplacement} (found : laneReplacements[i]? = some range)
    (met : range.meets mismatch primary control = .ok true)
    (others : ∀ j range', laneReplacements[j]? = some range' → j ≠ i → range'.meets mismatch primary control = .ok false)
    (target : range.targetAddress + (primary - range.primaryAddress) < wordLimit) :
    InRange laneReplacements primary control i (primary - range.primaryAddress) range := by
  obtain ⟨offset, inside, same, same'⟩ := meets_eq_true met
  have difference : primary - range.primaryAddress = offset := by omega
  rw [difference] at target ⊢
  refine ⟨found, inside, same, same', ?_, target⟩
  intro j range' found' differ
  exact meets_eq_false (others j range' found' differ)

/-- A typed access is bound to the one range that holds all of it. -/
theorem bindMemoryAddress_eq_ok {laneReplacements : List LaneAddressReplacement} {bytes : Nat} {writing : Bool}
    {bound : Hole × Nat} (returned : bindMemoryAddress laneReplacements primary control bytes writing = .ok bound) :
    ∃ index offset range, InRange laneReplacements primary control index offset range ∧ bound.1 = .range index offset ∧
      bound.2 = range.targetAddress + offset ∧ offset + bytes ≤ range.bytes ∧ (writing → range.readOnly = false) := by
  rw [bindMemoryAddress] at returned
  obtain ⟨result, searched, returned⟩ := bind_eq_ok.mp returned
  rcases findOnly_eq_ok searched with ⟨rfl, -⟩ | ⟨-, i, range, checks, found, met, checked, rfl, others⟩
  · cases returned
  · obtain ⟨offset, target⟩ := checks
    obtain rfl := Except.ok.inj returned
    dsimp only at checked
    split at checked
    · cases checked
    next room =>
    split at checked
    · cases checked
    next allowed =>
    obtain ⟨sum, summed, checked⟩ := bind_eq_ok.mp checked
    obtain ⟨rfl, rfl⟩ := Prod.mk.inj (Except.ok.inj checked)
    obtain ⟨rfl, small⟩ := sumAddresses_eq_ok summed
    have placed := inRange_of_found found met others small
    refine ⟨i, _, range, placed, by rw [Nat.zero_add], rfl, ?_, ?_⟩
    · have inside := placed.inside
      omega
    · intro writes
      simpa [writes] using allowed

theorem weight_of_findOnly {ambiguous : String} {result : Option (Nat × Unit)}
    (searched :
      findOnly (fun r : ResourceReplacement => return primary = r.primaryAddress && control = r.controlAddress) ambiguous
        (fun _ => return ()) 0 d.resources none = .ok result) :
    (result = none ∧ d.NoWeight primary control) ∨
      ∃ index resource, result = some (index, ()) ∧ OfWeight d.resources primary control index resource := by
  rcases findOnly_eq_ok searched with ⟨none, others⟩ | ⟨-, i, resource, a, found, met, -, rfl, others⟩
  · refine .inl ⟨none, ?_⟩
    intro resource listed
    have differs := Except.ok.inj (others resource listed)
    simpa using differs
  · refine .inr ⟨i, resource, by rw [Nat.zero_add], ?_⟩
    have same := Except.ok.inj met
    rw [Bool.and_eq_true, decide_eq_true_eq, decide_eq_true_eq] at same
    refine ⟨found, same.1, same.2, ?_⟩
    intro j resource' found' differ
    have differs := Except.ok.inj (others j resource' found' differ)
    simpa using differs

theorem range_of_findOnly {mismatch ambiguous : String} {result : Option (Nat × Nat)}
    (searched :
      findOnly (·.meets mismatch primary control) ambiguous
        (fun range : LaneAddressReplacement => return primary - range.primaryAddress) 0 d.laneReplacements none = .ok result) :
    (result = none ∧ d.NoRange primary control) ∨
      ∃ index range, d.laneReplacements[index]? = some range ∧ result = some (index, primary - range.primaryAddress) ∧
        (range.targetAddress + (primary - range.primaryAddress) < wordLimit →
          InRange d.laneReplacements primary control index (primary - range.primaryAddress) range) := by
  rcases findOnly_eq_ok searched with ⟨none, others⟩ | ⟨-, i, range, a, found, met, checked, rfl, others⟩
  · refine .inl ⟨none, ?_⟩
    intro range listed
    exact meets_eq_false (others range listed)
  · obtain rfl := Except.ok.inj checked
    refine .inr ⟨i, range, found, by rw [Nat.zero_add], ?_⟩
    intro small
    exact inRange_of_found found met others small

theorem classify_eq_none (returned : d.classify primary control = .ok none) :
    d.NoWeight primary control ∧ d.NoRange primary control := by
  rw [Declarations.classify] at returned
  obtain ⟨resource, searched, returned⟩ := bind_eq_ok.mp returned
  obtain ⟨lane, searched', returned⟩ := bind_eq_ok.mp returned
  rcases weight_of_findOnly searched with ⟨rfl, noWeight⟩ | ⟨index, resource, rfl, weight⟩
  · rcases range_of_findOnly searched' with ⟨rfl, noRange⟩ | ⟨index, range, -, rfl, -⟩
    · exact ⟨noWeight, noRange⟩
    · cases returned
  · cases lane with
    | none => cases returned
    | some found => cases returned

/-- Addresses are bound as they are declared, and to nothing else. -/
theorem classify_eq_some {hole : Hole} {address : Nat} (returned : d.classify primary control = .ok (some hole))
    (target : d.targetAddress hole = .ok address) : d.Declares primary control hole := by
  rw [Declarations.classify] at returned
  obtain ⟨resource, searched, returned⟩ := bind_eq_ok.mp returned
  obtain ⟨lane, searched', returned⟩ := bind_eq_ok.mp returned
  rcases weight_of_findOnly searched with ⟨rfl, noWeight⟩ | ⟨index, resource, rfl, weight⟩
  · rcases range_of_findOnly searched' with ⟨rfl, noRange⟩ | ⟨index, range, found, rfl, placed⟩
    · cases returned
    · obtain rfl := Option.some.inj (Except.ok.inj returned)
      rw [Declarations.targetAddress, found] at target
      obtain ⟨rfl, small⟩ := sumAddresses_eq_ok target
      exact ⟨⟨range, placed small⟩, noWeight⟩
  · rcases range_of_findOnly searched' with ⟨rfl, noRange⟩ | ⟨index', range, -, rfl, -⟩
    · obtain rfl := Option.some.inj (Except.ok.inj returned)
      exact ⟨⟨resource, weight⟩, noRange⟩
    · cases returned

end Bindings

/-! ## Graphs with holes -/

/-- An address for each weight, and where each range begins. -/
structure Addresses where
  weights : Nat → Nat
  ranges : Nat → Nat

namespace Addresses

variable (a : Addresses)

/-- The address that fills a hole. -/
def of : Hole → Nat
  | .weight index => a.weights index
  | .range index offset => a.ranges index + offset

def word (hole : Hole) : List UInt8 :=
  encode addressBytes (a.of hole)

end Addresses

namespace Declarations

variable (d : Declarations)

/-- The addresses of the Primary capture. -/
def primary : Addresses where
  weights index := (d.resources[index]?.map (·.primaryAddress)).getD 0
  ranges index := (d.laneReplacements[index]?.map (·.primaryAddress)).getD 0

/-- The addresses of the Control capture. -/
def control : Addresses where
  weights index := (d.resources[index]?.map (·.controlAddress)).getD 0
  ranges index := (d.laneReplacements[index]?.map (·.controlAddress)).getD 0

/-- The addresses of the lane. -/
def target : Addresses where
  weights index := (d.resources[index]?.map (·.targetAddress)).getD 0
  ranges index := (d.laneReplacements[index]?.map (·.targetAddress)).getD 0

end Declarations

/-- The bytes of an argument with the holes among them. -/
structure ArgumentTemplate where
  bytes : List UInt8
  holes : List (Nat × Hole)

def ArgumentTemplate.fill (a : Addresses) (t : ArgumentTemplate) : List UInt8 :=
  overlay a.word t.holes t.bytes

/-- A node with holes for its addresses. -/
abbrev Template :=
  Node ArgumentTemplate Hole

/-- Fill all holes of a node. -/
def Addresses.fill (a : Addresses) (t : Template) : CapturedNode :=
  t.map (ArgumentTemplate.fill a) a.of

/-- The holes of an argument are just its places that read as declared addresses. -/
structure ArgumentTemplate.Sound (d : Declarations) (t : ArgumentTemplate) : Prop where
  spaced : Spaced addressBytes t.bytes.length t.holes
  declared : ∀ hole ∈ t.holes,
    d.Declares (readAddress (t.fill d.primary) hole.1) (readAddress (t.fill d.control) hole.1) hole.2
  foreign : ∀ place, place + addressBytes ≤ t.bytes.length → (∀ hole ∈ t.holes, hole.1 ≠ place) →
    d.NoWeight (readAddress (t.fill d.primary) place) (readAddress (t.fill d.control) place) ∧
      d.NoRange (readAddress (t.fill d.primary) place) (readAddress (t.fill d.control) place)

section Arguments

variable {d : Declarations} {primary control : Nat}

theorem of_declares {hole : Hole} (declares : d.Declares primary control hole) :
    d.primary.of hole = primary ∧ d.control.of hole = control := by
  cases hole with
  | weight index =>
    obtain ⟨⟨resource, weight⟩, -⟩ := declares
    simp only [Addresses.of, Declarations.primary, Declarations.control, weight.found, Option.map_some, Option.getD_some]
    exact ⟨weight.atPrimary.symm, weight.atControl.symm⟩
  | range index offset =>
    obtain ⟨⟨range, placed⟩, -⟩ := declares
    simp only [Addresses.of, Declarations.primary, Declarations.control, placed.found, Option.map_some, Option.getD_some]
    exact ⟨placed.atPrimary.symm, placed.atControl.symm⟩

theorem target_of_declares {hole : Hole} {address : Nat} (returned : d.targetAddress hole = .ok address) :
    address = d.target.of hole := by
  cases hole with
  | weight index => exact (Except.ok.inj returned).symm
  | range index offset => exact (sumAddresses_eq_ok returned).1

theorem length_word (a : Addresses) (hole : Hole) : (a.word hole).length = addressBytes :=
  length_encode _ _

/-- A word that is read is written back. -/
theorem encode_readAddress {bytes : List UInt8} {place : Nat} (inside : place + addressBytes ≤ bytes.length) :
    encode addressBytes (readAddress bytes place) = window bytes place addressBytes := by
  have word := encode_decode (window bytes place addressBytes)
  rwa [length_window inside] at word

/-- What the loop over the byte offsets has done below `bound`. -/
structure Scanned (d : Declarations) (captured control : List UInt8) (offsetBytes bound : Nat) (start scan : Scan)
    (holes : List (Nat × Hole)) : Prop where
  spaced : Spaced addressBytes captured.length holes
  before : ∀ hole ∈ holes, hole.1 < bound
  value : scan.value = overlay d.target.word holes captured
  size : scan.covered.length = captured.length
  covered : ∀ i, scan.covered[i]? = some true ↔ InHole addressBytes holes i
  declared : ∀ hole ∈ holes, d.Declares (readAddress captured hole.1) (readAddress control hole.1) hole.2
  foreign : ∀ place < bound, (∀ hole ∈ holes, hole.1 ≠ place) →
    d.NoWeight (readAddress captured place) (readAddress control place) ∧
      d.NoRange (readAddress captured place) (readAddress control place)
  nodeMatches : scan.nodeMatches = start.nodeMatches ++ holes.flatMap fun hole => hole.2.sites (offsetBytes + hole.1)
  counts : scan.counts = (holes.map Prod.snd).foldl Counts.add start.counts
  changed : scan.changed = (start.changed || !holes.isEmpty)

variable {captured : List UInt8} {bytes' : List UInt8} {offsetBytes bound : Nat} {start scan next : Scan} {holes : List (Nat × Hole)}

/-- One byte offset. -/
theorem Scanned.bindWindow (scanned : Scanned d captured bytes' offsetBytes bound start scan holes)
    (inside : bound + addressBytes ≤ captured.length)
    (returned : bindWindow d captured bytes' offsetBytes bound scan = .ok next) :
    ∃ holes', Scanned d captured bytes' offsetBytes (bound + 1) start next holes' := by
  rw [Parameterization.bindWindow] at returned
  obtain ⟨bound', classified, returned⟩ := bind_eq_ok.mp returned
  cases bound' with
  | none =>
    obtain rfl := Except.ok.inj returned
    refine ⟨holes, { scanned with before := ?_, foreign := ?_ }⟩
    · intro hole listed
      exact (scanned.before hole listed).trans (Nat.lt_succ_self bound)
    · intro place below other
      by_cases last : place = bound
      · subst last
        exact classify_eq_none classified
      · exact scanned.foreign place (by omega) other
  | some hole =>
    dsimp only at returned
    split at returned
    · cases returned
    next free =>
    obtain ⟨address, target, returned⟩ := bind_eq_ok.mp returned
    obtain rfl := Except.ok.inj returned
    have declares := classify_eq_some classified target
    obtain rfl := target_of_declares target
    have clear : ∀ i, bound ≤ i → i < bound + addressBytes → ¬InHole addressBytes holes i := by
      intro i low high covered
      apply free
      rw [List.any_eq_true]
      refine ⟨true, ?_, rfl⟩
      apply List.mem_iff_getElem?.mpr
      refine ⟨i - bound, ?_⟩
      rw [getElem?_window (by omega), Nat.add_sub_cancel' low]
      exact (scanned.covered i).mpr covered
    have behind : ∀ other ∈ holes, other.1 + addressBytes ≤ bound := by
      intro other listed
      have earlier := scanned.before other listed
      by_contra crossing
      have last := clear (max bound other.1) (by omega) (by omega)
      exact last ⟨other, listed, by omega, by omega⟩
    have filled : (overlay d.target.word holes captured).length = captured.length :=
      length_overlay scanned.spaced (length_word d.target)
    refine ⟨holes ++ [(bound, hole)], ?_, ?_, ?_, ?_, ?_, ?_, ?_, ?_, ?_, ?_⟩
    · exact scanned.spaced.snoc behind inside
    · intro other listed
      rcases List.mem_append.mp listed with early | last
      · exact (scanned.before other early).trans (Nat.lt_succ_self bound)
      · rw [List.mem_singleton.mp last]
        exact Nat.lt_succ_self bound
    · dsimp only
      rw [scanned.value, overlay_append]
      rfl
    · dsimp only
      rw [length_overwrite, scanned.size]
      rw [List.length_replicate, scanned.size]
      exact inside
    · intro i
      dsimp only
      have split : InHole addressBytes (holes ++ [(bound, hole)]) i ↔
          InHole addressBytes holes i ∨ bound ≤ i ∧ i < bound + addressBytes := by
        simp only [InHole, List.mem_append, List.mem_singleton, or_and_right, exists_or, exists_eq_left]
      rw [getElem?_overwrite (by rw [List.length_replicate, scanned.size]; exact inside), List.length_replicate, split,
        ← scanned.covered]
      by_cases here : bound ≤ i ∧ i < bound + addressBytes
      · rw [if_pos here, List.getElem?_replicate_of_lt (by omega)]
        simp [here]
      · rw [if_neg here]
        simp [here]
    · intro other listed
      rcases List.mem_append.mp listed with early | last
      · exact scanned.declared other early
      · rw [List.mem_singleton.mp last]
        exact declares
    · intro place below other
      have ne : bound ≠ place := other (bound, hole) (List.mem_append_right _ (List.mem_singleton_self _))
      exact scanned.foreign place (by omega) fun hole' listed => other hole' (List.mem_append_left _ listed)
    · dsimp only
      rw [scanned.nodeMatches, List.flatMap_append, List.append_assoc]
      simp only [List.flatMap_cons, List.flatMap_nil, List.append_nil]
    · dsimp only
      rw [scanned.counts, List.map_append, List.foldl_append]
      rfl
    · simp

theorem Scanned.bindWindows {left : Nat} (scanned : Scanned d captured bytes' offsetBytes bound start scan holes)
    (inside : left = 0 ∨ bound + left + addressBytes = captured.length + 1)
    (returned : bindWindows d captured bytes' offsetBytes left bound scan = .ok next) :
    ∃ holes', Scanned d captured bytes' offsetBytes (bound + left) start next holes' := by
  induction left generalizing bound scan holes with
  | zero =>
    obtain rfl := Except.ok.inj returned
    exact ⟨holes, scanned⟩
  | succ left ih =>
    rw [Parameterization.bindWindows] at returned
    obtain ⟨scan', first, returned⟩ := bind_eq_ok.mp returned
    obtain ⟨holes', scanned'⟩ := scanned.bindWindow (by omega) first
    rw [← Nat.add_assoc, Nat.add_right_comm]
    exact ih scanned' (by omega) returned

/-- What binding one argument does: there is a template for it. -/
structure Bound (d : Declarations) (primary control : KernelNodeArgument (List UInt8)) (start scan : Scan)
    (t : ArgumentTemplate) : Prop where
  sound : t.Sound d
  atPrimary : t.fill d.primary = primary.bytes
  atControl : t.fill d.control = control.bytes
  value : scan.value = t.fill d.target
  nodeMatches : scan.nodeMatches =
    start.nodeMatches ++ t.holes.flatMap fun hole => hole.2.sites (primary.offsetBytes + hole.1)
  counts : scan.counts = (t.holes.map Prod.snd).foldl Counts.add start.counts
  changed : scan.changed = (start.changed || !t.holes.isEmpty)

theorem bindArgument_eq_ok {nodeIndex parameterIndex : Nat} {argument argument' : KernelNodeArgument (List UInt8)}
    (same : argument'.bytes.length = argument.bytes.length)
    (returned : bindArgument d nodeIndex parameterIndex argument argument' start = .ok scan) :
    ∃ t, Bound d argument argument' start scan t := by
  rw [bindArgument] at returned
  obtain ⟨scan', looped, returned⟩ := bind_eq_ok.mp returned
  have begins : Scanned d argument.bytes argument'.bytes argument.offsetBytes 0 start
      { start with value := argument.bytes, covered := List.replicate argument.bytes.length false } [] := by
    refine ⟨Spaced.nil, by simp, rfl, List.length_replicate, ?_, by simp, ?_, by simp, rfl, by simp⟩
    · intro i
      constructor
      · intro covered
        rw [List.getElem?_replicate] at covered
        split at covered
        · cases covered
        · cases covered
      · rintro ⟨hole, impossible, -⟩
        cases impossible
    · intro place impossible
      cases impossible
  obtain ⟨holes, scanned⟩ := begins.bindWindows (by omega) looped
  rw [Nat.zero_add] at scanned
  split at returned
  case h_2 => cases returned
  next none =>
  obtain rfl := Except.ok.inj returned
  have inside : ∀ hole ∈ holes, hole.1 + addressBytes ≤ argument.bytes.length := scanned.spaced.within
  have agrees : ∀ i, i < argument.bytes.length → ¬InHole addressBytes holes i → argument.bytes[i]? = argument'.bytes[i]? := by
    intro i small clear
    by_contra differ
    have never := List.find?_eq_none.mp none i (List.mem_range.mpr small)
    simp only [ne_eq, Bool.and_eq_true, decide_eq_true_eq, not_and, not_not] at never
    exact clear ((scanned.covered i).mp (never differ))
  have primary : overlay d.primary.word holes argument.bytes = argument.bytes := by
    apply overlay_eq scanned.spaced (length_word _) rfl
    · intro hole listed
      rw [← encode_readAddress (inside hole listed), ← (of_declares (scanned.declared hole listed)).1]
      rfl
    · intro i _ _
      rfl
  have control : overlay d.control.word holes argument.bytes = argument'.bytes := by
    apply overlay_eq scanned.spaced (length_word _) same
    · intro hole listed
      rw [← encode_readAddress (by rw [same]; exact inside hole listed), ← (of_declares (scanned.declared hole listed)).2]
      rfl
    · exact agrees
  refine ⟨⟨argument.bytes, holes⟩, ⟨scanned.spaced, ?_, ?_⟩, primary, control, scanned.value, scanned.nodeMatches,
    scanned.counts, scanned.changed⟩
  · simp only [ArgumentTemplate.fill, primary, control]
    exact scanned.declared
  · simp only [ArgumentTemplate.fill, primary, control]
    intro place room other
    exact scanned.foreign place (by omega) other

/-- All arguments of a kernel node, one template for each. -/
def Addresses.fillArgument (a : Addresses) (t : KernelNodeArgument ArgumentTemplate) : KernelNodeArgument (List UInt8) :=
  ⟨t.offsetBytes, t.bytes.fill a⟩

/-- The holes of an argument, by their offsets among the parameters. -/
def parameterHoles (t : KernelNodeArgument ArgumentTemplate) : List (Nat × Hole) :=
  t.bytes.holes.map fun hole => (t.offsetBytes + hole.1, hole.2)

/-- What binding all arguments of a node does. -/
structure BoundAll (d : Declarations) (arguments arguments' rewritten : List (KernelNodeArgument (List UInt8)))
    (start scan : Scan) (ts : List (KernelNodeArgument ArgumentTemplate)) : Prop where
  sound : ∀ t ∈ ts, t.bytes.Sound d
  atPrimary : ts.map d.primary.fillArgument = arguments
  atControl : ts.map d.control.fillArgument = arguments'
  atTarget : ts.map d.target.fillArgument = rewritten
  nodeMatches : scan.nodeMatches =
    start.nodeMatches ++ (ts.flatMap parameterHoles).flatMap fun hole => hole.2.sites hole.1
  counts : scan.counts = ((ts.flatMap parameterHoles).map Prod.snd).foldl Counts.add start.counts
  changed : scan.changed = (start.changed || !(ts.flatMap parameterHoles).isEmpty)

theorem bindArguments_eq_ok {nodeIndex index : Nat} {arguments arguments' : List (KernelNodeArgument (List UInt8))}
    {result : List (KernelNodeArgument (List UInt8)) × Scan}
    (same : arguments.map (fun argument => (argument.offsetBytes, argument.bytes.length)) =
      arguments'.map fun argument => (argument.offsetBytes, argument.bytes.length))
    (returned : bindArguments d nodeIndex index arguments arguments' start = .ok result) :
    ∃ ts, BoundAll d arguments arguments' result.1 start result.2 ts := by
  induction arguments generalizing arguments' index start result with
  | nil =>
    cases arguments' with
    | cons argument' rest' => cases same
    | nil =>
      obtain rfl := Except.ok.inj returned
      exact ⟨[], by simp, rfl, rfl, rfl, by simp, rfl, by simp⟩
  | cons argument rest ih =>
    cases arguments' with
    | nil => cases same
    | cons argument' rest' =>
      rw [List.map_cons, List.map_cons, List.cons.injEq, Prod.mk.injEq] at same
      obtain ⟨⟨offsets, lengths⟩, later⟩ := same
      rw [bindArguments] at returned
      obtain ⟨scan', first, returned⟩ := bind_eq_ok.mp returned
      obtain ⟨rest'', others, returned⟩ := bind_eq_ok.mp returned
      obtain rfl := Except.ok.inj returned
      obtain ⟨t, bound⟩ := bindArgument_eq_ok lengths.symm first
      obtain ⟨ts, boundAll⟩ := ih later others
      refine ⟨⟨argument.offsetBytes, t⟩ :: ts, ?_, ?_, ?_, ?_, ?_, ?_, ?_⟩
      · intro t' listed
        rcases List.mem_cons.mp listed with rfl | among
        · exact bound.sound
        · exact boundAll.sound t' among
      · rw [List.map_cons, boundAll.atPrimary, Addresses.fillArgument, bound.atPrimary]
      · rw [List.map_cons, boundAll.atControl, Addresses.fillArgument, bound.atControl, offsets]
      · rw [List.map_cons, boundAll.atTarget, Addresses.fillArgument, bound.value]
      · rw [boundAll.nodeMatches, bound.nodeMatches, List.flatMap_cons, List.flatMap_append, List.append_assoc]
        simp only [parameterHoles, List.flatMap_map]
      · rw [boundAll.counts, bound.counts, List.flatMap_cons, List.map_append, List.foldl_append]
        simp only [parameterHoles, List.map_map, Function.comp_def]
      · rw [boundAll.changed, bound.changed, List.flatMap_cons, Bool.or_assoc, parameterHoles]
        dsimp only
        cases t.holes with
        | nil => rfl
        | cons hole holes => rfl

/-- A node where nothing is bound is left as it was captured. -/
theorem BoundAll.kept {arguments arguments' rewritten : List (KernelNodeArgument (List UInt8))}
    {ts : List (KernelNodeArgument ArgumentTemplate)} (bound : BoundAll d arguments arguments' rewritten start scan ts)
    (begins : start.changed = false) : (if scan.changed then rewritten else arguments) = ts.map d.target.fillArgument := by
  split
  · exact bound.atTarget.symm
  next kept =>
    have none : ts.flatMap parameterHoles = [] := by simpa [bound.changed, begins] using kept
    rw [← bound.atPrimary]
    apply List.map_congr_left
    intro t listed
    have empty : t.bytes.holes = [] := by
      have noHoles := List.flatMap_eq_nil_iff.mp none t listed
      simpa [parameterHoles] using noHoles
    rw [Addresses.fillArgument, Addresses.fillArgument, ArgumentTemplate.fill, ArgumentTemplate.fill, empty]
    rfl

end Arguments

/-! ## Nodes with holes -/

/-- An access to declared storage is within one range, and one that writes is not to a read-only range. -/
structure Access (d : Declarations) (hole : Hole) (bytes : Nat) (writing : Bool) : Prop where
  placed : ∃ index offset range, hole = .range index offset ∧
    InRange d.laneReplacements (d.primary.of hole) (d.control.of hole) index offset range ∧ offset + bytes ≤ range.bytes ∧
    (writing → range.readOnly = false)

/-- A node whose holes are all declared. -/
inductive Sound (d : Declarations) : Template → Prop where
  | childGraph {edges : List GraphEdge} {nodes : List Template} (sound : ∀ node ∈ nodes, Sound d node) :
    Sound d (.childGraph edges nodes)
  | memset {destination : Hole} {p : MemsetParams} {bytes : Nat}
      (measured : memsetAccessBytes (d.primary.of destination) p = .ok bytes) (written : Access d destination bytes true) :
    Sound d (.memset destination p)
  | memcpy {source destination : Hole} {p : MemcpyParams} {bytes : Nat}
      (measured : memcpyAccessBytes d.onDevice (d.primary.of source) (d.primary.of destination) p = .ok bytes)
      (read : Access d source bytes false) (written : Access d destination bytes true) :
    Sound d (.memcpy source destination p)
  | empty : Sound d .empty
  | kernel {schema : KernelSchema} {arguments : List (KernelNodeArgument ArgumentTemplate)}
      (sound : ∀ argument ∈ arguments, argument.bytes.Sound d) : Sound d (.kernel schema arguments)

/-- A hole of a graph: the path of its node, the offset among its parameters, what fills it. -/
abbrev Place :=
  List Nat × Nat × Hole

mutual

/-- The holes of a node, in the order of the recursion. -/
def Node.places (path : List Nat) : Template → List Place
  | .childGraph _ nodes => placesOf path 0 nodes
  | .memset destination _ => [(path, 0, destination)]
  | .memcpy source destination _ => [(path, 0, source), (path, 0, destination)]
  | .empty => []
  | .kernel _ arguments => (arguments.flatMap parameterHoles).map fun hole => (path, hole)
  | .unsupported _ => []

def placesOf (path : List Nat) : Nat → List Template → List Place
  | _, [] => []
  | nodeIndex, node :: rest => node.places (path ++ [nodeIndex]) ++ placesOf path (nodeIndex + 1) rest

end

mutual

/-- The kernel nodes that read all routing addresses, by their paths. -/
def Node.candidates (d : Declarations) (path : List Nat) : CapturedNode → List (List Nat)
  | .childGraph _ nodes => candidatesOf d path 0 nodes
  | .kernel _ arguments => if d.routingCandidate arguments then [path] else []
  | _ => []

def candidatesOf (d : Declarations) (path : List Nat) : Nat → List CapturedNode → List (List Nat)
  | _, [] => []
  | nodeIndex, node :: rest => node.candidates d (path ++ [nodeIndex]) ++ candidatesOf d path (nodeIndex + 1) rest

end

/-- The binding sites of a hole. -/
def Declarations.sites (d : Declarations) : Place → List BindingSite
  | (path, offset, .weight index) => [⟨path, offset, (d.resources[index]?.map (·.valueOffsetBytes)).getD 0⟩]
  | (_, _, .range ..) => []

/-- What the recursion has recorded on its way over the holes and the candidates. -/
structure Traced (d : Declarations) (places : List Place) (candidates : List (List Nat)) (start finish : Progress) : Prop where
  counts : finish.counts = (places.map fun place => place.2.2).foldl Counts.add start.counts
  bindingSites : finish.bindingSites = start.bindingSites ++ places.flatMap d.sites
  routing : finish.routingFinalization.toList = start.routingFinalization.toList ++ candidates

/-- The rewritten node, by its template. -/
structure Rewritten (d : Declarations) (path : List Nat) (node control result : CapturedNode) (start finish : Progress)
    (t : Template) : Prop where
  sound : Sound d t
  atPrimary : d.primary.fill t = node
  atControl : d.control.fill t = control
  atTarget : d.target.fill t = result
  traced : Traced d (t.places path) (node.candidates d path) start finish

section Nodes

variable {d : Declarations} {path : List Nat} {node control result : CapturedNode} {start middle finish : Progress}

theorem Traced.refl (d : Declarations) (start : Progress) : Traced d [] [] start start :=
  ⟨rfl, by simp, by simp⟩

theorem Traced.append {places places' : List Place} {candidates candidates' : List (List Nat)}
    (first : Traced d places candidates start middle) (second : Traced d places' candidates' middle finish) :
    Traced d (places ++ places') (candidates ++ candidates') start finish := by
  refine ⟨?_, ?_, ?_⟩
  · rw [second.counts, first.counts, List.map_append, List.foldl_append]
  · rw [second.bindingSites, first.bindingSites, List.flatMap_append, List.append_assoc]
  · rw [second.routing, first.routing, List.append_assoc]

/-- A typed access fills one hole. -/
theorem bindMemoryAddress_access {primary control bytes : Nat} {writing : Bool} {bound : Hole × Nat}
    (returned : bindMemoryAddress d.laneReplacements primary control bytes writing = .ok bound) :
    Access d bound.1 bytes writing ∧ d.primary.of bound.1 = primary ∧ d.control.of bound.1 = control ∧
      d.target.of bound.1 = bound.2 ∧ (∀ place, d.sites (path, place, bound.1) = []) := by
  obtain ⟨index, offset, range, placed, hole, address, room, allowed⟩ := bindMemoryAddress_eq_ok returned
  have atPrimary : d.primary.of bound.1 = primary := by
    simp only [hole, Addresses.of, Declarations.primary, placed.found, Option.map_some, Option.getD_some]
    exact placed.atPrimary.symm
  have atControl : d.control.of bound.1 = control := by
    simp only [hole, Addresses.of, Declarations.control, placed.found, Option.map_some, Option.getD_some]
    exact placed.atControl.symm
  refine ⟨⟨index, offset, range, hole, ?_, room, allowed⟩, atPrimary, atControl, ?_, ?_⟩
  · rw [atPrimary, atControl]
    exact placed
  · simp only [hole, Addresses.of, Declarations.target, placed.found, Option.map_some, Option.getD_some]
    exact address.symm
  · intro place
    rw [hole]
    rfl

/-- Copies that are contiguous are told apart by their length and kind. -/
theorem memcpy_eq {onDevice : Nat → Bool} {source destination source' destination' bytes : Nat} {p p' : MemcpyParams}
    (measured : memcpyAccessBytes onDevice source destination p = .ok bytes)
    (measured' : memcpyAccessBytes onDevice source' destination' p' = .ok bytes) (kinds : p.kind = p'.kind) : p = p' := by
  have shape : ∀ {source destination : Nat} {p : MemcpyParams}, memcpyAccessBytes onDevice source destination p = .ok bytes →
      p = ⟨false, (bytes, 1, 1), (0, 0, 0), (0, 0, 0), p.kind⟩ := by
    intro source destination p measured
    rw [memcpyAccessBytes] at measured
    dsimp only at measured
    split at measured
    · cases measured
    next contiguous =>
    split at measured
    · cases measured
    split at measured
    · cases measured
    obtain rfl := Except.ok.inj measured
    obtain ⟨arrays, ⟨width, rest⟩, sourcePosition, destinationPosition, kind⟩ := p
    simp only [Bool.not_eq_true', Bool.not_eq_false, Bool.and_eq_true, decide_eq_true_eq] at contiguous
    obtain ⟨⟨⟨⟨flat, -⟩, rfl⟩, rfl⟩, rfl⟩ := contiguous
    rw [flat]
  rw [shape measured, shape measured', kinds]

theorem fill_childGraph (a : Addresses) (edges : List GraphEdge) (nodes : List Template) :
    a.fill (.childGraph edges nodes) = .childGraph edges (mapNodes (ArgumentTemplate.fill a) a.of nodes) :=
  rfl

theorem fill_kernel (a : Addresses) (schema : KernelSchema) (arguments : List (KernelNodeArgument ArgumentTemplate)) :
    a.fill (.kernel schema arguments) = .kernel schema (arguments.map a.fillArgument) :=
  rfl

/-- A kernel node. -/
theorem parameterizeKernel_eq_ok {nodeIndex : Nat} {schema schema' : KernelSchema}
    {arguments arguments' : List (KernelNodeArgument (List UInt8))} {result : CapturedNode × Progress}
    (returned : parameterizeKernel d path nodeIndex schema schema' arguments arguments' start = .ok result) :
    ∃ t, Rewritten d path (.kernel schema arguments) (.kernel schema' arguments') result.1 start result.2 t := by
  rw [parameterizeKernel] at returned
  split at returned
  · cases returned
  next same =>
  simp only [sameSchema, Bool.not_eq_true', Bool.not_eq_false, Bool.and_eq_true, decide_eq_true_eq] at same
  obtain ⟨rfl, same⟩ := same
  dsimp only at returned
  split at returned
  · cases returned
  next single =>
  obtain ⟨⟨rewritten, scan⟩, looped, returned⟩ := bind_eq_ok.mp returned
  obtain rfl := Except.ok.inj returned
  obtain ⟨ts, bound⟩ := bindArguments_eq_ok same looped
  refine ⟨.kernel schema ts, .kernel bound.sound, ?_, ?_, ?_, ?_, ?_, ?_⟩
  · rw [fill_kernel, bound.atPrimary]
  · rw [fill_kernel, bound.atControl]
  · rw [fill_kernel, bound.kept rfl]
  · rw [Node.places, List.map_map]
    exact bound.counts
  · dsimp only
    rw [bound.nodeMatches, List.nil_append, List.map_flatMap, Node.places, List.flatMap_map]
    congr 1
    refine congrArg (fun f => List.flatMap f _) ?_
    funext hole
    obtain ⟨offset, hole⟩ := hole
    cases hole with
    | weight index => rfl
    | range index place => rfl
  · dsimp only
    rw [Node.candidates]
    cases candidate : d.routingCandidate arguments with
    | false => simp
    | true =>
      rw [candidate, Bool.true_and] at single
      cases recorded : start.routingFinalization with
      | none => simp
      | some other =>
        rw [recorded] at single
        exact absurd rfl single

/-- What the recursion does at a node, whatever it stands beside. -/
def Rewrites (d : Declarations) (node : CapturedNode) : Prop :=
  ∀ path nodeIndex control start result, parameterizeNode d path nodeIndex node control start = .ok result →
    ∃ t, Rewritten d (path ++ [nodeIndex]) node control result.1 start result.2 t

/-- What it does over the nodes of one graph. -/
structure RewrittenAll (d : Declarations) (path : List Nat) (nodeIndex : Nat) (nodes control result : List CapturedNode)
    (start finish : Progress) (ts : List Template) : Prop where
  sound : ∀ t ∈ ts, Sound d t
  atPrimary : mapNodes (ArgumentTemplate.fill d.primary) d.primary.of ts = nodes
  atControl : mapNodes (ArgumentTemplate.fill d.control) d.control.of ts = control
  atTarget : mapNodes (ArgumentTemplate.fill d.target) d.target.of ts = result
  traced : Traced d (placesOf path nodeIndex ts) (candidatesOf d path nodeIndex nodes) start finish

/-- The loop, from what the recursion does at each node. -/
theorem parameterizeNodes_eq_ok {nodes control : List CapturedNode} (rewrites : ∀ node ∈ nodes, Rewrites d node) {nodeIndex : Nat}
    {result : List CapturedNode × Progress} (same : nodes.map Node.kind = control.map Node.kind)
    (returned : parameterizeNodes d path nodeIndex nodes control start = .ok result) :
    ∃ ts, RewrittenAll d path nodeIndex nodes control result.1 start result.2 ts := by
  induction nodes generalizing control nodeIndex start result with
  | nil =>
    cases control with
    | cons node' rest' => cases same
    | nil =>
      rw [parameterizeNodes] at returned
      · obtain rfl := Except.ok.inj returned
        exact ⟨[], by simp, rfl, rfl, rfl, Traced.refl d start⟩
      · intro node rest node' rest' impossible
        cases impossible
  | cons node rest ih =>
    cases control with
    | nil => cases same
    | cons node' rest' =>
      rw [List.map_cons, List.map_cons, List.cons.injEq] at same
      rw [parameterizeNodes] at returned
      obtain ⟨first, here, returned⟩ := bind_eq_ok.mp returned
      obtain ⟨others, later, returned⟩ := bind_eq_ok.mp returned
      obtain rfl := Except.ok.inj returned
      obtain ⟨t, rewritten⟩ := rewrites node List.mem_cons_self path nodeIndex node' start first here
      obtain ⟨ts, rewrittenAll⟩ := ih (fun other listed => rewrites other (List.mem_cons_of_mem _ listed)) same.2 later
      refine ⟨t :: ts, ?_, ?_, ?_, ?_, ?_⟩
      · intro other listed
        rcases List.mem_cons.mp listed with rfl | among
        · exact rewritten.sound
        · exact rewrittenAll.sound other among
      · rw [mapNodes, rewrittenAll.atPrimary]
        exact congrArg (· :: rest) rewritten.atPrimary
      · rw [mapNodes, rewrittenAll.atControl]
        exact congrArg (· :: rest') rewritten.atControl
      · rw [mapNodes, rewrittenAll.atTarget]
        exact congrArg (· :: others.1) rewritten.atTarget
      · rw [placesOf, candidatesOf]
        exact rewritten.traced.append rewrittenAll.traced

theorem parameterizeNode_eq_ok (node : CapturedNode) : Rewrites d node := by
  induction node using Node.induction with
  | childGraph edges nodes ih =>
    intro path nodeIndex control start result returned
    cases control with
    | childGraph edges' nodes' =>
      rw [parameterizeNode] at returned
      split at returned
      · cases returned
      next same =>
      simp only [sameDirectTopology, Bool.not_eq_true', Bool.not_eq_false, Bool.and_eq_true, decide_eq_true_eq] at same
      obtain ⟨rest, looped, returned⟩ := bind_eq_ok.mp returned
      obtain rfl := Except.ok.inj returned
      obtain ⟨ts, rewritten⟩ := parameterizeNodes_eq_ok ih same.1 looped
      refine ⟨.childGraph edges ts, .childGraph rewritten.sound, ?_, ?_, ?_, rewritten.traced⟩
      · rw [fill_childGraph, rewritten.atPrimary]
      · rw [fill_childGraph, rewritten.atControl, same.2]
      · rw [fill_childGraph, rewritten.atTarget]
    | _ => cases returned
  | memset destination p =>
    intro path nodeIndex control start result returned
    cases control with
    | memset destination' p' =>
      rw [parameterizeNode] at returned
      split at returned
      · cases returned
      next same =>
      obtain rfl := not_not.mp same
      obtain ⟨bytes, measured, returned⟩ := bind_eq_ok.mp returned
      obtain ⟨bound, accessed, returned⟩ := bind_eq_ok.mp returned
      obtain rfl := Except.ok.inj returned
      obtain ⟨access, atPrimary, atControl, atTarget, noSites⟩ :=
        @bindMemoryAddress_access d (path ++ [nodeIndex]) _ _ _ _ _ accessed
      refine ⟨.memset bound.1 p, .memset ?_ access, ?_, ?_, ?_, rfl, ?_, ?_⟩
      · rw [atPrimary]
        exact measured
      · exact congrArg (Node.memset · p) atPrimary
      · exact congrArg (Node.memset · p) atControl
      · exact congrArg (Node.memset · p) atTarget
      · simp [Node.places, noSites]
      · simp [Node.candidates]
    | _ => cases returned
  | memcpy source destination p =>
    intro path nodeIndex control start result returned
    cases control with
    | memcpy source' destination' p' =>
      rw [parameterizeNode] at returned
      obtain ⟨bytes, measured, returned⟩ := bind_eq_ok.mp returned
      obtain ⟨bytes', measured', returned⟩ := bind_eq_ok.mp returned
      dsimp only at returned
      split at returned
      · cases returned
      next same =>
      obtain ⟨bound, accessed, returned⟩ := bind_eq_ok.mp returned
      obtain ⟨bound', accessed', returned⟩ := bind_eq_ok.mp returned
      obtain rfl := Except.ok.inj returned
      simp only [Bool.not_eq_true', Bool.not_eq_false, Bool.and_eq_true, decide_eq_true_eq] at same
      obtain ⟨rfl, kinds⟩ := same
      obtain rfl := memcpy_eq measured measured' kinds
      obtain ⟨access, atPrimary, atControl, atTarget, noSites⟩ :=
        @bindMemoryAddress_access d (path ++ [nodeIndex]) _ _ _ _ _ accessed
      obtain ⟨access', atPrimary', atControl', atTarget', noSites'⟩ :=
        @bindMemoryAddress_access d (path ++ [nodeIndex]) _ _ _ _ _ accessed'
      refine ⟨.memcpy bound.1 bound'.1 p, .memcpy ?_ access access', ?_, ?_, ?_, rfl, ?_, ?_⟩
      · rw [atPrimary, atPrimary']
        exact measured
      · exact congrArg₂ (Node.memcpy · · p) atPrimary atPrimary'
      · exact congrArg₂ (Node.memcpy · · p) atControl atControl'
      · exact congrArg₂ (Node.memcpy · · p) atTarget atTarget'
      · simp [Node.places, noSites, noSites']
      · simp [Node.candidates]
    | _ => cases returned
  | empty =>
    intro path nodeIndex control start result returned
    cases control with
    | empty =>
      obtain rfl := Except.ok.inj returned
      exact ⟨.empty, .empty, rfl, rfl, rfl, Traced.refl d start⟩
    | _ => cases returned
  | kernel schema arguments =>
    intro path nodeIndex control start result returned
    cases control with
    | kernel schema' arguments' => exact parameterizeKernel_eq_ok returned
    | _ => cases returned
  | unsupported kind =>
    intro path nodeIndex control start result returned
    cases control with
    | _ => cases returned

end Nodes

/-! ## The whole graph -/

/-- A tally of the recursion is what was there with the bindings of a kind. -/
theorem getElem?_tally {tally : Counts → List Nat} {counted : Hole → Bool} {i : Nat}
    (step : ∀ counts hole, (tally (counts.add hole))[i]? = (tally counts)[i]?.map (· + if counted hole then 1 else 0))
    (holes : List Hole) (counts : Counts) :
    (tally (holes.foldl Counts.add counts))[i]? = (tally counts)[i]?.map (· + holes.countP counted) := by
  induction holes generalizing counts with
  | nil => simp
  | cons hole rest ih =>
    rw [List.foldl_cons, ih, step, List.countP_cons, Option.map_map]
    congr 1
    funext count
    exact Nat.add_right_comm _ _ _ |>.trans (Nat.add_assoc _ _ _)

theorem getElem?_resources (holes : List Hole) (counts : Counts) (i : Nat) :
    (holes.foldl Counts.add counts).resources[i]? = counts.resources[i]?.map (· + holes.countP (· = .weight i)) := by
  apply getElem?_tally
  intro counts hole
  cases hole with
  | weight index => by_cases here : index = i <;> simp [Counts.add, here]
  | range index offset => simp [Counts.add]

/-- The binding is a place in a range. -/
def Hole.inRange (i : Nat) : Hole → Bool
  | .weight _ => false
  | .range index _ => index = i

theorem getElem?_lanes (holes : List Hole) (counts : Counts) (i : Nat) :
    (holes.foldl Counts.add counts).lanes[i]? = counts.lanes[i]?.map (· + holes.countP (·.inRange i)) := by
  apply getElem?_tally
  intro counts hole
  cases hole with
  | weight index => simp [Counts.add, Hole.inRange]
  | range index offset => by_cases here : index = i <;> simp [Counts.add, Hole.inRange, here]

/-- A graph with holes for its addresses. -/
abbrev GraphTemplate :=
  Graph ArgumentTemplate Hole

def Addresses.fillGraph (a : Addresses) (t : GraphTemplate) : CapturedGraph :=
  t.map (ArgumentTemplate.fill a) a.of

/-- All holes of a graph. -/
def GraphTemplate.places (t : GraphTemplate) : List Place :=
  placesOf [] 0 t.nodes

/-- What is returned is the captured graph on the lane's addresses. -/
structure Parameterized (d : Declarations) (primary control : CapturedGraph) (result : GraphParameterization)
    (t : GraphTemplate) : Prop where
  sound : ∀ node ∈ t.nodes, Sound d node
  atPrimary : d.primary.fillGraph t = primary
  atControl : d.control.fillGraph t = control
  atTarget : d.target.fillGraph t = result.graph
  bindingSites : result.bindingSites = (GraphTemplate.places t).flatMap d.sites
  routing : result.routingFinalization.toList = candidatesOf d [] 0 primary.nodes
  everyWeight : ∀ index < d.resources.length, ∃ place ∈ GraphTemplate.places t, place.2.2 = .weight index
  everyRange : ∀ index range, d.laneReplacements[index]? = some range → range.required →
    ∃ place ∈ GraphTemplate.places t, ∃ offset, place.2.2 = .range index offset

/-- The two captures and the graph of the lane are one graph on three sets of addresses. Its
holes are just the declared addresses of the captures, its sites those of the weights. -/
theorem parameterizeGraph_eq_ok {d : Declarations} {primary control : CapturedGraph} {result : GraphParameterization}
    (returned : parameterizeGraph d primary control = .ok result) : ∃ t, Parameterized d primary control result t := by
  rw [parameterizeGraph] at returned
  split at returned
  · cases returned
  next same =>
  simp only [sameDirectTopology, Bool.not_eq_true', Bool.not_eq_false, Bool.and_eq_true, decide_eq_true_eq] at same
  obtain ⟨rewritten, looped, returned⟩ := bind_eq_ok.mp returned
  dsimp only at returned
  split at returned
  · cases returned
  next weights =>
  split at returned
  · cases returned
  next ranges =>
  obtain rfl := Except.ok.inj returned
  obtain ⟨ts, all⟩ := parameterizeNodes_eq_ok (fun node _ => parameterizeNode_eq_ok node) same.1 looped
  rw [Bool.not_eq_true, Bool.not_eq_false', List.all_eq_true] at weights ranges
  refine ⟨⟨primary.edges, ts⟩, all.sound, ?_, ?_, ?_, ?_, ?_, ?_, ?_⟩
  · rw [Addresses.fillGraph, Graph.map, all.atPrimary]
  · rw [Addresses.fillGraph, Graph.map, all.atControl, same.2]
  · rw [Addresses.fillGraph, Graph.map, all.atTarget]
  · exact all.traced.bindingSites
  · exact all.traced.routing
  · intro index small
    have counted := getElem?_resources ((placesOf [] 0 ts).map fun place => place.2.2)
      ⟨d.resources.map fun _ => 0, d.laneReplacements.map fun _ => 0⟩ index
    rw [← all.traced.counts] at counted
    dsimp only at counted
    rw [List.getElem?_map, List.getElem?_eq_getElem small, Option.map_some, Option.map_some, Nat.zero_add] at counted
    have met := weights _ (List.mem_of_getElem? counted)
    rw [decide_eq_true_eq, ← Nat.pos_iff_ne_zero, List.countP_pos_iff] at met
    obtain ⟨hole, listed, is⟩ := met
    obtain ⟨place, among, rfl⟩ := List.mem_map.mp listed
    exact ⟨place, among, of_decide_eq_true is⟩
  · intro index range found required
    have counted := getElem?_lanes ((placesOf [] 0 ts).map fun place => place.2.2)
      ⟨d.resources.map fun _ => 0, d.laneReplacements.map fun _ => 0⟩ index
    rw [← all.traced.counts] at counted
    dsimp only at counted
    rw [List.getElem?_map, found, Option.map_some, Option.map_some, Nat.zero_add] at counted
    have listed : (range, ((placesOf [] 0 ts).map fun place => place.2.2).countP (·.inRange index)) ∈
        d.laneReplacements.zip rewritten.2.counts.lanes := by
      apply List.mem_iff_getElem?.mpr
      refine ⟨index, ?_⟩
      rw [List.getElem?_zip_eq_some]
      exact ⟨found, counted⟩
    have met := ranges _ listed
    simp only [required, Bool.not_true, Bool.false_or, decide_eq_true_eq] at met
    rw [← Nat.pos_iff_ne_zero, List.countP_pos_iff] at met
    obtain ⟨hole, listed, is⟩ := met
    obtain ⟨place, among, rfl⟩ := List.mem_map.mp listed
    refine ⟨place, among, ?_⟩
    obtain ⟨path, offset, hole⟩ := place
    cases hole with
    | weight index' => cases is
    | range index' offset' =>
      obtain rfl : index' = index := of_decide_eq_true is
      exact ⟨offset', rfl⟩

end CrossPool.FfnAgent.Parameterization
