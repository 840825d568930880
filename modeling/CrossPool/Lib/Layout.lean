import Mathlib.Algebra.BigOperators.Ring.List
import Mathlib.Algebra.Ring.Nat
import Mathlib.Tactic.Common
import CrossPool.Lib.Loops

/-!
# Checked sizes and byte layouts

Sizes are machine words: a checked operation is `none` where its result is no word, an
unchecked one wraps. A plan places regions one after another, each at the next offset of
its alignment; slots of equal size divide a region.
-/

namespace CrossPool.Lib

/-! ## Checked arithmetic -/

/-- One more than the greatest word. -/
def wordLimit : Nat :=
  2 ^ 64

/-- A word operation that does not check. -/
def wrap (n : Nat) : Nat :=
  n % wordLimit

def checkedSum (first : Nat) (values : List Nat) : Option Nat :=
  values.foldlM (fun result value => if result + value < wordLimit then some (result + value) else none) first

/-- A zero factor makes the product zero before anything is multiplied. -/
def checkedProd (values : List Nat) : Option Nat :=
  if values.any (· = 0) then some 0
  else values.foldlM (fun result value => if result * value < wordLimit then some (result * value) else none) 1

/-- Round up to a multiple; no alignment is zero. -/
def alignUp (value alignment : Nat) : Option Nat :=
  if alignment = 0 then none
  else (checkedSum value [alignment - 1]).map fun rounded => rounded / alignment * alignment

theorem wrap_eq {n : Nat} (small : n < wordLimit) : wrap n = n :=
  Nat.mod_eq_of_lt small

theorem checkedSum_one {first value total : Nat} (returned : checkedSum first [value] = some total) :
    total = first + value ∧ total < wordLimit := by
  simp only [checkedSum, List.foldlM_cons, List.foldlM_nil, Option.bind_eq_bind] at returned
  split at returned
  · rename_i fits
    cases returned
    exact ⟨rfl, fits⟩
  · cases returned

theorem checkedProd_eq_some {values : List Nat} {product : Nat} (returned : checkedProd values = some product) :
    product = values.prod ∧ product < wordLimit := by
  have folds (rest : List Nat) (start result : Nat) (small : start < wordLimit)
      (folded : rest.foldlM (fun result value => if result * value < wordLimit then some (result * value) else none) start =
        some result) : result = start * rest.prod ∧ result < wordLimit := by
    induction rest generalizing start with
    | nil =>
      cases folded
      exact ⟨by simp, small⟩
    | cons value rest ih =>
      simp only [List.foldlM_cons, Option.bind_eq_bind] at folded
      split at folded
      · rename_i fits
        obtain ⟨total, bound⟩ := ih (start * value) fits folded
        exact ⟨by rw [total, List.prod_cons, Nat.mul_assoc], bound⟩
      · cases folded
  unfold checkedProd at returned
  split at returned
  · rename_i zero
    cases returned
    rw [List.any_eq_true] at zero
    obtain ⟨value, member, none⟩ := zero
    rw [decide_eq_true_eq] at none
    rw [none] at member
    refine ⟨?_, by decide⟩
    exact (List.prod_eq_zero_iff.mpr member).symm
  · obtain ⟨total, bound⟩ := folds values 1 product (by decide) returned
    exact ⟨by rw [total, Nat.one_mul], bound⟩

theorem alignUp_eq_some {value alignment aligned : Nat} (returned : alignUp value alignment = some aligned) :
    value ≤ aligned ∧ alignment ∣ aligned ∧ aligned < wordLimit ∧ 0 < alignment := by
  unfold alignUp at returned
  split at returned
  · cases returned
  · rename_i positive
    obtain ⟨rounded, summed, rfl⟩ := Option.map_eq_some_iff.mp returned
    obtain ⟨rfl, small⟩ := checkedSum_one summed
    have split := Nat.div_add_mod (value + (alignment - 1)) alignment
    have remainder := Nat.mod_lt (value + (alignment - 1)) (Nat.pos_of_ne_zero positive)
    rw [Nat.mul_comm] at split
    exact ⟨by omega, Nat.dvd_mul_left _ _, by omega, Nat.pos_of_ne_zero positive⟩

/-! ## Extents -/

/-- Some bytes from an offset on. -/
structure Extent where
  start : Nat
  bytes : Nat
deriving DecidableEq, Repr

namespace Extent

def stop (e : Extent) : Nat :=
  e.start + e.bytes

/-- All bytes are bytes of the other. -/
def Within (e whole : Extent) : Prop :=
  whole.start ≤ e.start ∧ e.stop ≤ whole.stop

/-- No byte is shared. -/
def Disjoint (e other : Extent) : Prop :=
  e.stop ≤ other.start ∨ other.stop ≤ e.start

/-- Consecutive slots of equal size, from an offset on. -/
def run (start size first number : Nat) : Extent :=
  ⟨start + first * size, number * size⟩

variable {e f whole other : Extent}

theorem Disjoint.mono (apart : whole.Disjoint other) (inside : e.Within whole) (inside' : f.Within other) :
    e.Disjoint f := by
  unfold Disjoint Within at *
  omega

theorem Within.refl (e : Extent) : e.Within e :=
  ⟨Nat.le_refl _, Nat.le_refl _⟩

theorem Within.trans (inside : e.Within f) (inside' : f.Within whole) : e.Within whole := by
  unfold Within at *
  omega

theorem run_within {count size first number : Nat} (bytes : whole.bytes = count * size)
    (listed : first + number ≤ count) : (run whole.start size first number).Within whole := by
  have last : first * size + number * size ≤ count * size := by
    rw [← Nat.add_mul]
    exact Nat.mul_le_mul_right size listed
  simp only [Within, stop, run, bytes]
  omega

theorem run_disjoint {start size first number first' number' : Nat}
    (apart : first + number ≤ first' ∨ first' + number' ≤ first) :
    (run start size first number).Disjoint (run start size first' number') := by
  have later {i n j : Nat} (less : i + n ≤ j) : i * size + n * size ≤ j * size := by
    rw [← Nat.add_mul]
    exact Nat.mul_le_mul_right size less
  simp only [Disjoint, stop, run]
  rcases apart with less | more
  · have := later less
    omega
  · have := later more
    omega

end Extent

/-! ## Rows of slots -/

theorem row_index_lt {rows columns row column : Nat} (inRow : row < rows) (inColumn : column < columns) :
    row * columns + column < rows * columns := by
  have last : row * columns + columns ≤ rows * columns := by
    rw [← Nat.succ_mul]
    exact Nat.mul_le_mul_right columns inRow
  omega

theorem row_index_inj {columns row row' column column' : Nat} (inside : column < columns) (inside' : column' < columns)
    (same : row * columns + column = row' * columns + column') : row = row' ∧ column = column' := by
  have rows := congrArg (· / columns) same
  have columns' := congrArg (· % columns) same
  have positive : 0 < columns := by omega
  simp only [Nat.mul_comm _ columns, Nat.mul_add_div positive, Nat.div_eq_of_lt inside, Nat.div_eq_of_lt inside',
    Nat.add_zero] at rows
  simp only [Nat.mul_comm _ columns, Nat.mul_add_mod, Nat.mod_eq_of_lt inside, Nat.mod_eq_of_lt inside'] at columns'
  exact ⟨rows, columns'⟩

/-! ## Blocks -/

/-- Blocks (first index, length) one behind the other, up to a total. -/
structure Laid (blocks : List (Nat × Nat)) (total : Nat) : Prop where
  ordered : blocks.Pairwise fun block next => block.1 + block.2 ≤ next.1
  inside : ∀ block ∈ blocks, block.1 + block.2 ≤ total

theorem Laid.append {blocks : List (Nat × Nat)} {total : Nat} (laid : Laid blocks total) (length : Nat) :
    Laid (blocks ++ [(total, length)]) (total + length) := by
  constructor
  · apply List.pairwise_append.mpr
    refine ⟨laid.ordered, List.pairwise_singleton _ _, ?_⟩
    intro block member last here
    rw [List.mem_singleton.mp here]
    exact laid.inside block member
  · intro block member
    rcases List.mem_append.mp member with earlier | last
    · have := laid.inside block earlier
      omega
    · rw [List.mem_singleton.mp last]

theorem pairwise_getElem? {α : Type} {R : α → α → Prop} {items : List α} (ordered : items.Pairwise R) {i j : Nat}
    (less : i < j) {first second : α} (found : items[i]? = some first) (found' : items[j]? = some second) :
    R first second := by
  obtain ⟨inside, rfl⟩ := List.getElem?_eq_some_iff.mp found
  obtain ⟨inside', rfl⟩ := List.getElem?_eq_some_iff.mp found'
  exact List.pairwise_iff_getElem.mp ordered i j inside inside' less

theorem Laid.apart {blocks : List (Nat × Nat)} {total i j : Nat} (laid : Laid blocks total) (differs : i ≠ j)
    {block block' : Nat × Nat} (found : blocks[i]? = some block) (found' : blocks[j]? = some block') :
    block.1 + block.2 ≤ block'.1 ∨ block'.1 + block'.2 ≤ block.1 := by
  rcases Nat.lt_or_gt_of_ne differs with less | more
  · left
    exact pairwise_getElem? laid.ordered less found found'
  · right
    exact pairwise_getElem? laid.ordered more found' found

/-! ## Plans -/

/-- `LayoutRegionSpec` -/
structure LayoutRegionSpec where
  name : String
  byteCount : Nat
  alignment : Nat
deriving DecidableEq, Repr

/-- `LayoutRegion` -/
structure LayoutRegion where
  name : String
  offset : Nat
  bytes : Nat
  alignment : Nat
deriving DecidableEq, Repr

def LayoutRegion.extent (region : LayoutRegion) : Extent :=
  ⟨region.offset, region.bytes⟩

def LayoutRegion.spec (region : LayoutRegion) : LayoutRegionSpec :=
  ⟨region.name, region.bytes, region.alignment⟩

/-- An object type, as far as a layout knows it. -/
structure ObjectType where
  size : Nat
  alignment : Nat
  size_pos : 0 < size
  alignment_dvd : alignment ∣ size

def LayoutRegionSpec.object (name : String) (type : ObjectType) : LayoutRegionSpec :=
  ⟨name, type.size, type.alignment⟩

/-- `LayoutRegionSpec::array` -/
def LayoutRegionSpec.array (name : String) (type : ObjectType) (count : Nat) : Option LayoutRegionSpec :=
  (checkedProd [count, type.size]).map fun byteCount => ⟨name, byteCount, type.alignment⟩

theorem LayoutRegionSpec.array_bytes {name : String} {type : ObjectType} {count : Nat} {spec : LayoutRegionSpec}
    (made : array name type count = some spec) : spec.byteCount = count * type.size := by
  obtain ⟨byteCount, product, rfl⟩ := Option.map_eq_some_iff.mp made
  rw [(checkedProd_eq_some product).1, List.prod_cons, List.prod_singleton]

/-- `LayoutPlan` -/
structure LayoutPlan where
  regions : List LayoutRegion
  totalBytes : Nat
deriving DecidableEq, Repr

/-- The loop of `LayoutPlan`, with the offset behind the last region. -/
def planRegions : Nat → List LayoutRegionSpec → Option (List LayoutRegion × Nat)
  | offset, [] => some ([], offset)
  | offset, spec :: rest =>
    if spec.name = "" then none
    else
      (alignUp offset spec.alignment).bind fun aligned =>
        (checkedSum aligned [spec.byteCount]).bind fun stop =>
          (planRegions stop rest).map fun planned =>
            (⟨spec.name, aligned, spec.byteCount, spec.alignment⟩ :: planned.1, planned.2)

def LayoutPlan.create (specs : List LayoutRegionSpec) (allocationAlignment : Nat) : Option LayoutPlan :=
  (planRegions 0 specs).bind fun planned =>
    (alignUp planned.2 allocationAlignment).map fun totalBytes => ⟨planned.1, totalBytes⟩

/-- Regions from an offset on, each behind the one before, up to another. -/
structure Placed (first : Nat) (regions : List LayoutRegion) (last : Nat) : Prop where
  aligned : ∀ region ∈ regions, region.alignment ∣ region.offset
  behind : ∀ region ∈ regions, first ≤ region.offset
  ordered : regions.Pairwise fun region next => region.extent.stop ≤ next.offset
  inside : ∀ region ∈ regions, region.extent.stop ≤ last
  grows : first ≤ last

theorem planRegions_placed {specs : List LayoutRegionSpec} {first last : Nat} {regions : List LayoutRegion}
    (small : first < wordLimit) (planned : planRegions first specs = some (regions, last)) :
    regions.map LayoutRegion.spec = specs ∧ Placed first regions last ∧ last < wordLimit := by
  induction specs generalizing first regions with
  | nil =>
    cases planned
    exact ⟨rfl, ⟨by simp, by simp, List.Pairwise.nil, by simp, Nat.le_refl _⟩, small⟩
  | cons spec rest ih =>
    rw [planRegions] at planned
    split at planned
    · cases planned
    · simp only [Option.bind_eq_some_iff, Option.map_eq_some_iff, Prod.mk.injEq] at planned
      obtain ⟨aligned, rounded, stop, summed, ⟨later, last'⟩, tail, rfl, rfl⟩ := planned
      obtain ⟨behind, divides, -, -⟩ := alignUp_eq_some rounded
      obtain ⟨rfl, below⟩ := checkedSum_one summed
      obtain ⟨specs, placed, bound⟩ := ih below tail
      have grows := placed.grows
      refine ⟨?_, ⟨?_, ?_, ?_, ?_, ?_⟩, bound⟩
      · rw [List.map_cons, specs]
        rfl
      · intro region member
        rcases List.mem_cons.mp member with rfl | member
        · exact divides
        · exact placed.aligned region member
      · intro region member
        rcases List.mem_cons.mp member with rfl | member
        · exact behind
        · have := placed.behind region member
          omega
      · apply List.Pairwise.cons
        · intro region member
          exact placed.behind region member
        · exact placed.ordered
      · intro region member
        rcases List.mem_cons.mp member with rfl | member
        · exact grows
        · exact placed.inside region member
      · dsimp only at grows ⊢
        omega

/-- A plan places what was specified, in order, within a total that is a word. -/
theorem LayoutPlan.create_placed {specs : List LayoutRegionSpec} {allocationAlignment : Nat} {plan : LayoutPlan}
    (created : LayoutPlan.create specs allocationAlignment = some plan) :
    plan.regions.map LayoutRegion.spec = specs ∧ Placed 0 plan.regions plan.totalBytes ∧ plan.totalBytes < wordLimit ∧
      allocationAlignment ∣ plan.totalBytes := by
  simp only [LayoutPlan.create, Option.bind_eq_some_iff, Option.map_eq_some_iff] at created
  obtain ⟨⟨regions, last⟩, planned, total, rounded, rfl⟩ := created
  obtain ⟨specs, placed, -⟩ := planRegions_placed (by decide) planned
  obtain ⟨grows, divides, bound, -⟩ := alignUp_eq_some rounded
  refine ⟨specs, ?_, bound, divides⟩
  exact
    { placed with
      inside := fun region member => Nat.le_trans (placed.inside region member) grows
      grows := Nat.zero_le _ }

/-! ## Named regions -/

/-- The regions of a plan by name. -/
structure Regions (ι : Type) where
  region : ι → LayoutRegion
  totalBytes : Nat

section Named

variable {ι : Type} [DecidableEq ι]

/-- A plan of named regions in the order of a list, with specifications that may
overflow. -/
def Regions.create (order : List ι) (spec : ι → Option LayoutRegionSpec) (allocationAlignment : Nat) : Option (Regions ι) :=
  (order.mapM spec).bind fun specs =>
    (LayoutPlan.create specs allocationAlignment).map fun plan =>
      ⟨fun i => plan.regions.getD (order.idxOf i) ⟨"", 0, 0, 1⟩, plan.totalBytes⟩

/-- The regions are as specified, aligned, disjoint, and within a total that is a word. -/
structure Regions.Safe (spec : ι → Option LayoutRegionSpec) (R : Regions ι) : Prop where
  specified : ∀ i, spec i = some (R.region i).spec
  aligned : ∀ i, (R.region i).alignment ∣ (R.region i).offset
  inside : ∀ i, (R.region i).extent.stop ≤ R.totalBytes
  disjoint : ∀ i j, i ≠ j → (R.region i).extent.Disjoint (R.region j).extent
  bounded : R.totalBytes < wordLimit

theorem Regions.create_safe {order : List ι} {spec : ι → Option LayoutRegionSpec} {allocationAlignment : Nat}
    {R : Regions ι} (complete : ∀ i, i ∈ order) (created : Regions.create order spec allocationAlignment = some R) :
    R.Safe spec := by
  simp only [Regions.create, Option.bind_eq_some_iff, Option.map_eq_some_iff] at created
  obtain ⟨specs, specified, plan, planned, rfl⟩ := created
  obtain ⟨same, placed, bounded, -⟩ := LayoutPlan.create_placed planned
  have entry (i : ι) : ∃ region, plan.regions[order.idxOf i]? = some region ∧ spec i = some region.spec ∧
      plan.regions.getD (order.idxOf i) ⟨"", 0, 0, 1⟩ = region := by
    have listed : order[order.idxOf i]? = some i := List.getElem?_idxOf (complete i)
    obtain ⟨answer, found, asked⟩ := getElem?_of_mapM_eq_some specified listed
    rw [← same, List.getElem?_map, Option.map_eq_some_iff] at found
    obtain ⟨region, found, rfl⟩ := found
    exact ⟨region, found, asked, by rw [List.getD_eq_getElem?_getD, found, Option.getD_some]⟩
  refine ⟨?_, ?_, ?_, ?_, bounded⟩
  · intro i
    obtain ⟨region, -, asked, is⟩ := entry i
    dsimp only
    rw [is, asked]
  · intro i
    obtain ⟨region, found, -, is⟩ := entry i
    dsimp only
    rw [is]
    exact placed.aligned region (List.mem_of_getElem? found)
  · intro i
    obtain ⟨region, found, -, is⟩ := entry i
    dsimp only
    rw [is]
    exact placed.inside region (List.mem_of_getElem? found)
  · intro i j differs
    obtain ⟨region, found, -, is⟩ := entry i
    obtain ⟨other, found', -, is'⟩ := entry j
    dsimp only
    rw [is, is']
    have apart : order.idxOf i ≠ order.idxOf j := fun same => differs ((List.idxOf_inj (complete i)).mp same)
    rcases Nat.lt_or_gt_of_ne apart with less | more
    · left
      exact pairwise_getElem? placed.ordered less found found'
    · right
      exact pairwise_getElem? placed.ordered more found' found

/-- The first region is at the start. -/
theorem Regions.create_first {i : ι} {order : List ι} {spec : ι → Option LayoutRegionSpec} {allocationAlignment : Nat}
    {R : Regions ι} (created : Regions.create (i :: order) spec allocationAlignment = some R) :
    (R.region i).offset = 0 := by
  simp only [Regions.create, Option.bind_eq_some_iff, Option.map_eq_some_iff, LayoutPlan.create] at created
  obtain ⟨specs, specified, plan, ⟨planned, placed, totalBytes, -, rfl⟩, rfl⟩ := created
  simp only [List.mapM_cons, Option.bind_eq_bind, Option.pure_def, Option.bind_eq_some_iff] at specified
  obtain ⟨first, -, rest, -, last⟩ := specified
  cases last
  rw [planRegions] at placed
  split at placed
  · cases placed
  · simp only [Option.bind_eq_some_iff, Option.map_eq_some_iff] at placed
    obtain ⟨aligned, rounded, stop, -, later, -, rfl⟩ := placed
    dsimp only
    rw [List.idxOf_cons_self]
    show aligned = 0
    unfold alignUp at rounded
    split at rounded
    · cases rounded
    · rename_i positive
      obtain ⟨value, summed, rfl⟩ := Option.map_eq_some_iff.mp rounded
      obtain ⟨rfl, -⟩ := checkedSum_one summed
      have less : 0 + (first.alignment - 1) < first.alignment := by omega
      rw [Nat.div_eq_of_lt less, Nat.zero_mul]

end Named

end CrossPool.Lib
