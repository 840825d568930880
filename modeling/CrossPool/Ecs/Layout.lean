import Mathlib.Algebra.Order.BigOperators.GroupWithZero.List
import Mathlib.Data.List.GetD
import CrossPool.Ecs.Vmm
import CrossPool.Lib.Loops
import CrossPool.Lib.Spans

/-!
# Layout of a backing

Pages of tokens lie in rows, rows in bundles of the mapping granularity, and neither
has to divide the other. A backing finds the bundles of a page and the pages of a bundle
by two separate conversions, on int64 tensors; as long as these do not wrap, a bundle
is retired exactly if all its pages are free.
-/

namespace CrossPool.Ecs.Vmm

open CrossPool.Lib

/-! ## Geometry -/

/-- `align_up` of a positive boundary. -/
def alignUp (value alignment : Nat) : Nat :=
  (value + alignment - 1) / alignment * alignment

/-- The fields of `KvVmmLayout`; a storage type is its item size. -/
structure KvVmmGeometry where
  itemsize : Nat
  shape : List Nat
  tokensPerRow : Nat
  tokenPageSize : Nat
  layerCount : Nat
  buffersPerLayer : Nat
  mappingGranularityBytes : Nat
deriving DecidableEq, Repr

namespace KvVmmGeometry

variable (l : KvVmmGeometry)

/-- `shape[0]`. -/
def rowCount : Nat :=
  l.shape.headD 0

def rowBytes : Nat :=
  l.shape.tail.prod * l.itemsize

def tokenCapacity : Nat :=
  l.rowCount * l.tokensPerRow - l.tokenPageSize

def bundleBytes : Nat :=
  l.mappingGranularityBytes * l.layerCount * l.buffersPerLayer

def bundleCapacity : Nat :=
  alignUp (l.rowCount * l.rowBytes) l.mappingGranularityBytes / l.mappingGranularityBytes

def floorRows : Nat :=
  (l.tokenPageSize + l.tokensPerRow - 1) / l.tokensPerRow

def floorBundles : Nat :=
  alignUp (l.floorRows * l.rowBytes) l.mappingGranularityBytes / l.mappingGranularityBytes

/-- What `__post_init__` checks, with the profile's own checks. -/
def accepts : Bool :=
  (l.shape ++
        [l.tokensPerRow, l.tokenPageSize, l.layerCount, l.buffersPerLayer, l.mappingGranularityBytes]).all (· < 2 ^ 64) &&
    !(l.shape.isEmpty || l.shape.any (· = 0)) &&
    [l.tokensPerRow, l.tokenPageSize, l.layerCount, l.buffersPerLayer, l.mappingGranularityBytes].all (· ≠ 0) &&
    decide (l.tokenPageSize ≤ l.tokenCapacity) &&
    [l.bundleBytes, l.bundleCapacity, l.floorBundles, l.bundleBytes * l.bundleCapacity].all (· < 2 ^ 64) &&
    l.bundleBytes ≠ 0 && decide (l.floorBundles ≤ l.bundleCapacity)

end KvVmmGeometry

/-- A geometry that the constructor accepts, of a type whose items take some room. -/
structure KvVmmLayout extends KvVmmGeometry where
  itemsize_pos : 0 < itemsize
  accepted : toKvVmmGeometry.accepts

namespace KvVmmLayout

variable (l : KvVmmLayout)

theorem tokensPerRow_pos : 0 < l.tokensPerRow := by
  have accepted := l.accepted
  simp only [KvVmmGeometry.accepts, Bool.and_eq_true, List.all_cons, decide_eq_true_eq] at accepted
  omega

theorem tokenPageSize_pos : 0 < l.tokenPageSize := by
  have accepted := l.accepted
  simp only [KvVmmGeometry.accepts, Bool.and_eq_true, List.all_cons, decide_eq_true_eq] at accepted
  omega

theorem mappingGranularityBytes_pos : 0 < l.mappingGranularityBytes := by
  have accepted := l.accepted
  simp only [KvVmmGeometry.accepts, Bool.and_eq_true, List.all_cons, decide_eq_true_eq] at accepted
  omega

theorem components_pos : 0 < l.layerCount * l.buffersPerLayer := by
  have accepted := l.accepted
  simp only [KvVmmGeometry.accepts, Bool.and_eq_true, List.all_cons, decide_eq_true_eq] at accepted
  exact Nat.mul_pos (by omega) (by omega)

theorem rowBytes_pos : 0 < l.rowBytes := by
  have accepted := l.accepted
  simp only [KvVmmGeometry.accepts, Bool.and_eq_true, Bool.not_eq_true', Bool.or_eq_false_iff, List.any_eq_false,
    decide_eq_true_eq] at accepted
  apply Nat.mul_pos
  · apply List.prod_pos
    intro dimension member
    exact Nat.pos_of_ne_zero (accepted.1.1.1.1.1.2.2 dimension (List.mem_of_mem_tail member))
  · exact l.itemsize_pos

theorem tokenPageSize_le : l.tokenPageSize ≤ l.tokenCapacity := by
  have accepted := l.accepted
  simp only [KvVmmGeometry.accepts, Bool.and_eq_true, decide_eq_true_eq] at accepted
  exact accepted.1.1.1.2

/-- The profile of a layout. -/
def profile : PoolProfile where
  bundleBytes := l.bundleBytes
  bundleCapacity := l.bundleCapacity
  floorBundles := l.floorBundles
  valid := by
    have accepted := l.accepted
    simp only [KvVmmGeometry.accepts, Bool.and_eq_true, List.all_cons, decide_eq_true_eq] at accepted
    exact ⟨accepted.1.2, accepted.2, by omega⟩

/-- The last token page. -/
def lastPage : Nat :=
  l.tokenCapacity / l.tokenPageSize

end KvVmmLayout

/-! ## Device conversions -/

/-- The value an int64 tensor element takes. -/
def int64 (value : Int) : Int :=
  value.bmod (2 ^ 64)

namespace KvVmmLayout

variable (l : KvVmmLayout)

/-- The host numbers that enter the arithmetic of `bundle_spans` are int64 as well. -/
def spanScalarsFit : Bool :=
  [l.tokenPageSize, l.tokensPerRow, l.rowBytes, l.mappingGranularityBytes].all (· < 2 ^ 63)

/-- Those of `empty_bundles`. -/
def scalarsFit : Bool :=
  l.spanScalarsFit && [l.rowCount, l.lastPage + 1].all (· < 2 ^ 63)

/-- `bundle_spans` of one page. Sums and products wrap as their result does. -/
def bundleSpan (pageId : Int) : Int × Int :=
  let firstRow := int64 (pageId * l.tokenPageSize) / l.tokensPerRow
  let pastRow := int64 ((pageId + 1) * l.tokenPageSize + l.tokensPerRow - 1) / l.tokensPerRow
  (int64 (firstRow * l.rowBytes) / l.mappingGranularityBytes,
    int64 (pastRow * l.rowBytes + l.mappingGranularityBytes - 1) / l.mappingGranularityBytes)

/-- `bundle_spans`; `none` where it raises. -/
def bundleSpans (pageIds : List Int) : Option (List (Int × Int)) :=
  if l.spanScalarsFit then some (pageIds.map l.bundleSpan) else none

/-- `Tensor.clamp`. -/
def clamp (value lower upper : Int) : Int :=
  min (max value lower) upper

/-- The pages of one bundle, as `empty_bundles` computes them. -/
def pageSpan (bundleId : Int) : Int × Int :=
  let firstRow := int64 (bundleId * l.mappingGranularityBytes) / l.rowBytes
  let pastRow :=
    min (int64 ((bundleId + 1) * l.mappingGranularityBytes + l.rowBytes - 1) / l.rowBytes) (l.rowCount : Int)
  (clamp (int64 (firstRow * l.tokensPerRow) / l.tokenPageSize) 1 (l.lastPage + 1 : Nat),
    clamp (int64 (pastRow * l.tokensPerRow + l.tokenPageSize - 1) / l.tokenPageSize) 1 (l.lastPage + 1 : Nat))

/-- `empty_bundles`, over the mapped bundle ids; `none` where it raises. -/
def emptyBundles (bundles : List Nat) (freePageIds : List Int) : Option (List Nat) := do
  let bundleIds := bundles.filter (l.floorBundles ≤ ·)
  let spans ← l.bundleSpans freePageIds
  let freeCounts ← coverage l.bundleCapacity (spans.map Prod.fst) (spans.map Prod.snd)
  if !l.scalarsFit || bundleIds.any (l.bundleCapacity ≤ ·) then none
  else some (bundleIds.filter fun id => freeCounts.getD id 0 = (l.pageSpan id).2 - (l.pageSpan id).1)

/-- An element of a tensor; a negative index counts from its end. -/
def element (xs : List Int) (index : Int) : Option Int :=
  if 0 ≤ index then xs[index.toNat]? else if -xs.length ≤ index then xs[(index + xs.length).toNat]? else none

/-- `missing_bundle_counts`, over the mapped bundle ids; `none` where it raises. -/
def missingBundleCounts (bundles : List Nat) (pageIds : List Int) : Option (List Int) := do
  if bundles.any (l.bundleCapacity ≤ ·) then none
  let missing := (List.range l.bundleCapacity).map fun id => if id ∈ bundles then (0 : Int) else 1
  let sums := 0 :: cumsum missing
  let spans ← l.bundleSpans pageIds
  spans.mapM fun span => do
    let past ← element sums span.2
    let first ← element sums span.1
    some (past - first)

/-! ## What pages and bundles share -/

/-- Page and row have a token in common. -/
def PageOfRow (page row : Nat) : Prop :=
  ∃ token, (page * l.tokenPageSize ≤ token ∧ token < (page + 1) * l.tokenPageSize) ∧
    row * l.tokensPerRow ≤ token ∧ token < (row + 1) * l.tokensPerRow

/-- Row and bundle have a byte in common; both hold all layers and buffers. -/
def RowInBundle (row bundle : Nat) : Prop :=
  ∃ byte, (row * (l.rowBytes * (l.layerCount * l.buffersPerLayer)) ≤ byte ∧
      byte < (row + 1) * (l.rowBytes * (l.layerCount * l.buffersPerLayer))) ∧
    bundle * l.bundleBytes ≤ byte ∧ byte < (bundle + 1) * l.bundleBytes

/-- Some row of the page shares a byte with the bundle. -/
def Touches (page bundle : Nat) : Prop :=
  ∃ row, l.PageOfRow page row ∧ l.RowInBundle row bundle

section Spans

variable {l} {page bundle : Nat}

theorem pageOfRow_iff {row : Nat} : l.PageOfRow page row ↔ Overlaps l.tokenPageSize page l.tokensPerRow row :=
  (overlaps_iff_point l.tokenPageSize_pos l.tokensPerRow_pos).symm

theorem rowInBundle_iff {row : Nat} :
    l.RowInBundle row bundle ↔ Overlaps l.rowBytes row l.mappingGranularityBytes bundle := by
  have wide := Nat.mul_pos l.rowBytes_pos l.components_pos
  have wide' := Nat.mul_pos l.mappingGranularityBytes_pos l.components_pos
  rw [← overlaps_scale l.components_pos, overlaps_iff_point wide wide', RowInBundle, KvVmmGeometry.bundleBytes,
    Nat.mul_assoc l.mappingGranularityBytes]

/-- The tokens of the pages in use. -/
theorem lastPage_tokens : (l.lastPage + 1) * l.tokenPageSize ≤ l.rowCount * l.tokensPerRow := by
  have whole := Nat.div_mul_le_self l.tokenCapacity l.tokenPageSize
  have usable := l.tokenPageSize_le
  have capacity : l.tokenCapacity = l.rowCount * l.tokensPerRow - l.tokenPageSize := rfl
  have positive := l.tokenPageSize_pos
  rw [lastPage, Nat.succ_mul]
  omega

theorem page_tokens (used : page ≤ l.lastPage) : (page + 1) * l.tokenPageSize ≤ (l.lastPage + 1) * l.tokenPageSize :=
  Nat.mul_le_mul_right _ (Nat.succ_le_succ used)

theorem bundleCapacity_eq : l.bundleCapacity = pastCell l.rowBytes l.mappingGranularityBytes l.rowCount := by
  rw [KvVmmGeometry.bundleCapacity, alignUp, Nat.mul_div_cancel _ l.mappingGranularityBytes_pos, pastCell]

theorem floorBundles_eq :
    l.floorBundles = pastCell l.rowBytes l.mappingGranularityBytes (pastCell l.tokenPageSize l.tokensPerRow 1) := by
  rw [KvVmmGeometry.floorBundles, alignUp, Nat.mul_div_cancel _ l.mappingGranularityBytes_pos, pastCell, pastCell,
    KvVmmGeometry.floorRows, Nat.one_mul]

/-- The interval of bundles of the rows of a page. -/
def bundlesOf (l : KvVmmLayout) (page : Nat) : Nat × Nat :=
  (firstCell l.rowBytes l.mappingGranularityBytes (firstCell l.tokenPageSize l.tokensPerRow page),
    pastCell l.rowBytes l.mappingGranularityBytes (pastCell l.tokenPageSize l.tokensPerRow (page + 1)))

theorem bundlesOf_ordered (l : KvVmmLayout) (page : Nat) : (l.bundlesOf page).1 < (l.bundlesOf page).2 := by
  apply firstCell_lt_pastCell l.rowBytes_pos l.mappingGranularityBytes_pos
  exact firstCell_lt_pastCell l.tokenPageSize_pos l.tokensPerRow_pos (Nat.lt_succ_self page)

theorem touches_iff : l.Touches page bundle ↔ (l.bundlesOf page).1 ≤ bundle ∧ bundle < (l.bundlesOf page).2 := by
  rw [bundlesOf, mem_cells_iff l.rowBytes_pos l.mappingGranularityBytes_pos
    (firstCell_lt_pastCell l.tokenPageSize_pos l.tokensPerRow_pos (Nat.lt_succ_self page)), Touches]
  apply exists_congr
  intro row
  rw [pageOfRow_iff, rowInBundle_iff, mem_cell_iff l.tokensPerRow_pos]

theorem firstRow_lt (inside : bundle < l.bundleCapacity) :
    firstCell l.mappingGranularityBytes l.rowBytes bundle <
      min (pastCell l.mappingGranularityBytes l.rowBytes (bundle + 1)) l.rowCount := by
  rw [lt_min_iff]
  refine ⟨firstCell_lt_pastCell l.mappingGranularityBytes_pos l.rowBytes_pos (Nat.lt_succ_self bundle), ?_⟩
  rw [bundleCapacity_eq, lt_pastCell l.mappingGranularityBytes_pos] at inside
  rw [firstCell, Nat.div_lt_iff_lt_mul l.rowBytes_pos]
  exact inside

/-- The rows of a bundle and the pages of these rows. -/
theorem touches_iff' (used : page ≤ l.lastPage) (inside : bundle < l.bundleCapacity) :
    l.Touches page bundle ↔
      firstCell l.tokensPerRow l.tokenPageSize (firstCell l.mappingGranularityBytes l.rowBytes bundle) ≤ page ∧
        page <
          pastCell l.tokensPerRow l.tokenPageSize
            (min (pastCell l.mappingGranularityBytes l.rowBytes (bundle + 1)) l.rowCount) := by
  rw [mem_cells_iff l.tokensPerRow_pos l.tokenPageSize_pos (firstRow_lt inside), Touches]
  apply exists_congr
  intro row
  rw [pageOfRow_iff, rowInBundle_iff, lt_min_iff, ← and_assoc (a := _ ≤ row),
    mem_cell_iff l.rowBytes_pos, overlaps_comm (u := l.tokenPageSize), overlaps_comm (u := l.rowBytes)]
  constructor
  · rintro ⟨page', bundle'⟩
    refine ⟨⟨bundle', ?_⟩, page'⟩
    have upper := page_tokens used
    have total := lastPage_tokens (l := l)
    exact Nat.lt_of_mul_lt_mul_right (page'.1.trans_le (upper.trans total))
  · rintro ⟨⟨bundle', -⟩, page'⟩
    exact ⟨page', bundle'⟩

/-- The interval of pages in use of the rows of a bundle. -/
def pagesOf (l : KvVmmLayout) (bundle : Nat) : Nat × Nat :=
  (min (max (firstCell l.tokensPerRow l.tokenPageSize (firstCell l.mappingGranularityBytes l.rowBytes bundle)) 1)
      (l.lastPage + 1),
    min
      (max
        (pastCell l.tokensPerRow l.tokenPageSize
          (min (pastCell l.mappingGranularityBytes l.rowBytes (bundle + 1)) l.rowCount))
        1)
      (l.lastPage + 1))

theorem pagesOf_ordered (inside : bundle < l.bundleCapacity) : (l.pagesOf bundle).1 ≤ (l.pagesOf bundle).2 := by
  have order := firstCell_lt_pastCell l.tokensPerRow_pos l.tokenPageSize_pos (firstRow_lt inside)
  exact min_le_min_right _ (max_le_max_right _ order.le)

theorem mem_pagesOf (positive : 1 ≤ page) (used : page ≤ l.lastPage) (inside : bundle < l.bundleCapacity) :
    l.Touches page bundle ↔ (l.pagesOf bundle).1 ≤ page ∧ page < (l.pagesOf bundle).2 := by
  rw [touches_iff' used inside, pagesOf]
  omega

theorem pageSpan_fst_bounds (l : KvVmmLayout) (bundle : Nat) :
    1 ≤ (l.pageSpan bundle).1 ∧ (l.pageSpan bundle).1 ≤ (l.lastPage + 1 : Nat) := by
  simp only [pageSpan, clamp]
  omega

theorem pageSpan_snd_bounds (l : KvVmmLayout) (bundle : Nat) :
    1 ≤ (l.pageSpan bundle).2 ∧ (l.pageSpan bundle).2 ≤ (l.lastPage + 1 : Nat) := by
  simp only [pageSpan, clamp]
  omega

instance (page bundle : Nat) : Decidable (l.Touches page bundle) :=
  decidable_of_iff _ touches_iff.symm

/-- The dummy page lies in the pinned bundles. -/
theorem floor_of_touches (touched : l.Touches 0 bundle) : bundle < l.floorBundles := by
  rw [floorBundles_eq]
  exact (touches_iff.mp touched).2

/-- All bundles of the pages in use are within the reservation. -/
theorem bundlesOf_le_capacity (used : page ≤ l.lastPage) : (l.bundlesOf page).2 ≤ l.bundleCapacity := by
  rw [bundleCapacity_eq]
  apply pastCell_mono
  rw [pastCell_le l.tokensPerRow_pos]
  exact (page_tokens used).trans lastPage_tokens

end Spans

/-! ## Without wrapping -/

/-- The interval of `bundle_spans` is what it is without wrapping. -/
def PageConverts (page : Nat) : Prop :=
  l.bundleSpan page = (((l.bundlesOf page).1 : Int), ((l.bundlesOf page).2 : Int))

/-- The interval of `empty_bundles` is what it is without wrapping, or as empty. -/
def BundleConverts (bundle : Nat) : Prop :=
  l.pageSpan bundle = (((l.pagesOf bundle).1 : Int), ((l.pagesOf bundle).2 : Int)) ∨
    (l.pagesOf bundle).1 = (l.pagesOf bundle).2 ∧ (l.pageSpan bundle).1 = (l.pageSpan bundle).2

/-- Nothing wraps between a page and its bundles. -/
structure PageFits (page : Nat) : Prop where
  tokens : (page + 1) * l.tokenPageSize + l.tokensPerRow ≤ 2 ^ 63
  bytes : pastCell l.tokenPageSize l.tokensPerRow (page + 1) * l.rowBytes + l.mappingGranularityBytes ≤ 2 ^ 63

/-- Nothing wraps between a bundle and its pages. -/
structure BundleFits (bundle : Nat) : Prop where
  bytes : (bundle + 1) * l.mappingGranularityBytes + l.rowBytes ≤ 2 ^ 63
  tokens :
    min (pastCell l.mappingGranularityBytes l.rowBytes (bundle + 1)) l.rowCount * l.tokensPerRow + l.tokenPageSize ≤
      2 ^ 63

/-- Nothing wraps on any page or bundle. -/
structure Fits : Prop where
  pageTokens : (l.lastPage + 1) * l.tokenPageSize + l.tokensPerRow ≤ 2 ^ 63
  pageBytes : pastCell l.tokenPageSize l.tokensPerRow (l.lastPage + 1) * l.rowBytes + l.mappingGranularityBytes ≤ 2 ^ 63
  bundleBytes : l.bundleCapacity * l.mappingGranularityBytes + l.rowBytes ≤ 2 ^ 63
  bundleTokens : l.rowCount * l.tokensPerRow + l.tokenPageSize ≤ 2 ^ 63

/-- What `bundle_spans` needs of some pages. -/
structure Converts (pages : List Nat) : Prop where
  scalars : l.spanScalarsFit
  pages : ∀ page ∈ pages, l.PageConverts page

/-- What a call of `empty_bundles` converts is converted as without wrapping. -/
structure Unwrapped (bundles free : List Nat) : Prop where
  scalars : l.scalarsFit
  pages : ∀ page ∈ free, l.PageConverts page
  bundles : ∀ id ∈ bundles, l.floorBundles ≤ id → l.BundleConverts id

section Fits

variable {l} {page bundle : Nat}

theorem int64_of_lt {value : Nat} (small : value < 2 ^ 63) : int64 value = value := by
  rw [int64, Int.bmod_eq_of_le]
  · omega
  · omega

/-- A quotient of a product rounded down, in int64. -/
theorem int64_firstCell {u v x : Nat} (small : x * u < 2 ^ 63) : int64 ((x : Int) * u) / v = firstCell u v x := by
  have wraps := int64_of_lt small
  push_cast at wraps
  rw [wraps, firstCell]
  push_cast
  rfl

/-- A quotient of a product rounded up, in int64. -/
theorem int64_pastCell {u v x : Nat} (wide : 0 < v) (small : x * u + v ≤ 2 ^ 63) :
    int64 ((x : Int) * u + v - 1) / v = pastCell u v x := by
  have cast : ((x * u + v - 1 : Nat) : Int) = (x : Int) * u + v - 1 := by
    rw [Int.ofNat_sub (by omega)]
    push_cast
    rfl
  have small' : x * u + v - 1 < 2 ^ 63 := by omega
  have wraps := int64_of_lt small'
  rw [cast] at wraps
  rw [wraps, pastCell, ← cast]
  rfl

theorem PageFits.converts (fits : l.PageFits page) : l.PageConverts page := by
  have tokens := fits.tokens
  have bytes := fits.bytes
  have before : firstCell l.tokenPageSize l.tokensPerRow page ≤ pastCell l.tokenPageSize l.tokensPerRow (page + 1) :=
    (firstCell_lt_pastCell l.tokenPageSize_pos l.tokensPerRow_pos (Nat.lt_succ_self page)).le
  have bytes' := Nat.mul_le_mul_right l.rowBytes before
  have granularity := l.mappingGranularityBytes_pos
  have positive := l.tokensPerRow_pos
  have next : ((page : Int) + 1) = ((page + 1 : Nat) : Int) := by push_cast; rfl
  rw [Nat.succ_mul] at tokens
  simp only [PageConverts, bundleSpan, bundlesOf]
  rw [int64_firstCell (by omega), next, int64_pastCell l.tokensPerRow_pos (by rw [Nat.succ_mul]; omega),
    int64_firstCell (by omega), int64_pastCell l.mappingGranularityBytes_pos (by omega)]

theorem clamp_natCast (value : Nat) :
    clamp value 1 (l.lastPage + 1 : Nat) = ((min (max value 1) (l.lastPage + 1) : Nat) : Int) := by
  rw [clamp]
  omega

theorem BundleFits.converts (fits : l.BundleFits bundle) (inside : bundle < l.bundleCapacity) : l.BundleConverts bundle := by
  have bytes := fits.bytes
  have tokens := fits.tokens
  have granularity := l.mappingGranularityBytes_pos
  have positive := l.rowBytes_pos
  have positive' := l.tokenPageSize_pos
  have tokens' := Nat.mul_le_mul_right l.tokensPerRow (firstRow_lt inside).le
  have next : ((bundle : Int) + 1) = ((bundle + 1 : Nat) : Int) := by push_cast; rfl
  have cast : min (pastCell l.mappingGranularityBytes l.rowBytes (bundle + 1) : Int) (l.rowCount : Int) =
      ((min (pastCell l.mappingGranularityBytes l.rowBytes (bundle + 1)) l.rowCount : Nat) : Int) := by
    omega
  rw [Nat.succ_mul] at bytes
  left
  simp only [pageSpan, pagesOf]
  rw [int64_firstCell (by omega), next, int64_pastCell positive (by rw [Nat.succ_mul]; omega), cast,
    int64_firstCell (by omega), int64_pastCell positive' (by omega), clamp_natCast, clamp_natCast]

theorem Fits.pageFits (fits : l.Fits) (used : page ≤ l.lastPage) : l.PageFits page := by
  have tokens := page_tokens used
  have pageTokens := fits.pageTokens
  have pageBytes := fits.pageBytes
  have rows : pastCell l.tokenPageSize l.tokensPerRow (page + 1) ≤ pastCell l.tokenPageSize l.tokensPerRow (l.lastPage + 1) :=
    pastCell_mono (Nat.succ_le_succ used)
  have bytes := Nat.mul_le_mul_right l.rowBytes rows
  exact ⟨by omega, by omega⟩

theorem Fits.bundleFits (fits : l.Fits) (inside : bundle < l.bundleCapacity) : l.BundleFits bundle := by
  have bytes : (bundle + 1) * l.mappingGranularityBytes ≤ l.bundleCapacity * l.mappingGranularityBytes :=
    Nat.mul_le_mul_right _ inside
  have rows := Nat.mul_le_mul_right l.tokensPerRow
    (min_le_right (pastCell l.mappingGranularityBytes l.rowBytes (bundle + 1)) l.rowCount)
  have bundleBytes := fits.bundleBytes
  have bundleTokens := fits.bundleTokens
  exact ⟨by omega, by omega⟩

theorem Fits.scalars (fits : l.Fits) : l.scalarsFit := by
  have pageTokens := fits.pageTokens
  have pageBytes := fits.pageBytes
  have bundleBytes := fits.bundleBytes
  have bundleTokens := fits.bundleTokens
  have positive := l.tokenPageSize_pos
  have positive' := l.tokensPerRow_pos
  have positive'' := l.rowBytes_pos
  have granularity := l.mappingGranularityBytes_pos
  have pages := Nat.le_mul_of_pos_right (l.lastPage + 1) positive
  have rows := Nat.le_mul_of_pos_right l.rowCount positive'
  have page := Nat.le_mul_of_pos_left l.tokenPageSize (by omega : 0 < l.lastPage + 1)
  simp only [scalarsFit, spanScalarsFit, List.all_cons, List.all_nil, Bool.and_eq_true, decide_eq_true_eq, and_true]
  have reserved : 0 < l.bundleCapacity * l.mappingGranularityBytes := by
    apply Nat.mul_pos
    · rw [bundleCapacity_eq, lt_pastCell granularity, Nat.zero_mul]
      apply Nat.mul_pos _ positive''
      by_contra none
      have total := lastPage_tokens (l := l)
      rw [Nat.eq_zero_of_not_pos none, Nat.zero_mul] at total
      have := Nat.mul_pos (Nat.succ_pos l.lastPage) positive
      omega
    · exact granularity
  have covered : 0 < pastCell l.tokenPageSize l.tokensPerRow (l.lastPage + 1) * l.rowBytes := by
    apply Nat.mul_pos _ positive''
    rw [lt_pastCell positive', Nat.zero_mul]
    exact Nat.mul_pos (Nat.succ_pos _) positive
  omega

theorem spanScalarsFit_of_scalarsFit (scalars : l.scalarsFit) : l.spanScalarsFit := by
  rw [scalarsFit, Bool.and_eq_true] at scalars
  exact scalars.1

theorem Fits.converts (fits : l.Fits) {pages : List Nat} (used : ∀ page ∈ pages, page ≤ l.lastPage) : l.Converts pages :=
  ⟨spanScalarsFit_of_scalarsFit fits.scalars, fun page member => (fits.pageFits (used page member)).converts⟩

theorem Fits.unwrapped (fits : l.Fits) {bundles free : List Nat} (mapped : ∀ id ∈ bundles, id < l.bundleCapacity)
    (used : ∀ page ∈ free, page ≤ l.lastPage) : l.Unwrapped bundles free :=
  ⟨fits.scalars, (fits.converts used).pages, fun id member _ =>
    (fits.bundleFits (mapped id member)).converts (mapped id member)⟩

theorem Converts.mono {few many : List Nat} (converts : l.Converts many) (fewer : few ⊆ many) : l.Converts few :=
  ⟨converts.scalars, fun page member => converts.pages page (fewer member)⟩

/-- The interval of `bundle_spans` is that of the bundles touched. -/
theorem PageConverts.exact (converts : l.PageConverts page) (used : page ≤ l.lastPage) :
    ∃ first past : Nat, l.bundleSpan page = ((first : Int), (past : Int)) ∧ first ≤ past ∧ past ≤ l.bundleCapacity ∧
      ∀ bundle, l.Touches page bundle ↔ first ≤ bundle ∧ bundle < past := by
  exact ⟨_, _, converts, (l.bundlesOf_ordered page).le, bundlesOf_le_capacity used, fun _ => touches_iff⟩

/-- The interval of `empty_bundles` is that of the pages in use that touch the bundle. -/
theorem BundleConverts.exact (converts : l.BundleConverts bundle) (inside : bundle < l.bundleCapacity) :
    ∃ first past : Nat, l.pageSpan bundle = ((first : Int), (past : Int)) ∧ 1 ≤ first ∧ first ≤ past ∧ past ≤ l.lastPage + 1 ∧
      ∀ page, 1 ≤ page → page ≤ l.lastPage → (l.Touches page bundle ↔ first ≤ page ∧ page < past) := by
  rcases converts with same | ⟨none, none'⟩
  · refine ⟨_, _, same, le_min (le_max_right _ _) (by omega), pagesOf_ordered inside, min_le_right _ _, ?_⟩
    intro page positive used
    exact mem_pagesOf positive used inside
  · obtain ⟨lower, upper⟩ := l.pageSpan_fst_bounds bundle
    refine ⟨(l.pageSpan bundle).1.toNat, (l.pageSpan bundle).1.toNat, ?_, by omega, le_refl _, by omega, ?_⟩
    · rw [Int.toNat_of_nonneg (by omega)]
      exact Prod.ext rfl none'.symm
    · intro page positive used
      rw [mem_pagesOf positive used inside]
      omega

/-- The intervals of several pages, as tensors of their ends. -/
def spansOf (l : KvVmmLayout) (pages : List Nat) : List (Int × Int) :=
  (pages.map l.bundlesOf).map fun span => ((span.1 : Int), (span.2 : Int))

theorem bundleSpans_eq_some {pages : List Nat} (converts : l.Converts pages) :
    l.bundleSpans (pages.map Int.ofNat) = some (l.spansOf pages) := by
  rw [bundleSpans, if_pos converts.scalars, Option.some.injEq, spansOf, List.map_map, List.map_map]
  apply List.map_congr_left
  intro page member
  exact converts.pages page member

/-- The intervals of several pages, counted. -/
theorem coverage_spansOf {pages : List Nat} (used : ∀ page ∈ pages, page ≤ l.lastPage) :
    coverage l.bundleCapacity ((l.spansOf pages).map Prod.fst) ((l.spansOf pages).map Prod.snd) =
      some ((List.range l.bundleCapacity).map fun bundle => (pages.countP fun page => l.Touches page bundle : Int)) := by
  have starts : (l.spansOf pages).map Prod.fst = (pages.map l.bundlesOf).map fun span => (span.1 : Int) := List.map_map
  have ends : (l.spansOf pages).map Prod.snd = (pages.map l.bundlesOf).map fun span => (span.2 : Int) := List.map_map
  rw [starts, ends]
  refine (coverage_eq_some (pages.map l.bundlesOf) ?_).trans ?_
  · intro span member
    obtain ⟨page, listed, rfl⟩ := List.mem_map.mp member
    exact ⟨(l.bundlesOf_ordered page).le, bundlesOf_le_capacity (used page listed)⟩
  · congr 1
    apply List.map_congr_left
    intro bundle _
    rw [List.countP_map]
    congr 1
    apply List.countP_congr
    intro page _
    simp only [Function.comp, decide_eq_true_eq]
    exact touches_iff.symm

/-- How many bundles of a page are not among those mapped. -/
def missingCount (l : KvVmmLayout) (bundles : List Nat) (page : Nat) : Nat :=
  (List.range' (l.bundlesOf page).1 ((l.bundlesOf page).2 - (l.bundlesOf page).1)).countP (· ∉ bundles)

theorem missingCount_eq_zero {bundles : List Nat} :
    l.missingCount bundles page = 0 ↔ ∀ bundle, l.Touches page bundle → bundle ∈ bundles := by
  have ordered := l.bundlesOf_ordered page
  rw [missingCount, List.countP_eq_zero]
  apply forall_congr'
  intro bundle
  rw [List.mem_range'_1, touches_iff, decide_eq_true_eq, not_not]
  have ends : (l.bundlesOf page).1 + ((l.bundlesOf page).2 - (l.bundlesOf page).1) = (l.bundlesOf page).2 := by omega
  rw [ends]

theorem missingBundleCounts_eq_some {bundles pages : List Nat} (converts : l.Converts pages)
    (mapped : ∀ id ∈ bundles, id < l.bundleCapacity) (used : ∀ page ∈ pages, page ≤ l.lastPage) :
    l.missingBundleCounts bundles (pages.map Int.ofNat) = some (pages.map fun page => (l.missingCount bundles page : Int)) := by
  have within : bundles.any (l.bundleCapacity ≤ ·) = false := by
    rw [List.any_eq_false]
    intro id member
    have := mapped id member
    simp only [decide_eq_true_eq]
    omega
  rw [missingBundleCounts, within, bundleSpans, if_pos converts.scalars]
  have values : ∀ page ∈ pages,
      ((element (0 :: cumsum ((List.range l.bundleCapacity).map fun id => if id ∈ bundles then (0 : Int) else 1))
            (l.bundleSpan page).2).bind fun past =>
          (element (0 :: cumsum ((List.range l.bundleCapacity).map fun id => if id ∈ bundles then (0 : Int) else 1))
              (l.bundleSpan page).1).bind fun first => some (past - first)) =
        some (l.missingCount bundles page : Int) := by
    intro page member
    have ordered := (l.bundlesOf_ordered page).le
    have upper := bundlesOf_le_capacity (used page member)
    have flags : ((List.range l.bundleCapacity).map fun id => if id ∈ bundles then (0 : Int) else 1) =
        (List.range l.bundleCapacity).map fun id => if (decide (id ∉ bundles)) then (1 : Int) else 0 := by
      apply List.map_congr_left
      intro id _
      by_cases present : id ∈ bundles
      · simp [present]
      · simp [present]
    have sums (bound : Nat) (inside : bound ≤ l.bundleCapacity) :
        element (0 :: cumsum ((List.range l.bundleCapacity).map fun id => if id ∈ bundles then (0 : Int) else 1)) bound =
          some ((((List.range l.bundleCapacity).map fun id => if id ∈ bundles then (0 : Int) else 1).take bound).sum) := by
      rw [element, if_pos (by omega), Int.toNat_natCast]
      apply getElem?_zero_cumsum
      rw [List.length_map, List.length_range]
      exact inside
    have converted := converts.pages page member
    rw [PageConverts] at converted
    rw [converted, sums _ upper, Option.bind_some, sums _ (ordered.trans upper), Option.bind_some,
      flags, take_sum_sub ordered upper]
    rfl
  change List.mapM _ _ = _
  rw [List.mapM_map, List.mapM_map]
  exact mapM_some values

/-- A bundle touched by no page in use but some. -/
def OnlyTouchedBy (l : KvVmmLayout) (pages : List Nat) (bundle : Nat) : Prop :=
  ∀ page, 1 ≤ page → page ≤ l.lastPage → page ∉ pages → ¬l.Touches page bundle

section Retirement

variable {bundles free : List Nat}

/-- `empty_bundles` compares how many free pages touch a bundle with the length of an interval. -/
theorem emptyBundles_eq (scalars : l.scalarsFit) (pages : ∀ page ∈ free, l.PageConverts page)
    (mapped : ∀ id ∈ bundles, id < l.bundleCapacity) (used : ∀ page ∈ free, page ≤ l.lastPage) :
    l.emptyBundles bundles (free.map Int.ofNat) =
      some ((bundles.filter (l.floorBundles ≤ ·)).filter fun id =>
        ((free.countP fun page => l.Touches page id : Nat) : Int) = (l.pageSpan id).2 - (l.pageSpan id).1) := by
  have spanned := bundleSpans_eq_some ⟨spanScalarsFit_of_scalarsFit scalars, pages⟩
  have counted := coverage_spansOf used
  have within : (!l.scalarsFit || (bundles.filter (l.floorBundles ≤ ·)).any (l.bundleCapacity ≤ ·)) = false := by
    rw [scalars, Bool.not_true, Bool.false_or, List.any_eq_false]
    intro id member
    have := mapped id (List.mem_filter.mp member).1
    simp only [decide_eq_true_eq]
    omega
  rw [emptyBundles, spanned]
  change (coverage _ _ _).bind _ = _
  rw [counted]
  change (if _ then _ else _) = _
  rw [within]
  change some _ = some _
  congr 1
  apply List.filter_congr
  intro id member
  have inside := mapped id (List.mem_filter.mp member).1
  rw [List.getD_eq_getElem _ _ (by simpa using inside), List.getElem_map, List.getElem_range]

/-- The bundles that `empty_bundles` returns. -/
theorem emptyBundles_eq_some (unwrapped : l.Unwrapped bundles free) (mapped : ∀ id ∈ bundles, id < l.bundleCapacity)
    (distinct : free.Nodup) (used : ∀ page ∈ free, 1 ≤ page ∧ page ≤ l.lastPage) :
    ∃ found, l.emptyBundles bundles (free.map Int.ofNat) = some found ∧ found.Sublist bundles ∧
      ∀ id, id ∈ found ↔ id ∈ bundles ∧ l.floorBundles ≤ id ∧ l.OnlyTouchedBy free id := by
  refine ⟨_, emptyBundles_eq unwrapped.scalars unwrapped.pages mapped fun page member => (used page member).2,
    List.filter_sublist.trans List.filter_sublist, ?_⟩
  intro id
  rw [List.mem_filter, List.mem_filter, decide_eq_true_eq, decide_eq_true_eq, and_assoc]
  apply and_congr_right
  intro member
  apply and_congr_right
  intro unpinned
  obtain ⟨first, past, span, lower, ordered, upper, touches⟩ :=
    (unwrapped.bundles id member unpinned).exact (mapped id member)
  have count : free.countP (fun page => l.Touches page id) = free.countP fun page => first ≤ page ∧ page < past := by
    apply List.countP_congr
    intro page member
    simp only [decide_eq_true_eq]
    exact touches page (used page member).1 (used page member).2
  rw [count, span]
  have whole := @countP_interval_iff free distinct first past
  constructor
  · intro same page positive last withheld touched
    have all := whole.mp (by dsimp only at same; omega)
    obtain ⟨lower', upper'⟩ := (touches page positive last).mp touched
    exact withheld (all page lower' upper')
  · intro only
    have all := whole.mpr ?_
    · dsimp only
      omega
    · intro page lower' upper'
      by_contra withheld
      exact only page (by omega) (by omega) withheld ((touches page (by omega) (by omega)).mpr ⟨lower', upper'⟩)

/-- What one call of `empty_bundles` gets right: the bundles it returns, and each
interval on the way to them. -/
structure Retires (l : KvVmmLayout) (bundles free : List Nat) : Prop where
  empty : ∃ found, l.emptyBundles bundles (free.map Int.ofNat) = some found ∧ found.Sublist bundles ∧
    ∀ id, id ∈ found ↔ id ∈ bundles ∧ l.floorBundles ≤ id ∧ l.OnlyTouchedBy free id
  spans : ∀ page ∈ free, ∃ first past : Nat, l.bundleSpan page = ((first : Int), (past : Int)) ∧ first ≤ past ∧
    past ≤ l.bundleCapacity ∧ ∀ bundle, l.Touches page bundle ↔ first ≤ bundle ∧ bundle < past
  pages : ∀ id ∈ bundles, l.floorBundles ≤ id → ∀ page, 1 ≤ page → page ≤ l.lastPage →
    (l.Touches page id ↔ (l.pageSpan id).1 ≤ page ∧ (page : Int) < (l.pageSpan id).2)

/-- An interval of pages that is right on all pages in use is the one without wrapping, where
that is not empty. -/
theorem pageSpan_of_pages (inside : bundle < l.bundleCapacity) (some' : (l.pagesOf bundle).1 < (l.pagesOf bundle).2)
    (right : ∀ page, 1 ≤ page → page ≤ l.lastPage →
      (l.Touches page bundle ↔ (l.pageSpan bundle).1 ≤ page ∧ (page : Int) < (l.pageSpan bundle).2)) :
    l.pageSpan bundle = (((l.pagesOf bundle).1 : Int), ((l.pagesOf bundle).2 : Int)) := by
  obtain ⟨lower, upper⟩ := l.pageSpan_fst_bounds bundle
  obtain ⟨lower', upper'⟩ := l.pageSpan_snd_bounds bundle
  have first : 1 ≤ (l.pagesOf bundle).1 := le_min (le_max_right _ _) (by omega)
  have last : (l.pagesOf bundle).2 ≤ l.lastPage + 1 := min_le_right _ _
  have meets (page : Nat) (positive : 1 ≤ page) (used : page ≤ l.lastPage) :
      (l.pagesOf bundle).1 ≤ page ∧ page < (l.pagesOf bundle).2 ↔
        (l.pageSpan bundle).1 ≤ page ∧ (page : Int) < (l.pageSpan bundle).2 :=
    (mem_pagesOf positive used inside).symm.trans (right page positive used)
  have start := (meets (l.pagesOf bundle).1 first (by omega)).mp ⟨le_refl _, some'⟩
  have stop := (meets ((l.pagesOf bundle).2 - 1) (by omega) (by omega)).mp ⟨by omega, by omega⟩
  apply Prod.ext
  · by_contra differs
    have before := (meets (l.pageSpan bundle).1.toNat (by omega) (by omega)).mpr ⟨by omega, by omega⟩
    omega
  · by_contra differs
    have after := (meets (l.pagesOf bundle).2 (by omega) (by omega)).mpr ⟨by omega, by omega⟩
    omega

/-- A call is right just where what it converts is converted as without wrapping. -/
theorem retires_iff (mapped : ∀ id ∈ bundles, id < l.bundleCapacity) (distinct : free.Nodup)
    (used : ∀ page ∈ free, 1 ≤ page ∧ page ≤ l.lastPage) : l.Retires bundles free ↔ l.Unwrapped bundles free := by
  constructor
  · intro retires
    obtain ⟨found, ran, -, members⟩ := retires.empty
    have scalars : l.scalarsFit := by
      by_contra large
      rw [Bool.not_eq_true] at large
      simp [emptyBundles, large] at ran
    have pages : ∀ page ∈ free, l.PageConverts page := by
      intro page member
      obtain ⟨first, past, span, -, -, touches⟩ := retires.spans page member
      have ordered := l.bundlesOf_ordered page
      have same : Set.Ico (l.bundlesOf page).1 (l.bundlesOf page).2 = Set.Ico first past :=
        Set.ext fun bundle => touches_iff.symm.trans (touches bundle)
      obtain ⟨rfl, rfl⟩ := (Set.Ico_eq_Ico_iff (.inl ordered)).mp same
      exact span
    refine ⟨scalars, pages, ?_⟩
    intro id member unpinned
    have inside := mapped id member
    rcases (pagesOf_ordered inside).lt_or_eq with some' | none
    · exact .inl (pageSpan_of_pages inside some' (retires.pages id member unpinned))
    · refine .inr ⟨none, ?_⟩
      have untouched (page : Nat) (positive : 1 ≤ page) (last : page ≤ l.lastPage) : ¬l.Touches page id := by
        rw [mem_pagesOf positive last inside]
        omega
      have empty := (members id).mpr ⟨member, unpinned, fun page positive last _ => untouched page positive last⟩
      rw [emptyBundles_eq scalars pages mapped fun page member => (used page member).2, Option.some.injEq] at ran
      rw [← ran, List.mem_filter, decide_eq_true_eq, List.countP_eq_zero.mpr] at empty
      · omega
      · intro page listed touched
        exact untouched page (used page listed).1 (used page listed).2 (of_decide_eq_true touched)
  · intro unwrapped
    refine ⟨emptyBundles_eq_some unwrapped mapped distinct used, ?_, ?_⟩
    · intro page member
      exact (unwrapped.pages page member).exact (used page member).2
    · intro id member unpinned page positive last
      obtain ⟨first, past, span, -, -, -, touches⟩ := (unwrapped.bundles id member unpinned).exact (mapped id member)
      rw [touches page positive last, span]
      dsimp only
      omega

/-- A call returns the empty bundles, on the right intervals, just where nothing that it
converts comes out changed by wrapping; on numbers of 63 bits nothing does. The two
conversions agree, and the dummy page is pinned. -/
theorem retirable_exact :
    (∀ bundles free : List Nat, (∀ id ∈ bundles, id < l.bundleCapacity) → free.Nodup →
      (∀ page ∈ free, 1 ≤ page ∧ page ≤ l.lastPage) →
        (l.Retires bundles free ↔ l.Unwrapped bundles free) ∧
          (l.scalarsFit → (∀ page ∈ free, l.PageFits page) → (∀ id ∈ bundles, l.floorBundles ≤ id → l.BundleFits id) →
            l.Unwrapped bundles free)) ∧
      (∀ page bundle : Nat, 1 ≤ page → page ≤ l.lastPage → bundle < l.bundleCapacity → l.PageConverts page →
        l.BundleConverts bundle →
          ((l.bundleSpan page).1 ≤ bundle ∧ (bundle : Int) < (l.bundleSpan page).2 ↔
            (l.pageSpan bundle).1 ≤ page ∧ (page : Int) < (l.pageSpan bundle).2)) ∧
      ∀ bundle, l.Touches 0 bundle → bundle < l.floorBundles := by
  refine ⟨?_, ?_, ?_⟩
  · intro bundles free mapped distinct used
    refine ⟨retires_iff mapped distinct used, ?_⟩
    intro scalars pages unpinned
    refine ⟨scalars, fun page member => (pages page member).converts, ?_⟩
    intro id member above
    exact (unpinned id member above).converts (mapped id member)
  · intro page bundle positive used inside page' bundle'
    obtain ⟨first, past, span, -, -, touches⟩ := page'.exact used
    obtain ⟨first', past', span', -, -, -, touches'⟩ := bundle'.exact inside
    rw [span, span']
    have meets := (touches bundle).symm.trans (touches' page positive used)
    dsimp only
    omega
  · intro bundle touched
    exact floor_of_touches touched

end Retirement

end Fits

/-! ## Rows of many tokens -/

/-- Pages of `2 ^ 62` tokens, one to a row, and rows of one mapping granule. -/
def manyTokens : KvVmmLayout where
  itemsize := 1
  shape := [4, 2 ^ 21]
  tokensPerRow := 2 ^ 62
  tokenPageSize := 2 ^ 62
  layerCount := 1
  buffersPerLayer := 1
  mappingGranularityBytes := 2 ^ 21
  itemsize_pos := by decide
  accepted := by decide

/-- All bundles are mapped and the first page is free: it is all of the second bundle, but
its end wraps below zero and the count by ends fails. -/
theorem manyTokens_wraps :
    manyTokens.lastPage = 3 ∧ manyTokens.bundleCapacity = 4 ∧ manyTokens.floorBundles = 1 ∧
      (∀ page, 1 ≤ page → page ≤ 3 → page ∉ [1] → ¬manyTokens.Touches page 1) ∧ manyTokens.bundleSpan 1 = (1, -2) ∧
        manyTokens.emptyBundles [0, 1, 2, 3] [1] = none := by
  refine ⟨by decide, by decide, by decide, ?_, by decide, by decide⟩
  intro page positive used other
  have later : page = 2 ∨ page = 3 := by
    have := List.ne_of_not_mem_cons other
    omega
  rcases later with rfl | rfl
  · decide
  · decide

/-- The same rows with a token each. -/
def fewTokens : KvVmmLayout where
  itemsize := 1
  shape := [4, 2 ^ 21]
  tokensPerRow := 1
  tokenPageSize := 1
  layerCount := 1
  buffersPerLayer := 1
  mappingGranularityBytes := 2 ^ 21
  itemsize_pos := by decide
  accepted := by decide

theorem retirable_exact_fewTokens : fewTokens.Retires [0, 1, 2] [1, 3] ∧ fewTokens.emptyBundles [0, 1, 2] [1, 3] = some [1] := by
  have call := (retirable_exact (l := fewTokens)).1 [0, 1, 2] [1, 3] (by decide) (by decide) (by decide)
  refine ⟨call.1.mpr (call.2 (by decide) ?_ ?_), by decide⟩
  · intro page member
    simp only [List.mem_cons, List.not_mem_nil, or_false] at member
    rcases member with rfl | rfl
    · exact ⟨by decide, by decide⟩
    · exact ⟨by decide, by decide⟩
  · intro id member _
    simp only [List.mem_cons, List.not_mem_nil, or_false] at member
    rcases member with rfl | rfl | rfl
    · exact ⟨by decide, by decide⟩
    · exact ⟨by decide, by decide⟩
    · exact ⟨by decide, by decide⟩

end KvVmmLayout

end CrossPool.Ecs.Vmm
