import Mathlib.Data.List.Sort
import CrossPool.Ecs.Layout

/-!
# Pages of one component

An elastic allocator keeps the free pages whose bundles are all mapped in the upstream
free containers, and the others apart, as unavailable. A plan picks free pages for an
allocation together with the bundles that have to be mapped for them; publishing hands
unavailable pages over once their bundles are there.
-/

namespace CrossPool.Ecs.Vmm

open CrossPool.Lib

/-! ## Free containers -/

/-- Pages that are handed out next, and those merged in later (`release_pages` or
`staged_pages`). -/
structure FreeContainers where
  freePages : List Nat
  stagedPages : List (List Nat)
deriving DecidableEq, Repr

def FreeContainers.pages (f : FreeContainers) : List Nat :=
  f.freePages ++ f.stagedPages.flatten

/-- The upstream operations on the free containers, with what they are documented to do:
list all of them, count their tokens, and take pages back. -/
structure Upstream where
  pageSize : Nat
  getAllFreePages : FreeContainers → List Nat
  availableSize : FreeContainers → Nat
  freePageIds : FreeContainers → List Nat → FreeContainers
  pageSize_pos : 0 < pageSize
  all_perm : ∀ f, (getAllFreePages f).Perm f.pages
  available_eq : ∀ f, availableSize f = f.pages.length * pageSize
  free_perm : ∀ f pages, (freePageIds f pages).pages.Perm (f.pages ++ pages)

/-- An upstream allocator that stages what it takes back. -/
def Upstream.staging (pageSize : Nat) (positive : 0 < pageSize) : Upstream where
  pageSize := pageSize
  getAllFreePages := FreeContainers.pages
  availableSize f := f.pages.length * pageSize
  freePageIds f pages := { f with stagedPages := f.stagedPages ++ [pages] }
  pageSize_pos := positive
  all_perm _ := List.Perm.refl _
  available_eq _ := rfl
  free_perm f pages := by
    simp [FreeContainers.pages, List.append_assoc]

/-! ## Allocator -/

/-- An `ElasticPageAllocator` with its backing. -/
structure Component where
  upstream : Upstream
  layout : KvVmmLayout
  backing : KvVmmBacking
  containers : FreeContainers
  unavailablePages : List Nat
  retiringPages : List Nat

structure SglangPagePlan where
  pageIds : List Nat
  missingBundleIds : List Nat
deriving DecidableEq, Repr

namespace Component

variable (c : Component)

/-- Unavailable pages that no retirement holds. -/
def candidates : List Nat :=
  c.unavailablePages.filter (· ∉ c.retiringPages)

/-- A stable sort by a flag, flagged pages first. -/
def flaggedFirst (pages : List Nat) (flags : List Bool) : List Nat :=
  ((pages.zip flags).filter (·.2)).map Prod.fst ++ ((pages.zip flags).filter (!·.2)).map Prod.fst

/-- `plan_pages`; the outer `none` where it raises, the inner where it returns None. -/
def planPages (pageCount : Nat) : Option (Option SglangPagePlan) := do
  let resident := c.upstream.getAllFreePages c.containers
  if pageCount ≤ resident.length then some (some ⟨resident.take pageCount, []⟩)
  else if resident.length + c.candidates.length < pageCount then some none
  else
    let candidates := c.candidates.insertionSort (· ≤ ·)
    let spans ← c.layout.bundleSpans (candidates.map Int.ofNat)
    let missingCounts ← c.layout.missingBundleCounts c.backing.bundleIds (candidates.map Int.ofNat)
    let partials := List.zipWith (fun count span => decide (count < span.2 - span.1)) missingCounts spans
    let selected := (flaggedFirst candidates partials).take (pageCount - resident.length)
    let spans ← c.layout.bundleSpans (selected.map Int.ofNat)
    let touched ← coverage c.layout.bundleCapacity (spans.map Prod.fst) (spans.map Prod.snd)
    let missingIds :=
      (List.range c.layout.bundleCapacity).filter fun id => 0 < touched.getD id 0 && id ∉ c.backing.bundleIds
    some (some ⟨resident ++ selected, missingIds⟩)

/-- `publish_pages`; `none` where it raises. -/
def publishPages (pageIds : List Nat) : Option Component := do
  let pages := c.unavailablePages.filter (· ∈ pageIds)
  if pages.isEmpty then some c
  else if pages.any (· ∈ c.retiringPages) then none
  else
    let counts ← c.layout.missingBundleCounts c.backing.bundleIds (pages.map Int.ofNat)
    if counts.any (· ≠ 0) then none
    else
      some
        { c with
          unavailablePages := c.unavailablePages.filter (· ∉ pageIds)
          containers := c.upstream.freePageIds c.containers pages }

/-- All bundles of a page are mapped. -/
def Backed (page : Nat) : Prop :=
  ∀ bundle, c.layout.Touches page bundle → bundle ∈ c.backing.bundleIds

/-- What holds of an allocator between its operations. -/
structure Valid : Prop where
  profile : c.backing.profile = c.layout.profile
  reserved : c.backing.reserved
  distinct : (c.containers.pages ++ c.unavailablePages).Nodup
  used : ∀ page ∈ c.containers.pages ++ c.unavailablePages, 1 ≤ page ∧ page ≤ c.layout.lastPage
  retiring : c.retiringPages ⊆ c.unavailablePages
  bundles_distinct : c.backing.bundleIds.Nodup
  bundles_bounded : ∀ id ∈ c.backing.bundleIds, id < c.layout.bundleCapacity
  backed : ∀ page ∈ c.containers.pages, c.Backed page

/-- Where the count goes beyond the resident pages, all candidates are converted. -/
def ConvertsFor (pageCount : Nat) : Prop :=
  c.containers.pages.length < pageCount → pageCount ≤ c.containers.pages.length + c.candidates.length →
    c.layout.Converts c.candidates

/-! ## Plans -/

section Plan

variable {c}

theorem mem_candidates {page : Nat} : page ∈ c.candidates ↔ page ∈ c.unavailablePages ∧ page ∉ c.retiringPages := by
  rw [candidates, List.mem_filter, decide_eq_true_eq]

theorem flaggedFirst_perm {pages : List Nat} {flags : List Bool} (same : pages.length ≤ flags.length) :
    (flaggedFirst pages flags).Perm pages := by
  rw [flaggedFirst, ← List.map_append]
  have all := (List.filter_append_perm (fun entry : Nat × Bool => entry.2) (pages.zip flags)).map Prod.fst
  rw [List.map_fst_zip same] at all
  exact all

/-- The order in which plans take unavailable pages: partly backed ones first. -/
def order (c : Component) : List Nat :=
  flaggedFirst (c.candidates.insertionSort (· ≤ ·))
    ((c.candidates.insertionSort (· ≤ ·)).map fun page =>
      decide (c.layout.missingCount c.backing.bundleIds page < (c.layout.bundlesOf page).2 - (c.layout.bundlesOf page).1))

theorem order_perm : c.order.Perm c.candidates := by
  refine (flaggedFirst_perm ?_).trans (List.perm_insertionSort _ _)
  rw [List.length_map]

/-- The bundles that are not mapped and lie under some of the pages. -/
def missingUnder (c : Component) (pages : List Nat) : List Nat :=
  (List.range c.layout.bundleCapacity).filter fun id =>
    0 < pages.countP (fun page => c.layout.Touches page id) && id ∉ c.backing.bundleIds

theorem resident_length : (c.upstream.getAllFreePages c.containers).length = c.containers.pages.length :=
  (c.upstream.all_perm c.containers).length_eq

theorem ConvertsFor.fewer {few many : Nat} (converts : c.ConvertsFor many) (less : few ≤ many)
    (room : many ≤ c.containers.pages.length + c.candidates.length) : c.ConvertsFor few :=
  fun beyond _ => converts (beyond.trans_le less) room

variable (valid : c.Valid)

include valid

theorem candidate_used {page : Nat} (candidate : page ∈ c.candidates) : 1 ≤ page ∧ page ≤ c.layout.lastPage :=
  valid.used page (List.mem_append_right _ (mem_candidates.mp candidate).1)

/-- What `plan_pages` returns where nothing that it converts wraps. -/
theorem planPages_eq {pageCount : Nat} (converts : c.ConvertsFor pageCount) :
    c.planPages pageCount =
      some
        (if pageCount ≤ c.containers.pages.length then
          some ⟨(c.upstream.getAllFreePages c.containers).take pageCount, []⟩
        else if c.containers.pages.length + c.candidates.length < pageCount then none
        else
          some
            ⟨c.upstream.getAllFreePages c.containers ++ c.order.take (pageCount - c.containers.pages.length),
              c.missingUnder (c.order.take (pageCount - c.containers.pages.length))⟩) := by
  rw [planPages]
  dsimp only
  rw [resident_length]
  by_cases enough : pageCount ≤ c.containers.pages.length
  · rw [if_pos enough, if_pos enough]
  rw [if_neg enough, if_neg enough]
  by_cases short : c.containers.pages.length + c.candidates.length < pageCount
  · rw [if_pos short, if_pos short]
  rw [if_neg short, if_neg short]
  have converted := converts (not_le.mp enough) (not_lt.mp short)
  have sorted' : c.layout.Converts (c.candidates.insertionSort (· ≤ ·)) :=
    converted.mono (List.perm_insertionSort _ _).subset
  have taken' : c.layout.Converts (c.order.take (pageCount - c.containers.pages.length)) :=
    converted.mono fun page member => order_perm.mem_iff.mp (List.mem_of_mem_take member)
  have sorted : ∀ page ∈ (c.candidates.insertionSort (· ≤ ·)), page ≤ c.layout.lastPage := by
    intro page member
    exact (candidate_used valid ((List.perm_insertionSort _ _).mem_iff.mp member)).2
  have taken : ∀ page ∈ c.order.take (pageCount - c.containers.pages.length), page ≤ c.layout.lastPage := by
    intro page member
    exact (candidate_used valid (order_perm.mem_iff.mp (List.mem_of_mem_take member))).2
  have partials : List.zipWith (fun count span => decide (count < span.2 - span.1))
      ((c.candidates.insertionSort (· ≤ ·)).map fun page => (c.layout.missingCount c.backing.bundleIds page : Int))
      (c.layout.spansOf (c.candidates.insertionSort (· ≤ ·))) =
        (c.candidates.insertionSort (· ≤ ·)).map fun page =>
          decide (c.layout.missingCount c.backing.bundleIds page < (c.layout.bundlesOf page).2 - (c.layout.bundlesOf page).1) := by
    rw [KvVmmLayout.spansOf, List.map_map, List.zipWith_map, List.zipWith_self]
    apply List.map_congr_left
    intro page _
    have ordered := c.layout.bundlesOf_ordered page
    simp only [Function.comp, decide_eq_decide]
    omega
  rw [KvVmmLayout.bundleSpans_eq_some sorted', KvVmmLayout.missingBundleCounts_eq_some sorted' valid.bundles_bounded sorted]
  dsimp only [Option.bind_eq_bind, Option.bind_some]
  rw [partials, ← order, KvVmmLayout.bundleSpans_eq_some taken']
  dsimp only [Option.bind_some]
  rw [KvVmmLayout.coverage_spansOf taken]
  dsimp only [Option.bind_some]
  congr 3
  rw [missingUnder]
  apply List.filter_congr
  intro id member
  have inside := List.mem_range.mp member
  rw [List.getD_eq_getElem _ _ (by simpa using inside), List.getElem_map, List.getElem_range]
  congr 1
  rw [decide_eq_decide]
  omega

omit valid in
theorem mem_missingUnder {pages : List Nat} (used : ∀ page ∈ pages, page ≤ c.layout.lastPage) {id : Nat} :
    id ∈ c.missingUnder pages ↔ id ∉ c.backing.bundleIds ∧ ∃ page ∈ pages, c.layout.Touches page id := by
  rw [missingUnder, List.mem_filter, List.mem_range, Bool.and_eq_true, decide_eq_true_eq, decide_eq_true_eq,
    List.countP_pos_iff]
  simp only [decide_eq_true_eq]
  constructor
  · rintro ⟨-, touched, missing⟩
    exact ⟨missing, touched⟩
  · rintro ⟨missing, page, member, touches⟩
    have upper := KvVmmLayout.bundlesOf_le_capacity (used page member)
    have inside := (KvVmmLayout.touches_iff.mp touches).2
    exact ⟨by omega, ⟨page, member, touches⟩, missing⟩

/-- A plan of some pages with just the bundles that they lack. -/
structure Realizes (c : Component) (pageCount : Nat) (plan : SglangPagePlan) : Prop where
  length : plan.pageIds.length = pageCount
  distinct : plan.pageIds.Nodup
  free : ∀ page ∈ plan.pageIds, page ∈ c.containers.pages ∨ page ∈ c.candidates
  missing_distinct : plan.missingBundleIds.Nodup
  missing : ∀ id, id ∈ plan.missingBundleIds ↔
    id ∉ c.backing.bundleIds ∧ ∃ page ∈ plan.pageIds, c.layout.Touches page id

theorem realizes_resident {pageCount : Nat} (enough : pageCount ≤ c.containers.pages.length) :
    c.Realizes pageCount ⟨(c.upstream.getAllFreePages c.containers).take pageCount, []⟩ := by
  have perm := c.upstream.all_perm c.containers
  refine ⟨?_, ?_, ?_, List.nodup_nil, ?_⟩
  · rw [List.length_take, resident_length, min_eq_left enough]
  · exact (perm.nodup_iff.mpr (List.nodup_append.mp valid.distinct).1).sublist (List.take_sublist _ _)
  · intro page member
    exact .inl (perm.mem_iff.mp (List.mem_of_mem_take member))
  · intro id
    constructor
    · intro none
      cases none
    · rintro ⟨missing, page, member, touches⟩
      exact absurd (valid.backed page (perm.mem_iff.mp (List.mem_of_mem_take member)) id touches) missing

theorem realizes_selected {pageCount : Nat} (beyond : c.containers.pages.length < pageCount)
    (room : pageCount ≤ c.containers.pages.length + c.candidates.length) :
    c.Realizes pageCount
      ⟨c.upstream.getAllFreePages c.containers ++ c.order.take (pageCount - c.containers.pages.length),
        c.missingUnder (c.order.take (pageCount - c.containers.pages.length))⟩ := by
  have perm := c.upstream.all_perm c.containers
  obtain ⟨distinct, distinct', apart⟩ := List.nodup_append.mp valid.distinct
  have taken : ∀ page ∈ c.order.take (pageCount - c.containers.pages.length), page ∈ c.candidates := by
    intro page member
    exact order_perm.mem_iff.mp (List.mem_of_mem_take member)
  refine ⟨?_, ?_, ?_, List.nodup_range.filter _, ?_⟩
  · rw [List.length_append, resident_length, List.length_take, order_perm.length_eq]
    omega
  · apply List.nodup_append.mpr
    refine ⟨perm.nodup_iff.mpr distinct, ?_, ?_⟩
    · exact (order_perm.nodup_iff.mpr (distinct'.filter _)).sublist (List.take_sublist _ _)
    · intro page resident other selected same
      exact apart page (perm.mem_iff.mp resident) other (mem_candidates.mp (taken other selected)).1 same
  · intro page member
    rcases List.mem_append.mp member with resident | selected
    · exact .inl (perm.mem_iff.mp resident)
    · exact .inr (taken page selected)
  · intro id
    rw [mem_missingUnder fun page member => (candidate_used valid (taken page member)).2]
    apply and_congr_right
    intro missing
    constructor
    · rintro ⟨page, selected, touches⟩
      exact ⟨page, List.mem_append_right _ selected, touches⟩
    · rintro ⟨page, member, touches⟩
      rcases List.mem_append.mp member with resident | selected
      · exact absurd (valid.backed page (perm.mem_iff.mp resident) id touches) missing
      · exact ⟨page, selected, touches⟩

/-- There is no plan just where there are too few pages. -/
theorem planPages_eq_none {pageCount : Nat} (converts : c.ConvertsFor pageCount) :
    c.planPages pageCount = some none ↔ c.containers.pages.length + c.candidates.length < pageCount := by
  rw [planPages_eq valid converts, Option.some.injEq]
  split
  · constructor
    · intro impossible
      cases impossible
    · omega
  · split
    · rename_i short
      simp [short]
    · rename_i room
      simp [room]

theorem planPages_eq_some {pageCount : Nat} (converts : c.ConvertsFor pageCount)
    (room : pageCount ≤ c.containers.pages.length + c.candidates.length) :
    ∃ plan, c.planPages pageCount = some (some plan) ∧ c.Realizes pageCount plan := by
  rw [planPages_eq valid converts]
  by_cases enough : pageCount ≤ c.containers.pages.length
  · rw [if_pos enough]
    exact ⟨_, rfl, realizes_resident valid enough⟩
  · rw [if_neg enough, if_neg (by omega)]
    exact ⟨_, rfl, realizes_selected valid (by omega) room⟩

theorem room_of_planPages {pageCount : Nat} (converts : c.ConvertsFor pageCount) {plan : SglangPagePlan}
    (planned : c.planPages pageCount = some (some plan)) :
    pageCount ≤ c.containers.pages.length + c.candidates.length := by
  by_contra short
  rw [(planPages_eq_none valid converts).mpr (not_le.mp short)] at planned
  cases planned

theorem realizes_of_planPages {pageCount : Nat} (converts : c.ConvertsFor pageCount) {plan : SglangPagePlan}
    (planned : c.planPages pageCount = some (some plan)) : c.Realizes pageCount plan := by
  obtain ⟨plan', planned', realizes⟩ := planPages_eq_some valid converts (room_of_planPages valid converts planned)
  rw [planned, Option.some.injEq, Option.some.injEq] at planned'
  exact planned' ▸ realizes

/-- A plan of more pages lacks no fewer bundles. -/
theorem planPages_mono {few many : Nat} (more : few ≤ many) (converts : c.ConvertsFor many) {plan plan' : SglangPagePlan}
    (planned : c.planPages few = some (some plan)) (planned' : c.planPages many = some (some plan')) :
    plan.missingBundleIds ⊆ plan'.missingBundleIds := by
  have converts' := converts.fewer more (room_of_planPages valid converts planned')
  rw [planPages_eq valid converts', Option.some.injEq] at planned
  rw [planPages_eq valid converts, Option.some.injEq] at planned'
  by_cases enough : few ≤ c.containers.pages.length
  · rw [if_pos enough, Option.some.injEq] at planned
    rw [← planned]
    exact List.nil_subset _
  · rw [if_neg enough] at planned
    rw [if_neg (by omega)] at planned'
    split at planned
    · cases planned
    split at planned'
    · cases planned'
    rw [Option.some.injEq] at planned planned'
    rw [← planned, ← planned']
    intro id member
    obtain ⟨inside, kept⟩ := List.mem_filter.mp member
    rw [Bool.and_eq_true, decide_eq_true_eq] at kept
    refine List.mem_filter.mpr ⟨inside, ?_⟩
    rw [Bool.and_eq_true, decide_eq_true_eq]
    have longer : few - c.containers.pages.length ≤ many - c.containers.pages.length := by omega
    exact ⟨kept.1.trans_le ((List.take_sublist_take_left longer).countP_le), kept.2⟩

/-- What a plan for some count is meant to be: none where there are too few pages, else that
many with the bundles that they lack, and no fewer bundles than for a lower count. -/
structure Plans (c : Component) (pageCount : Nat) : Prop where
  short : c.planPages pageCount = some none ↔ c.containers.pages.length + c.candidates.length < pageCount
  realizes : pageCount ≤ c.containers.pages.length + c.candidates.length →
    ∃ plan, c.planPages pageCount = some (some plan) ∧ c.Realizes pageCount plan
  grows : ∀ fewer ≤ pageCount, ∀ plan plan', c.planPages fewer = some (some plan) →
    c.planPages pageCount = some (some plan') → plan.missingBundleIds ⊆ plan'.missingBundleIds

theorem plans {pageCount : Nat} (converts : c.ConvertsFor pageCount) : c.Plans pageCount where
  short := planPages_eq_none valid converts
  realizes := planPages_eq_some valid converts
  grows _ less _ _ := planPages_mono valid less converts

end Plan

/-! ## Plans for single pages -/

section Lone

variable {l : KvVmmLayout} {page : Nat}

/-- Nothing is mapped, and one page is free. -/
def lone (l : KvVmmLayout) (page : Nat) : Component where
  upstream := .staging l.tokenPageSize l.tokenPageSize_pos
  layout := l
  backing := ⟨l.profile, true, []⟩
  containers := ⟨[], []⟩
  unavailablePages := [page]
  retiringPages := []

theorem lone_valid (used : 1 ≤ page ∧ page ≤ l.lastPage) : (lone l page).Valid where
  profile := rfl
  reserved := rfl
  distinct := List.nodup_singleton page
  used := by
    intro page' member
    obtain rfl := List.mem_singleton.mp member
    exact used
  retiring := List.nil_subset _
  bundles_distinct := List.nodup_nil
  bundles_bounded := by
    intro id member
    cases member
  backed := by
    intro page' member
    cases member

/-- The plan of a single page, nothing being mapped, lacks the bundles counted for its interval. -/
theorem planPages_lone {plan : SglangPagePlan} (planned : (lone l page).planPages 1 = some (some plan)) :
    l.spanScalarsFit ∧ ∃ touched, coverage l.bundleCapacity [(l.bundleSpan page).1] [(l.bundleSpan page).2] = some touched ∧
      plan = ⟨[page], (List.range l.bundleCapacity).filter fun id => 0 < touched.getD id 0⟩ := by
  have candidates : (lone l page).candidates = [page] := by simp [candidates, lone]
  have resident : (lone l page).upstream.getAllFreePages (lone l page).containers = [] := rfl
  have layout : (lone l page).layout = l := rfl
  have mapped : (lone l page).backing.bundleIds = [] := rfl
  rw [planPages] at planned
  dsimp only at planned
  rw [resident, candidates, layout, mapped, List.length_nil, if_neg (by decide), List.length_singleton, if_neg (by decide),
    List.insertionSort_cons, List.insertionSort_nil, List.orderedInsert_nil] at planned
  obtain ⟨spans, spanned, planned⟩ := Option.bind_eq_some_iff.mp planned
  obtain ⟨counts, counted, planned⟩ := Option.bind_eq_some_iff.mp planned
  have scalars : l.spanScalarsFit := by
    by_contra large
    rw [KvVmmLayout.bundleSpans, if_neg large] at spanned
    cases spanned
  refine ⟨scalars, ?_⟩
  have spans' (pages : List Int) : l.bundleSpans pages = some (pages.map l.bundleSpan) := if_pos scalars
  obtain rfl := Option.some.inj ((spans' _).symm.trans spanned)
  have answered : 1 ≤ counts.length := by
    rw [KvVmmLayout.missingBundleCounts, if_neg (by simp)] at counted
    obtain ⟨spans, spanned, answers⟩ := Option.bind_eq_some_iff.mp counted
    obtain rfl := Option.some.inj ((spans' _).symm.trans spanned)
    obtain ⟨count, listed, -⟩ := @getElem?_of_mapM_eq_some _ _ _ _ _ answers 0 _ rfl
    exact (List.getElem?_eq_some_iff.mp listed).1
  have order (flags : List Bool) (one : 1 ≤ flags.length) : (flaggedFirst [page] flags).take 1 = [page] := by
    rw [List.perm_singleton.mp (flaggedFirst_perm one)]
    rfl
  rw [List.nil_append, order _ (by simpa using answered)] at planned
  obtain ⟨spans, spanned, planned⟩ := Option.bind_eq_some_iff.mp planned
  obtain rfl := Option.some.inj ((spans' _).symm.trans spanned)
  obtain ⟨touched, covered, planned⟩ := Option.bind_eq_some_iff.mp planned
  refine ⟨touched, covered, ?_⟩
  rw [Option.some.injEq, Option.some.injEq] at planned
  rw [← planned, SglangPagePlan.mk.injEq]
  refine ⟨rfl, List.filter_congr ?_⟩
  intro id _
  simp

/-- A plan for a single page, nothing being mapped, shows its interval. -/
theorem converts_of_plans (used : 1 ≤ page ∧ page ≤ l.lastPage) (plans : (lone l page).Plans 1) :
    l.spanScalarsFit ∧ l.PageConverts page := by
  obtain ⟨plan, planned, realizes⟩ := plans.realizes (le_refl 1)
  obtain ⟨scalars, touched, counted, rfl⟩ := planPages_lone planned
  refine ⟨scalars, ?_⟩
  obtain ⟨first, start⟩ : ∃ first : Nat, (l.bundleSpan page).1 = first :=
    Int.eq_ofNat_of_zero_le (inside_of_coverage counted (l.bundleSpan page).1 (by simp)).1
  obtain ⟨past, stop⟩ : ∃ past : Nat, (l.bundleSpan page).2 = past :=
    Int.eq_ofNat_of_zero_le (inside_of_coverage counted (l.bundleSpan page).2 (by simp)).1
  rw [start, stop] at counted
  have ends := @coverage_eq_sub l.bundleCapacity [(first, past)] (by
    intro span member
    obtain rfl := List.mem_singleton.mp member
    have inside := inside_of_coverage counted first (by simp)
    have inside' := inside_of_coverage counted past (by simp)
    dsimp only
    omega)
  obtain rfl := Option.some.inj (counted.symm.trans ends)
  have inside := (inside_of_coverage counted past (by simp)).2
  have upper := KvVmmLayout.bundlesOf_le_capacity (l := l) used.2
  have same : Set.Ico (l.bundlesOf page).1 (l.bundlesOf page).2 = Set.Ico first past := by
    ext id
    have missing := realizes.missing id
    simp only [lone, KvVmmBacking.bundleIds, List.map_nil, List.not_mem_nil, not_false_eq_true, true_and,
      List.mem_singleton, exists_eq_left, List.mem_filter, List.mem_range, decide_eq_true_eq] at missing
    rw [Set.mem_Ico, Set.mem_Ico, ← KvVmmLayout.touches_iff, ← missing]
    by_cases small : id < l.bundleCapacity
    · rw [List.getD_eq_getElem _ _ (by simpa using small), List.getElem_map, List.getElem_range]
      simp only [List.countP_cons, List.countP_nil, decide_eq_true_eq]
      by_cases started : first ≤ id
      · by_cases ended : past ≤ id
        · simp [started, ended]
        · simp [small, started, ended, not_le.mp ended]
      · by_cases ended : past ≤ id
        · simp [started, ended]
        · simp [started, ended]
    · omega
  obtain ⟨first', past'⟩ := (Set.Ico_eq_Ico_iff (.inl (l.bundlesOf_ordered page))).mp same
  rw [KvVmmLayout.PageConverts, first', past', ← start, ← stop]

end Lone

/-! ## Publication -/

section Publication

variable {c}

/-- The candidates whose bundles are all mapped. -/
def backedCandidates (c : Component) : List Nat :=
  c.candidates.filter fun page => c.layout.missingCount c.backing.bundleIds page = 0

/-- What is left to publish of a component is published. -/
structure Published (c c' : Component) : Prop where
  upstream : c'.upstream = c.upstream
  layout : c'.layout = c.layout
  backing : c'.backing = c.backing
  retiring : c'.retiringPages = c.retiringPages
  unavailable : c'.unavailablePages = c.unavailablePages.filter (· ∉ c.backedCandidates)
  pages : c'.containers.pages.Perm (c.containers.pages ++ c.backedCandidates)

theorem mem_backedCandidates {page : Nat} :
    page ∈ c.backedCandidates ↔ (page ∈ c.unavailablePages ∧ page ∉ c.retiringPages) ∧ c.Backed page := by
  rw [backedCandidates, List.mem_filter, mem_candidates, decide_eq_true_eq, KvVmmLayout.missingCount_eq_zero, Backed]

theorem filter_backedCandidates : c.unavailablePages.filter (· ∈ c.backedCandidates) = c.backedCandidates := by
  rw [backedCandidates, candidates, List.filter_filter]
  apply List.filter_congr
  intro page member
  simp only [List.mem_filter, decide_eq_true_eq, ← Bool.decide_and, decide_eq_decide]
  tauto

theorem publishPages_eq_some (valid : c.Valid) (converts : c.layout.Converts c.candidates) :
    ∃ c', c.publishPages c.backedCandidates = some c' ∧ Published c c' := by
  have listed : ∀ page, page ∈ c.backedCandidates ↔
      (page ∈ c.unavailablePages ∧ page ∉ c.retiringPages) ∧ c.layout.missingCount c.backing.bundleIds page = 0 := by
    intro page
    rw [mem_backedCandidates, KvVmmLayout.missingCount_eq_zero, Backed]
  rw [publishPages, filter_backedCandidates]
  by_cases none : c.backedCandidates.isEmpty
  · rw [if_pos none]
    rw [List.isEmpty_iff] at none
    refine ⟨c, rfl, rfl, rfl, rfl, rfl, ?_, ?_⟩
    · simp [none]
    · rw [none, List.append_nil]
  rw [if_neg none]
  have free : ¬(c.backedCandidates.any (· ∈ c.retiringPages)) = true := by
    rw [List.any_eq_true]
    rintro ⟨page, member, retiring⟩
    exact ((listed page).mp member).1.2 (of_decide_eq_true retiring)
  have used : ∀ page ∈ c.backedCandidates, page ≤ c.layout.lastPage := by
    intro page member
    exact (valid.used page (List.mem_append_right _ ((listed page).mp member).1.1)).2
  have converts' : c.layout.Converts c.backedCandidates :=
    converts.mono fun page member => (List.mem_filter.mp member).1
  rw [if_neg free, KvVmmLayout.missingBundleCounts_eq_some converts' valid.bundles_bounded used]
  dsimp only [Option.bind_eq_bind, Option.bind_some]
  have complete : ¬((c.backedCandidates.map fun page => (c.layout.missingCount c.backing.bundleIds page : Int)).any
      (· ≠ 0)) = true := by
    rw [List.any_map, List.any_eq_true]
    rintro ⟨page, member, lacking⟩
    simp [((listed page).mp member).2] at lacking
  rw [if_neg complete]
  exact ⟨_, rfl, rfl, rfl, rfl, rfl, rfl, c.upstream.free_perm _ _⟩

/-- Publishing moves pages and loses none. -/
theorem Published.whole {c' : Component} (published : Published c c') :
    (c'.containers.pages ++ c'.unavailablePages).Perm (c.containers.pages ++ c.unavailablePages) := by
  have parts := List.filter_append_perm (· ∈ c.backedCandidates) c.unavailablePages
  rw [filter_backedCandidates] at parts
  rw [published.unavailable]
  refine (published.pages.append_right _).trans ?_
  rw [List.append_assoc]
  apply List.Perm.append_left
  refine List.Perm.trans ?_ parts
  apply List.Perm.append_left
  apply List.Perm.of_eq
  apply List.filter_congr
  intro page _
  simp

/-- Publishing keeps the allocator valid. -/
theorem Published.valid {c' : Component} (published : Published c c') (valid : c.Valid) : c'.Valid := by
  have whole := published.whole
  obtain ⟨upstream, layout, backing, retiring, unavailable, pages⟩ := published
  have kept : ∀ page, c'.Backed page ↔ c.Backed page := by
    intro page
    rw [Backed, Backed, layout, backing]
  refine ⟨?_, ?_, ?_, ?_, ?_, ?_, ?_, ?_⟩
  · rw [backing, layout]
    exact valid.profile
  · rw [backing]
    exact valid.reserved
  · exact whole.nodup_iff.mpr valid.distinct
  · intro page member
    rw [layout]
    exact valid.used page (whole.mem_iff.mp member)
  · intro page held
    rw [retiring] at held
    rw [unavailable, List.mem_filter, decide_eq_true_eq, mem_backedCandidates]
    exact ⟨valid.retiring held, fun listed => listed.1.2 held⟩
  · rw [backing]
    exact valid.bundles_distinct
  · rw [backing, layout]
    exact valid.bundles_bounded
  · intro page member
    rw [kept]
    rcases List.mem_append.mp (pages.mem_iff.mp member) with resident | published
    · exact valid.backed page resident
    · exact (mem_backedCandidates.mp published).2

end Publication

end Component

end CrossPool.Ecs.Vmm
