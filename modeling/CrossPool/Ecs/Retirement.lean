import CrossPool.Ecs.Allocation

/-!
# Retirement of bundles

A bundle is retired in two steps. First the free pages that touch it are withdrawn and
held back; only when the work that may still read it has ended, it is unmapped. In
between, pages are allocated, freed and published as ever, and a driver call may fail
at any time.
-/

namespace CrossPool.Ecs.Vmm

open CrossPool.Lib

/-! ## Entries of a backing -/

section Entries

variable {s t u : Scope} {id : Nat} {ids : List Nat}

/-- The backing is the same but for its bundles, of which only those of `ids` may be gone. -/
structure Spares (ids : List Nat) (s t : Scope) : Prop where
  profile : t.backing.profile = s.backing.profile
  reserved : t.backing.reserved = s.backing.reserved
  kept : ∀ entry ∈ s.backing.bundles, entry.1 ∉ ids → entry ∈ t.backing.bundles

/-- Just the bundles of `ids` are gone. -/
structure Retired (ids : List Nat) (s t : Scope) : Prop where
  profile : t.backing.profile = s.backing.profile
  reserved : t.backing.reserved = s.backing.reserved
  bundles : t.backing.bundles = s.backing.bundles.filter fun entry => entry.1 ∉ ids

theorem Retired.spares (retired : Retired ids s t) : Spares ids s t := by
  refine ⟨retired.profile, retired.reserved, ?_⟩
  intro entry listed other
  rw [retired.bundles, List.mem_filter, decide_eq_true_eq]
  exact ⟨listed, other⟩

theorem Spares.trans {ids' : List Nat} (first : Spares ids s t) (second : Spares ids' t u) : Spares (ids ++ ids') s u := by
  refine ⟨second.profile.trans first.profile, second.reserved.trans first.reserved, ?_⟩
  intro entry listed other
  rw [List.mem_append, not_or] at other
  exact second.kept entry (first.kept entry listed other.1) other.2

theorem Spares.weaken {ids' : List Nat} (spares : Spares ids s t) (fewer : ids ⊆ ids') : Spares ids' s t := by
  refine ⟨spares.profile, spares.reserved, ?_⟩
  intro entry listed other
  exact spares.kept entry listed fun member => other (fewer member)

/-- Unmapping a bundle leaves the entries of the others. -/
theorem spares_setMapped (same : t.backing = s.backing ∨ t.backing = s.backing.setMapped id false) : Spares [id] s t := by
  rcases same with same | same
  · rw [← List.append_nil [id]]
    refine ⟨by rw [same], by rw [same], ?_⟩
    intro entry listed _
    rwa [same]
  · refine ⟨by rw [same]; rfl, by rw [same]; rfl, ?_⟩
    intro entry listed other
    rw [List.mem_singleton] at other
    rw [same]
    refine List.mem_map.mpr ⟨entry, listed, ?_⟩
    rw [if_neg other]

theorem delete_setMapped (b : KvVmmBacking) (mapped : Bool) : (b.setMapped id mapped).delete id = b.delete id := by
  simp only [KvVmmBacking.delete, KvVmmBacking.setMapped, List.filter_map]
  congr 1
  rw [List.filter_congr (q := fun entry => decide (entry.1 ≠ id))]
  · conv_rhs => rw [← List.map_id (List.filter _ _)]
    apply List.map_congr_left
    intro entry kept
    have other := of_decide_eq_true (List.mem_filter.mp kept).2
    rw [if_neg other]
    rfl
  · intro entry _
    simp only [Function.comp]
    split
    · next same => simp [same]
    · rfl

/-- A bundle is retired, or the call raised and at most this bundle was touched. -/
theorem wp_retireBundle_entries : wp (retireBundle id) (fun _ t => Retired [id] s t) (Spares [id] s) s := by
  simp only [retireBundle, wp_bind]
  apply wp_closeBundle
  · intro t _ _ same
    have dropped : t.backing.delete id = s.backing.delete id := by
      rcases same with same | same
      · rw [same]
      · rw [same, delete_setMapped]
    have retired : ∀ u : Scope, u.backing = s.backing.delete id → Retired [id] s u := by
      intro u deleted
      refine ⟨by rw [deleted]; rfl, by rw [deleted]; rfl, ?_⟩
      rw [deleted]
      apply List.filter_congr
      intro entry _
      simp
    simp only [wp_modifyBacking, wp_get, release, wp_bind, dropped]
    split
    · exact (retired _ rfl).spares
    · exact retired _ rfl
  · intro t _ _ same
    exact spares_setMapped same

/-- A loop retires all of its bundles, or raises and has touched no other. -/
theorem wp_retireEach (ids : List Nat) : wp (ids.forM retireBundle) (fun _ t => Retired ids s t) (Spares ids s) s := by
  induction ids generalizing s with
  | nil =>
    refine ⟨rfl, rfl, ?_⟩
    rw [List.filter_eq_self.mpr]
    simp
  | cons id rest ih =>
    change wp (retireBundle id >>= fun _ => rest.forM retireBundle) _ _ s
    rw [wp_bind]
    refine wp_mono wp_retireBundle_entries ?_ ?_
    · intro _ t first
      refine wp_mono ih ?_ ?_
      · intro _ u second
        refine ⟨second.profile.trans first.profile, second.reserved.trans first.reserved, ?_⟩
        rw [second.bundles, first.bundles, List.filter_filter]
        apply List.filter_congr
        intro entry _
        rw [← Bool.decide_and, decide_eq_decide, List.mem_singleton, List.mem_cons, not_or]
        exact and_comm
      · intro u second
        exact first.spares.trans second
    · intro t spares
      apply spares.weaken
      simp

/-- A bundle that is created and mapped. -/
theorem setMapped_insert {b : KvVmmBacking} (fresh : id ∉ b.bundleIds) :
    (b.insert id).setMapped id true = { b with bundles := b.bundles ++ [(id, ⟨true⟩)] } := by
  simp only [KvVmmBacking.insert, KvVmmBacking.setMapped, List.map_append, List.map_cons, List.map_nil, if_true]
  congr 2
  conv_rhs => rw [← List.map_id b.bundles]
  apply List.map_congr_left
  intro entry listed
  have other : entry.1 ≠ id := fun same => fresh (same ▸ List.mem_map_of_mem listed)
  rw [if_neg other]
  rfl

/-- What a mapping loop adds to the entries. -/
structure Adds (rest : List Nat) (result : List Nat × Option Failure) (acquired : List Nat) (s t : Scope) : Prop where
  profile : t.backing.profile = s.backing.profile
  reserved : t.backing.reserved = s.backing.reserved
  bundles : ∃ new : List (Nat × KvVmmBundle), t.backing.bundles = s.backing.bundles ++ new ∧
    result.1 = acquired ++ new.map Prod.fst ∧ new.map Prod.fst ⊆ rest ∧ (result.2 = none → new = rest.map (·, ⟨true⟩))

theorem wp_mapBundles_entries (rest : List Nat) {acquired : List Nat} (distinct : rest.Nodup)
    (fresh : ∀ id ∈ rest, id ∉ s.backing.bundleIds) :
    wp (mapBundles rest acquired) (fun result t => Adds rest result acquired s t) (fun _ => False) s := by
  induction rest generalizing acquired s with
  | nil => exact ⟨rfl, rfl, [], by simp⟩
  | cons id rest ih =>
    obtain ⟨unrepeated, distinctRest⟩ := List.nodup_cons.mp distinct
    have freshId := fresh id List.mem_cons_self
    have partly (mapped : Bool) (error : Failure) (calls : Nat) :
        Adds (id :: rest) (acquired ++ [id], some error) acquired s
          { s with backing.bundles := s.backing.bundles ++ [(id, ⟨mapped⟩)], calls := calls } := by
      refine ⟨rfl, rfl, [(id, ⟨mapped⟩)], rfl, rfl, ?_, ?_⟩
      · simp
      · intro impossible
        cases impossible
    simp only [mapBundles, wp_bind, wp_callDriver]
    split
    · simp only [wp_bind, wp_modifyBacking, wp_callDriver]
      split
      · simp only [wp_bind, wp_modifyBacking, wp_callDriver, setMapped_insert freshId]
        split
        · refine wp_mono (ih distinctRest ?_) ?_ fun _ impossible => impossible
          · intro other listed
            simp only [KvVmmBacking.bundleIds, List.map_append, List.map_cons, List.map_nil, List.mem_append,
              List.mem_singleton, not_or]
            exact ⟨fresh other (List.mem_cons_of_mem _ listed), fun same => unrepeated (same ▸ listed)⟩
          · rintro result t ⟨profile, reserved, new, bundles, ids, within, all⟩
            refine ⟨profile, reserved, (id, ⟨true⟩) :: new, ?_, ?_, ?_, ?_⟩
            · rw [bundles, List.append_assoc]
              rfl
            · rw [ids, List.append_assoc]
              rfl
            · rw [List.map_cons]
              exact List.cons_subset_cons id within
            · intro done
              rw [all done]
              rfl
        · exact partly true _ _
      · exact partly false _ _
    · refine ⟨rfl, rfl, [], by simp, by simp, by simp, ?_⟩
      intro impossible
      cases impossible

/-- `try_map` maps what is missing, or leaves the entries as they were, or raises and has
touched no entry that was there. -/
theorem wp_tryMap_entries {ids : List Nat} :
    wp (tryMap ids)
      (fun mapped t =>
        t.backing.profile = s.backing.profile ∧ t.backing.reserved = s.backing.reserved ∧
          if mapped then
            (∀ id ∈ ids, id < s.backing.profile.bundleCapacity) ∧
              t.backing.bundles = s.backing.bundles ++ (missingIds s.backing ids).map (·, ⟨true⟩)
          else t.backing.bundles = s.backing.bundles)
      (Spares [] s) s := by
  obtain ⟨distinct, members⟩ := missingIds_spec s.backing ids
  have same : Spares [] s s := ⟨rfl, rfl, fun _ listed _ => listed⟩
  simp only [tryMap, wp_bind, wp_get]
  split
  · exact same
  split
  · exact same
  next within =>
  split
  · exact same
  simp only [wp_bind, tryReserve, wp_get]
  split
  · exact same
  split
  · exact ⟨rfl, rfl, rfl⟩
  simp only [wp_bind, wp_modify, wp_pure, Bool.not_true, Bool.false_eq_true, if_false]
  refine wp_mono (wp_mapBundles_entries _ distinct fun id listed => ((members id).mp listed).2) ?_
    fun _ impossible => impossible.elim
  rintro result t ⟨profile, reserved, new, bundles, acquired, added, all⟩
  -- none of the new entries was there
  have apart : ∀ entry ∈ s.backing.bundles, entry.1 ∉ new.map Prod.fst := by
    intro entry listed again
    exact ((members entry.1).mp (added again)).2 (List.mem_map_of_mem listed)
  have spares : ∀ u, Spares (new.map Prod.fst) t u → Spares [] s u := by
    intro u later
    refine ⟨later.profile.trans profile, later.reserved.trans reserved, ?_⟩
    intro entry listed _
    apply later.kept entry
    · rw [bundles]
      exact List.mem_append_left _ listed
    · exact apart entry listed
  obtain ⟨ids', error⟩ := result
  rw [List.nil_append] at acquired
  dsimp only at acquired all
  subst acquired
  cases error with
  | none =>
    refine ⟨profile, reserved, ?_⟩
    rw [if_pos rfl, bundles, all rfl]
    refine ⟨?_, rfl⟩
    intro id listed
    by_contra beyond
    exact within (List.any_eq_true.mpr ⟨id, listed, decide_eq_true (not_lt.mp beyond)⟩)
  | some error =>
    have refund : ∀ (amount : Nat) {post : Unit → Scope → Prop},
        (∀ u : Scope, u.backing = t.backing → post () u) → wp (release amount) post (Spares [] s) t := by
      intro amount post holds
      simp only [release, wp_bind, wp_get]
      split
      · exact spares _ ⟨rfl, rfl, fun _ listed _ => listed⟩
      · exact holds _ rfl
    simp only [wp_bind]
    apply refund
    intro u backing
    have still : Spares (new.map Prod.fst) t u := ⟨by rw [backing], by rw [backing], fun _ listed _ => backing ▸ listed⟩
    split
    · exact spares u still
    simp only [wp_bind]
    refine wp_mono (wp_retireEach (new.map Prod.fst).reverse) ?_ ?_
    · intro _ v retired
      split
      · refine ⟨?_, ?_, ?_⟩
        · rw [retired.profile, backing, profile]
        · rw [retired.reserved, backing, reserved]
        · rw [if_neg Bool.false_ne_true, retired.bundles, backing, bundles, List.filter_append,
            List.filter_eq_self.mpr, List.filter_eq_nil_iff.mpr, List.append_nil]
          · intro entry listed
            have gone := List.mem_map_of_mem (f := Prod.fst) listed
            simpa using gone
          · intro entry listed
            rw [decide_eq_true_eq, List.mem_reverse]
            exact apart entry listed
      · apply spares
        refine (still.trans retired.spares).weaken ?_
        simp
    · intro v later
      apply spares
      refine (still.trans later).weaken ?_
      simp

theorem mem_presentIds {b : KvVmmBacking} : id ∈ presentIds b ids ↔ id ∈ ids ∧ id ∈ b.bundleIds := by
  have perm := List.mergeSort_perm (ids.dedup.filter fun id => decide (id ∈ b.bundleIds)) (fun a b => decide (a ≤ b))
  rw [presentIds, perm.mem_iff, List.mem_filter, List.mem_dedup, decide_eq_true_eq]

/-- `unmap` retires just the bundles it is given, or raises and has touched no other. -/
theorem wp_unmap_entries : wp (unmap ids) (fun _ t => Retired ids s t) (Spares ids s) s := by
  have same : Spares ids s s := ⟨rfl, rfl, fun _ listed _ => listed⟩
  simp only [unmap, wp_bind, wp_get]
  split
  · exact same
  split
  · exact same
  split
  · exact same
  simp only [wp_bind, wp_pure]
  refine wp_mono (wp_retireEach _) ?_ ?_
  · rintro _ t ⟨profile, reserved, bundles⟩
    refine ⟨profile, reserved, ?_⟩
    rw [bundles]
    apply List.filter_congr
    intro entry listed
    have present : entry.1 ∈ s.backing.bundleIds := List.mem_map_of_mem listed
    rw [decide_eq_decide, mem_presentIds, and_iff_left present]
  · intro t spares
    apply spares.weaken
    intro id listed
    exact (mem_presentIds.mp listed).1

end Entries

/-! ## Withdrawal -/

namespace Component

variable (c : Component)

/-- `intersecting_pages`; `none` where it raises. -/
def intersectingPages (pageIds bundleIds : List Nat) : Option (List Bool) := do
  if bundleIds.any (c.layout.bundleCapacity ≤ ·) then none
  let selected := (List.range c.layout.bundleCapacity).map fun id => if id ∈ bundleIds then (1 : Int) else 0
  let sums := 0 :: cumsum selected
  let spans ← c.layout.bundleSpans (pageIds.map Int.ofNat)
  spans.mapM fun span => do
    let past ← KvVmmLayout.element sums span.2
    let first ← KvVmmLayout.element sums span.1
    some (decide (past ≠ first))

/-- Index a tensor of pages by a mask. -/
def masked (pages : List Nat) (flags : List Bool) : List Nat :=
  ((pages.zip flags).filter (·.2)).map Prod.fst

/-- `pages[~intersecting_pages(pages, bundle_ids)]`. -/
def excluding (bundleIds pages : List Nat) : Option (List Nat) := do
  let flags ← c.intersectingPages pages bundleIds
  some (masked pages (flags.map (!·)))

/-- `begin_retirement` with what the subclasses add; `none` where it raises. -/
def beginRetirement (bundleIds : List Nat) : Option Component := do
  if !c.retiringPages.isEmpty then none
  let exposed := c.upstream.getAllFreePages c.containers
  let pages := exposed ++ c.unavailablePages
  let retiring := masked pages (← c.intersectingPages pages bundleIds)
  let newUnavailable := masked exposed (← c.intersectingPages exposed bundleIds)
  let freePages ← c.excluding bundleIds c.containers.freePages
  let stagedPages ← c.containers.stagedPages.mapM (c.excluding bundleIds)
  some
    { c with
      containers := ⟨freePages, stagedPages⟩
      unavailablePages := c.unavailablePages ++ newUnavailable
      retiringPages := retiring }

/-- `finish_retirement`. -/
def finishRetirement : Component :=
  { c with retiringPages := [] }

/-- `clear`, where the upstream `clear` has set its free pages to `freed`; `none` where it
raises. -/
def clear (freed : List Nat) : Option Component := do
  if !c.retiringPages.isEmpty then none
  let counts ← c.layout.missingBundleCounts c.backing.bundleIds (freed.map Int.ofNat)
  some
    { c with
      containers := ⟨masked freed (counts.map (· = 0)), []⟩
      unavailablePages := masked freed (counts.map (· ≠ 0)) }

/-- Pages that touch some of the bundles. -/
def Meets (bundleIds : List Nat) (page : Nat) : Prop :=
  ∃ id ∈ bundleIds, c.layout.Touches page id

instance (bundleIds : List Nat) (page : Nat) : Decidable (c.Meets bundleIds page) :=
  inferInstanceAs (Decidable (∃ id ∈ bundleIds, c.layout.Touches page id))

variable {c} {pages bundleIds : List Nat}

theorem masked_map (flag : Nat → Bool) : masked pages (pages.map flag) = pages.filter flag := by
  induction pages with
  | nil => rfl
  | cons page pages ih =>
    rw [List.map_cons, masked, List.zip_cons_cons, List.filter_cons, List.filter_cons]
    cases flag page with
    | true => exact congrArg _ ih
    | false => exact ih

/-- The masks say which pages touch the bundles. -/
theorem intersectingPages_eq_some (converts : c.layout.Converts pages) (bounded : ∀ id ∈ bundleIds, id < c.layout.bundleCapacity)
    (used : ∀ page ∈ pages, page ≤ c.layout.lastPage) :
    c.intersectingPages pages bundleIds = some (pages.map fun page => decide (c.Meets bundleIds page)) := by
  have within : bundleIds.any (c.layout.bundleCapacity ≤ ·) = false := by
    rw [List.any_eq_false]
    intro id listed
    have := bounded id listed
    simp only [decide_eq_true_eq]
    omega
  rw [intersectingPages, within, KvVmmLayout.bundleSpans, if_pos converts.scalars]
  have values : ∀ page ∈ pages,
      ((KvVmmLayout.element
              (0 :: cumsum ((List.range c.layout.bundleCapacity).map fun id => if id ∈ bundleIds then (1 : Int) else 0))
              (c.layout.bundleSpan page).2).bind fun past =>
          (KvVmmLayout.element
                (0 :: cumsum ((List.range c.layout.bundleCapacity).map fun id => if id ∈ bundleIds then (1 : Int) else 0))
                (c.layout.bundleSpan page).1).bind fun first => some (decide (past ≠ first))) =
        some (decide (c.Meets bundleIds page)) := by
    intro page listed
    have ordered := (c.layout.bundlesOf_ordered page).le
    have upper := KvVmmLayout.bundlesOf_le_capacity (used page listed)
    have sums (bound : Nat) (inside : bound ≤ c.layout.bundleCapacity) :
        KvVmmLayout.element
            (0 :: cumsum ((List.range c.layout.bundleCapacity).map fun id => if id ∈ bundleIds then (1 : Int) else 0)) bound =
          some (((List.range c.layout.bundleCapacity).map fun id => if id ∈ bundleIds then (1 : Int) else 0).take bound).sum := by
      rw [KvVmmLayout.element, if_pos (by omega), Int.toNat_natCast]
      apply getElem?_zero_cumsum
      rw [List.length_map, List.length_range]
      exact inside
    have counted := take_sum_sub ordered upper fun id => decide (id ∈ bundleIds)
    simp only [decide_eq_true_eq] at counted
    have converted := converts.pages page listed
    rw [KvVmmLayout.PageConverts] at converted
    rw [converted, sums _ upper, Option.bind_some, sums _ (ordered.trans upper),
      Option.bind_some, Option.some.injEq, decide_eq_decide, ← sub_ne_zero, counted, Int.natCast_ne_zero, ← Nat.pos_iff_ne_zero,
      List.countP_pos_iff]
    apply exists_congr
    intro id
    have ends : (c.layout.bundlesOf page).1 + ((c.layout.bundlesOf page).2 - (c.layout.bundlesOf page).1) =
        (c.layout.bundlesOf page).2 := by omega
    rw [List.mem_range'_1, ends, decide_eq_true_eq, KvVmmLayout.touches_iff]
    exact and_comm
  change List.mapM _ _ = _
  rw [List.mapM_map, List.mapM_map]
  exact mapM_some values

theorem excluding_eq_some (converts : c.layout.Converts pages) (bounded : ∀ id ∈ bundleIds, id < c.layout.bundleCapacity)
    (used : ∀ page ∈ pages, page ≤ c.layout.lastPage) :
    c.excluding bundleIds pages = some (pages.filter fun page => ¬c.Meets bundleIds page) := by
  rw [excluding, intersectingPages_eq_some converts bounded used, Option.bind_eq_bind, Option.bind_some, List.map_map]
  change some (masked pages (pages.map fun page => !decide (c.Meets bundleIds page))) = _
  rw [masked_map]
  congr 1
  apply List.filter_congr
  intro page _
  rw [decide_not]

/-- A component whose free pages that meet the bundles are withdrawn. -/
structure Withdrawn (bundleIds : List Nat) (c c' : Component) : Prop where
  upstream : c'.upstream = c.upstream
  layout : c'.layout = c.layout
  backing : c'.backing = c.backing
  pages : c'.containers.pages = c.containers.pages.filter fun page => ¬c.Meets bundleIds page
  unavailable : ∃ exposed : List Nat, exposed.Perm c.containers.pages ∧
    c'.unavailablePages = c.unavailablePages ++ exposed.filter fun page => c.Meets bundleIds page
  retiring : ∀ page, page ∈ c'.retiringPages ↔ page ∈ c.containers.pages ++ c.unavailablePages ∧ c.Meets bundleIds page

theorem beginRetirement_eq_some (converts : c.layout.Converts (c.containers.pages ++ c.unavailablePages))
    (idle : c.retiringPages = []) (bounded : ∀ id ∈ bundleIds, id < c.layout.bundleCapacity)
    (used : ∀ page ∈ c.containers.pages ++ c.unavailablePages, page ≤ c.layout.lastPage) :
    ∃ c', c.beginRetirement bundleIds = some c' ∧ Withdrawn bundleIds c c' := by
  have perm := c.upstream.all_perm c.containers
  have exposed : c.upstream.getAllFreePages c.containers ⊆ c.containers.pages ++ c.unavailablePages := by
    intro page listed
    exact List.mem_append_left _ (perm.mem_iff.mp listed)
  have all : c.upstream.getAllFreePages c.containers ++ c.unavailablePages ⊆ c.containers.pages ++ c.unavailablePages := by
    intro page listed
    rcases List.mem_append.mp listed with free | unavailable
    · exact exposed free
    · exact List.mem_append_right _ unavailable
  have freePages : c.containers.freePages ⊆ c.containers.pages ++ c.unavailablePages := by
    intro page listed
    exact List.mem_append_left _ (List.mem_append_left _ listed)
  have staged : c.containers.stagedPages.mapM (c.excluding bundleIds) =
      some (c.containers.stagedPages.map fun pages => pages.filter fun page => ¬c.Meets bundleIds page) := by
    apply mapM_some
    intro pages listed
    have within : pages ⊆ c.containers.pages ++ c.unavailablePages := by
      intro page member
      exact List.mem_append_left _ (List.mem_append_right _ (List.mem_flatten.mpr ⟨pages, listed, member⟩))
    exact excluding_eq_some (converts.mono within) bounded fun page member => used page (within member)
  rw [beginRetirement, idle]
  dsimp only
  rw [intersectingPages_eq_some (converts.mono all) bounded fun page member => used page (all member),
    intersectingPages_eq_some (converts.mono exposed) bounded fun page member => used page (exposed member),
    excluding_eq_some (converts.mono freePages) bounded fun page member => used page (freePages member), staged]
  refine ⟨_, rfl, rfl, rfl, rfl, ?_, ⟨_, perm, ?_⟩, ?_⟩
  · simp only [FreeContainers.pages, List.filter_append, List.filter_flatten]
  · dsimp only
    rw [masked_map]
  · intro page
    dsimp only
    rw [masked_map, List.mem_filter, decide_eq_true_eq, List.mem_append, perm.mem_iff, List.mem_append]

/-- Clearing splits the pages by their backing. -/
theorem clear_eq_some {freed : List Nat} (converts : c.layout.Converts freed) (idle : c.retiringPages = [])
    (bounded : ∀ id ∈ c.backing.bundleIds, id < c.layout.bundleCapacity) (used : ∀ page ∈ freed, page ≤ c.layout.lastPage) :
    ∃ c', c.clear freed = some c' ∧ c'.upstream = c.upstream ∧ c'.layout = c.layout ∧ c'.backing = c.backing ∧
      c'.retiringPages = [] ∧ c'.containers.pages = freed.filter (fun page => c.layout.missingCount c.backing.bundleIds page = 0) ∧
        c'.unavailablePages = freed.filter (fun page => c.layout.missingCount c.backing.bundleIds page ≠ 0) := by
  rw [clear, idle, KvVmmLayout.missingBundleCounts_eq_some converts bounded used]
  refine ⟨_, rfl, rfl, rfl, rfl, rfl, ?_, ?_⟩
  · dsimp only [FreeContainers.pages]
    rw [List.map_map, List.flatten_nil, List.append_nil, masked_map]
    apply List.filter_congr
    intro page _
    simp
  · dsimp only
    rw [List.map_map, masked_map]
    apply List.filter_congr
    intro page _
    simp

end Component

/-! ## Retirement over the components -/

namespace SglangElasticContextState

/-- The loop of `empty_bundle_ids`, with what is left to release. -/
def selectEmpty : Nat → List Component → Option (List (List Nat))
  | _, [] => some []
  | remaining, c :: rest => do
    let free := (c.upstream.getAllFreePages c.containers ++ c.unavailablePages).filter (· ∉ c.retiringPages)
    let empty := (← c.layout.emptyBundles c.backing.bundleIds (free.map Int.ofNat)).mergeSort
    let bundles := empty.take ((remaining + c.layout.bundleBytes - 1) / c.layout.bundleBytes)
    let later ← selectEmpty (remaining - bundles.length * c.layout.bundleBytes) rest
    some (bundles :: later)

/-- `empty_bundle_ids`; `none` where it raises. -/
def emptyBundleIds (s : SglangElasticContextState) (releaseBytes : Nat) : Option (List (List Nat)) :=
  if releaseBytes = 0 then some (s.components.map fun _ => []) else selectEmpty releaseBytes s.components

/-- Run a method of one component that touches no backing. -/
def onComponent (index : Nat) (f : Component → Option Component) : EStateM Failure SglangElasticContextState Unit := fun s =>
  match s.components[index]? with
  | none => .error .value s
  | some c =>
    match f c with
    | none => .error .runtime s
    | some c' => .ok () { s with components := s.components.set index c' }

/-- The loop of `apply_reclaim`. -/
def applyReclaim : Nat → List (List Nat) → EStateM Failure SglangElasticContextState Unit
  | _, [] => return ()
  | index, bundles :: rest => do
    if !bundles.isEmpty then onComponent index (·.beginRetirement bundles)
    applyReclaim (index + 1) rest

/-- The loop of `finish_retirement`, with the bytes released. -/
def finishRetirement : Nat → List (List Nat) → EStateM Failure SglangElasticContextState Nat
  | _, [] => return 0
  | index, bundles :: rest => do
    if bundles.isEmpty then finishRetirement (index + 1) rest
    else
      let released ← onBacking index (unmap bundles)
      onComponent index fun c => some c.finishRetirement
      return released + (← finishRetirement (index + 1) rest)

/-- Every component has its property. -/
def Holds (P : Nat → Component → Prop) (s : SglangElasticContextState) : Prop :=
  ∀ index c, s.components[index]? = some c → P index c

section Holds

variable {P Q R : Nat → Component → Prop} {s t : SglangElasticContextState} {index : Nat} {c : Component}

theorem Holds.mono (holds : Holds P s) (weaker : ∀ index c, P index c → Q index c) : Holds Q s :=
  fun index c found => weaker index c (holds index c found)

/-- One component is replaced. -/
theorem Holds.set (holds : Holds P s) (others : ∀ other c, other ≠ index → P other c → Q other c) (here : Q index c)
    (replaced : t.components = s.components.set index c) : Holds Q t := by
  intro other c' found
  rw [replaced, List.getElem?_set] at found
  split at found
  · next same =>
    subst same
    split at found
    · obtain rfl := Option.some.inj found
      exact here
    · cases found
  · next other' =>
    exact others other c' (fun same => other' same.symm) (holds other c' found)

/-- A loop over the components has brought those before `index` from `P` to `Q`. -/
def Divided (P Q : Nat → Component → Prop) (index : Nat) : Nat → Component → Prop :=
  fun i c => if i < index then Q i c else P i c

theorem Holds.divided (holds : Holds P s) : Holds (Divided P Q 0) s := by
  intro i c found
  rw [Divided, if_neg (Nat.not_lt_zero i)]
  exact holds i c found

theorem Holds.here (holds : Holds (Divided P Q index) s) (found : s.components[index]? = some c) : P index c := by
  have here := holds index c found
  rwa [Divided, if_neg (lt_irrefl index)] at here

theorem Holds.advance (holds : Holds (Divided P Q index) s) (here : Q index c)
    (replaced : t.components = s.components.set index c) : Holds (Divided P Q (index + 1)) t := by
  refine Holds.set (Q := Divided P Q (index + 1)) holds ?_ ?_ replaced
  · intro other c' ne before
    have same : other < index + 1 ↔ other < index := by omega
    simpa only [Divided, same] using before
  · rw [Divided, if_pos (Nat.lt_succ_self index)]
    exact here

/-- Nothing is to be done for a component. -/
theorem Holds.skip (holds : Holds (Divided P Q index) s) (already : ∀ c, P index c → Q index c) :
    Holds (Divided P Q (index + 1)) s := by
  intro i c found
  have before := holds i c found
  rw [Divided] at before ⊢
  split at before
  · rw [if_pos (by omega)]
    exact before
  · split
    · obtain rfl : i = index := by omega
      exact already c before
    · exact before

theorem Holds.finished (holds : Holds (Divided P Q index) s) (past : s.components.length ≤ index) : Holds Q s := by
  intro i c found
  have inside := (List.getElem?_eq_some_iff.mp found).1
  have done := holds i c found
  rwa [Divided, if_pos (inside.trans_le past)] at done

theorem wp_onComponent {f : Component → Option Component} {c' : Component}
    {post : Unit → SglangElasticContextState → Prop} {raised : SglangElasticContextState → Prop}
    (found : s.components[index]? = some c) (returns : f c = some c')
    (holds : post () { s with components := s.components.set index c' }) : wp (onComponent index f) post raised s := by
  unfold wp onComponent
  rw [found]
  dsimp only
  rw [returns]
  exact holds

end Holds

end SglangElasticContextState

end CrossPool.Ecs.Vmm
