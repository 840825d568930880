import CrossPool.Ecs.Retirement

/-!
# Custody of pages

Every page of a component is free, unavailable or with a caller, and no bundle is
unmapped under a page that is free or with a caller. This holds throughout: while pages
move, while bundles are mapped and published, between the two steps of a retirement, and
also after a driver call has failed in the middle of any of these.
-/

namespace CrossPool.Ecs.Vmm

open CrossPool.Lib

/-! ## Invariants of a component -/

/-- What holds even of a component whose last operation raised: the pages are divided
among the containers, the unavailable pages and the callers, and all that free pages,
callers' pages and the dummy page touch is mapped. -/
structure Safe (c : Component) (taken : List Nat) : Prop where
  partition : (c.containers.pages ++ c.unavailablePages ++ taken).Perm (List.range' 1 c.layout.lastPage)
  retiring : c.retiringPages ⊆ c.unavailablePages
  backed : ∀ page ∈ c.containers.pages ++ taken, ∀ id, c.layout.Touches page id → (id, ⟨true⟩) ∈ c.backing.bundles
  floor : ∀ id < c.layout.floorBundles, (id, ⟨true⟩) ∈ c.backing.bundles

/-- What holds of a backing between operations. -/
structure Founded (layout : KvVmmLayout) (backing : KvVmmBacking) : Prop where
  profile : backing.profile = layout.profile
  reserved : backing.reserved
  distinct : backing.bundleIds.Nodup
  bounded : ∀ id ∈ backing.bundleIds, id < layout.bundleCapacity
  mapped : ∀ entry ∈ backing.bundles, entry.2 = ⟨true⟩
  floor : ∀ id < layout.floorBundles, id ∈ backing.bundleIds

/-- What holds of a component between operations, while the bundles of `pending` are being
retired. -/
structure Kept (c : Component) (taken pending : List Nat) : Prop where
  fits : c.layout.Fits
  founded : Founded c.layout c.backing
  partition : (c.containers.pages ++ c.unavailablePages ++ taken).Perm (List.range' 1 c.layout.lastPage)
  retiring : ∀ page, page ∈ c.retiringPages ↔ page ∈ c.unavailablePages ∧ c.Meets pending page
  backed : ∀ page ∈ c.containers.pages ++ taken, c.Backed page
  pinned : ∀ id ∈ pending, c.layout.floorBundles ≤ id
  spared : ∀ page ∈ c.containers.pages ++ taken, ¬c.Meets pending page

/-- The same for any layout whose pages convert without wrapping, and whatever else is known of it. -/
structure Tended (P : KvVmmLayout → Prop) (c : Component) (taken pending : List Nat) : Prop where
  layout : P c.layout
  converts : c.layout.Converts (List.range' 1 c.layout.lastPage)
  founded : Founded c.layout c.backing
  partition : (c.containers.pages ++ c.unavailablePages ++ taken).Perm (List.range' 1 c.layout.lastPage)
  retiring : ∀ page, page ∈ c.retiringPages ↔ page ∈ c.unavailablePages ∧ c.Meets pending page
  backed : ∀ page ∈ c.containers.pages ++ taken, c.Backed page
  pinned : ∀ id ∈ pending, c.layout.floorBundles ≤ id
  spared : ∀ page ∈ c.containers.pages ++ taken, ¬c.Meets pending page

section Tended

variable {P : KvVmmLayout → Prop} {c c' : Component} {taken pending : List Nat} {s t : Scope}

theorem Founded.entry {layout : KvVmmLayout} {backing : KvVmmBacking} (founded : Founded layout backing) {id : Nat}
    (listed : id ∈ backing.bundleIds) : (id, ⟨true⟩) ∈ backing.bundles := by
  obtain ⟨entry, member, rfl⟩ := List.mem_map.mp listed
  have mapped := founded.mapped entry member
  rw [← mapped]
  exact member

theorem Tended.kept (tended : Tended KvVmmLayout.Fits c taken pending) : Kept c taken pending :=
  ⟨tended.layout, tended.founded, tended.partition, tended.retiring, tended.backed, tended.pinned, tended.spared⟩

theorem Tended.safe (kept : Tended P c taken pending) : Safe c taken := by
  refine ⟨kept.partition, ?_, ?_, ?_⟩
  · intro page held
    exact ((kept.retiring page).mp held).1
  · intro page listed id touches
    exact kept.founded.entry (kept.backed page listed id touches)
  · intro id low
    exact kept.founded.entry (kept.founded.floor id low)

theorem Tended.used (kept : Tended P c taken pending) {page : Nat}
    (listed : page ∈ c.containers.pages ++ c.unavailablePages ++ taken) : 1 ≤ page ∧ page ≤ c.layout.lastPage := by
  have within := List.mem_range'_1.mp (kept.partition.mem_iff.mp listed)
  omega

theorem Tended.mem_range (kept : Tended P c taken pending) {page : Nat}
    (listed : page ∈ c.containers.pages ++ c.unavailablePages ++ taken) : page ∈ List.range' 1 c.layout.lastPage :=
  kept.partition.mem_iff.mp listed

theorem Tended.valid (kept : Tended P c taken pending) : c.Valid where
  profile := kept.founded.profile
  reserved := kept.founded.reserved
  distinct := by
    have distinct := kept.partition.nodup_iff.mpr List.nodup_range'
    exact (List.nodup_append.mp distinct).1
  used := by
    intro page listed
    exact kept.used (List.mem_append_left _ listed)
  retiring := by
    intro page held
    exact ((kept.retiring page).mp held).1
  bundles_distinct := kept.founded.distinct
  bundles_bounded := kept.founded.bounded
  backed := by
    intro page listed
    exact kept.backed page (List.mem_append_left _ listed)

/-- Pages move between the containers and the callers. -/
theorem Tended.move (kept : Tended P c taken pending) {containers : FreeContainers} {taken' : List Nat}
    (moved : (containers.pages ++ taken').Perm (c.containers.pages ++ taken)) :
    Tended P { c with containers := containers } taken' pending := by
  refine ⟨kept.layout, kept.converts, kept.founded, ?_, kept.retiring, ?_, kept.pinned, ?_⟩
  · refine List.Perm.trans ?_ kept.partition
    have swap : ∀ free taken : List Nat,
        (free ++ c.unavailablePages ++ taken).Perm (free ++ taken ++ c.unavailablePages) := by
      intro free taken
      rw [List.append_assoc, List.append_assoc]
      exact List.Perm.append_left _ List.perm_append_comm
    exact (swap _ _).trans ((moved.append_right _).trans (swap _ _).symm)
  · intro page listed
    exact kept.backed page (moved.mem_iff.mp listed)
  · intro page listed
    exact kept.spared page (moved.mem_iff.mp listed)

/-- Bundles are mapped. -/
theorem Tended.map (kept : Tended P c taken pending) {ids : List Nat} {backing : KvVmmBacking}
    (profile : backing.profile = c.backing.profile) (reserved : backing.reserved = c.backing.reserved)
    (within : ∀ id ∈ ids, id < c.backing.profile.bundleCapacity)
    (bundles : backing.bundles = c.backing.bundles ++ (missingIds c.backing ids).map (·, ⟨true⟩)) :
    Tended P { c with backing := backing } taken pending := by
  obtain ⟨distinct, members⟩ := missingIds_spec c.backing ids
  have founded := kept.founded
  have whole : backing.bundleIds = c.backing.bundleIds ++ missingIds c.backing ids := by
    rw [KvVmmBacking.bundleIds, bundles, List.map_append, List.map_map]
    exact congrArg _ (List.map_id _)
  refine ⟨kept.layout, kept.converts, ⟨?_, ?_, ?_, ?_, ?_, ?_⟩, kept.partition, kept.retiring, ?_, kept.pinned, kept.spared⟩
  · exact profile.trans founded.profile
  · exact reserved.trans founded.reserved
  · rw [whole]
    apply List.nodup_append.mpr
    refine ⟨founded.distinct, distinct, ?_⟩
    intro id old other new same
    exact ((members other).mp new).2 (same ▸ old)
  · intro id listed
    rw [whole] at listed
    rcases List.mem_append.mp listed with old | new
    · exact founded.bounded id old
    · have bound := within id ((members id).mp new).1
      rw [founded.profile] at bound
      exact bound
  · intro entry listed
    rw [bundles] at listed
    rcases List.mem_append.mp listed with old | new
    · exact founded.mapped entry old
    · obtain ⟨id, -, rfl⟩ := List.mem_map.mp new
      rfl
  · intro id low
    rw [whole]
    exact List.mem_append_left _ (founded.floor id low)
  · intro page listed id touches
    change id ∈ backing.bundleIds
    rw [whole]
    exact List.mem_append_left _ (kept.backed page listed id touches)

/-- A backing that is unchanged but for its history. -/
theorem Tended.same (kept : Tended P c taken pending) {backing : KvVmmBacking}
    (profile : backing.profile = c.backing.profile) (reserved : backing.reserved = c.backing.reserved)
    (bundles : backing.bundles = c.backing.bundles) : Tended P { c with backing := backing } taken pending := by
  have none : missingIds c.backing [] = [] := by simp [missingIds]
  refine @Tended.map P c taken pending kept [] backing profile reserved ?_ ?_
  · intro id impossible
    cases impossible
  · rw [none, List.map_nil, List.append_nil, bundles]

/-- A method of the backing raised, and at most bundles being retired were touched. -/
theorem Tended.raise (kept : Tended P c taken pending) {ids : List Nat} (fewer : ids ⊆ pending) {backing : KvVmmBacking}
    (spares : ∀ entry ∈ c.backing.bundles, entry.1 ∉ ids → entry ∈ backing.bundles) :
    Safe { c with backing := backing } taken := by
  have safe := kept.safe
  refine ⟨safe.partition, safe.retiring, ?_, ?_⟩
  · intro page listed id touches
    apply spares _ (safe.backed page listed id touches)
    intro pends
    exact kept.spared page listed ⟨id, fewer pends, touches⟩
  · intro id low
    apply spares _ (safe.floor id low)
    intro pends
    exact absurd (kept.pinned id (fewer pends)) (not_le.mpr low)

/-- Backed pages that are not being retired become free. -/
theorem Tended.expose {pages : List Nat} (kept : Tended P c taken pending)
    (ready : ∀ page ∈ pages, (page ∈ c.unavailablePages ∧ page ∉ c.retiringPages) ∧ c.Backed page)
    (layout : c'.layout = c.layout) (backing : c'.backing = c.backing) (retiring : c'.retiringPages = c.retiringPages)
    (unavailable : c'.unavailablePages = c.unavailablePages.filter (· ∉ pages))
    (moved : c'.containers.pages.Perm (c.containers.pages ++ pages))
    (whole : (c'.containers.pages ++ c'.unavailablePages).Perm (c.containers.pages ++ c.unavailablePages)) :
    Tended P c' taken pending := by
  have meets : ∀ page, c'.Meets pending page ↔ c.Meets pending page := by
    intro page
    rw [Component.Meets, Component.Meets, layout]
  have free : ∀ page ∈ c'.containers.pages ++ taken, page ∈ c.containers.pages ++ taken ∨ page ∈ pages := by
    intro page listed
    rcases List.mem_append.mp listed with inside | outside
    · rcases List.mem_append.mp (moved.mem_iff.mp inside) with old | new
      · exact .inl (List.mem_append_left _ old)
      · exact .inr new
    · exact .inl (List.mem_append_right _ outside)
  refine ⟨?_, ?_, ?_, ?_, ?_, ?_, ?_, ?_⟩
  · rw [layout]
    exact kept.layout
  · rw [layout]
    exact kept.converts
  · rw [layout, backing]
    exact kept.founded
  · rw [layout]
    exact (whole.append_right _).trans kept.partition
  · intro page
    rw [retiring, kept.retiring page, meets, unavailable, List.mem_filter, decide_eq_true_eq]
    constructor
    · rintro ⟨unavailable, pends⟩
      exact ⟨⟨unavailable, fun listed => (ready page listed).1.2 ((kept.retiring page).mpr ⟨unavailable, pends⟩)⟩, pends⟩
    · rintro ⟨⟨unavailable, -⟩, pends⟩
      exact ⟨unavailable, pends⟩
  · intro page listed
    rw [Component.Backed, layout, backing]
    rcases free page listed with old | new
    · exact kept.backed page old
    · exact (ready page new).2
  · rw [layout]
    exact kept.pinned
  · intro page listed
    rw [meets]
    rcases free page listed with old | new
    · exact kept.spared page old
    · intro pends
      obtain ⟨⟨unavailable, other⟩, -⟩ := ready page new
      exact other ((kept.retiring page).mpr ⟨unavailable, pends⟩)

/-- All backed pages are published. -/
theorem Tended.publish (kept : Tended P c taken pending) (published : Component.Published c c') :
    Tended P c' taken pending :=
  kept.expose (fun _ listed => Component.mem_backedCandidates.mp listed) published.layout published.backing
    published.retiring published.unavailable published.pages published.whole

/-- Publishing any pages raises or exposes backed ones. -/
theorem Tended.publishPages (kept : Tended P c taken pending) {pageIds : List Nat}
    (done : c.publishPages pageIds = some c') : Tended P c' taken pending := by
  have listed : ∀ page, page ∈ c.unavailablePages.filter (· ∈ pageIds) ↔ page ∈ c.unavailablePages ∧ page ∈ pageIds := by
    intro page
    rw [List.mem_filter, decide_eq_true_eq]
  rw [Component.publishPages] at done
  split at done
  · obtain rfl := Option.some.inj done
    exact kept
  split at done
  · cases done
  next free =>
  have inside : ∀ page ∈ c.unavailablePages.filter (· ∈ pageIds), 1 ≤ page ∧ page ≤ c.layout.lastPage := by
    intro page member
    exact kept.used (List.mem_append_left _ (List.mem_append_right _ ((listed page).mp member).1))
  rw [KvVmmLayout.missingBundleCounts_eq_some
    (kept.converts.mono fun page member => by
      have := inside page member
      rw [List.mem_range'_1]
      omega)
    kept.founded.bounded fun page member => (inside page member).2] at done
  dsimp only [Option.bind_eq_bind, Option.bind_some] at done
  split at done
  · cases done
  next whole =>
  obtain rfl := Option.some.inj done
  have remain : c.unavailablePages.filter (· ∉ pageIds) =
      c.unavailablePages.filter (· ∉ c.unavailablePages.filter (· ∈ pageIds)) := by
    apply List.filter_congr
    intro page member
    simp [member]
  refine @Tended.expose P c _ taken pending (c.unavailablePages.filter (· ∈ pageIds)) kept ?_ rfl rfl rfl remain
    (c.upstream.free_perm _ _) ?_
  · intro page member
    refine ⟨⟨((listed page).mp member).1, ?_⟩, ?_⟩
    · intro retiring
      exact free (List.any_eq_true.mpr ⟨page, member, decide_eq_true retiring⟩)
    · apply KvVmmLayout.missingCount_eq_zero.mp
      by_contra missing
      apply whole
      apply List.any_eq_true.mpr
      refine ⟨(c.layout.missingCount c.backing.bundleIds page : Int), List.mem_map_of_mem member, ?_⟩
      simpa using missing
  · refine ((c.upstream.free_perm _ _).append_right _).trans ?_
    rw [List.append_assoc]
    apply List.Perm.append_left
    have parts := List.filter_append_perm (fun page => decide (page ∈ pageIds)) c.unavailablePages
    simpa only [decide_not] using parts

/-- Free pages are withdrawn from bundles that no caller's page touches. -/
theorem Tended.withdraw (kept : Tended P c taken []) (withdrawn : Component.Withdrawn pending c c')
    (high : ∀ id ∈ pending, c.layout.floorBundles ≤ id) (unowned : ∀ page ∈ taken, ¬c.Meets pending page) :
    Tended P c' taken pending := by
  obtain ⟨exposed, perm, unavailable⟩ := withdrawn.unavailable
  have meets : ∀ page, c'.Meets pending page ↔ c.Meets pending page := by
    intro page
    rw [Component.Meets, Component.Meets, withdrawn.layout]
  refine ⟨?_, ?_, ?_, ?_, ?_, ?_, ?_, ?_⟩
  · rw [withdrawn.layout]
    exact kept.layout
  · rw [withdrawn.layout]
    exact kept.converts
  · rw [withdrawn.layout, withdrawn.backing]
    exact kept.founded
  · rw [withdrawn.layout]
    refine List.Perm.trans ?_ kept.partition
    apply List.Perm.append_right
    rw [withdrawn.pages, unavailable]
    calc
      (c.containers.pages.filter (fun page => ¬c.Meets pending page) ++
            (c.unavailablePages ++ exposed.filter fun page => c.Meets pending page)).Perm
          (c.containers.pages.filter (fun page => ¬c.Meets pending page) ++
            (exposed.filter (fun page => c.Meets pending page) ++ c.unavailablePages)) :=
        List.Perm.append_left _ List.perm_append_comm
      _ = c.containers.pages.filter (fun page => ¬c.Meets pending page) ++
            exposed.filter (fun page => c.Meets pending page) ++ c.unavailablePages := (List.append_assoc ..).symm
      List.Perm _ (c.containers.pages ++ c.unavailablePages) := by
        apply List.Perm.append_right
        refine (List.Perm.append_left _ (perm.filter _)).trans ?_
        refine List.perm_append_comm.trans ?_
        have parts := List.filter_append_perm (fun page => decide (c.Meets pending page)) c.containers.pages
        simpa only [decide_not] using parts
  · intro page
    rw [withdrawn.retiring, meets, unavailable, List.mem_append, List.mem_append, List.mem_filter, perm.mem_iff,
      decide_eq_true_eq]
    tauto
  · intro page listed
    rw [Component.Backed, withdrawn.layout, withdrawn.backing]
    apply kept.backed page
    rw [withdrawn.pages] at listed
    rcases List.mem_append.mp listed with inside | outside
    · exact List.mem_append_left _ (List.mem_of_mem_filter inside)
    · exact List.mem_append_right _ outside
  · rw [withdrawn.layout]
    exact high
  · intro page listed
    rw [meets]
    rw [withdrawn.pages] at listed
    rcases List.mem_append.mp listed with inside | outside
    · exact of_decide_eq_true (List.mem_filter.mp inside).2
    · exact unowned page outside

/-- The bundles are gone, and the pages held back may be used again. -/
theorem Tended.finish (kept : Tended P c taken pending) {backing : KvVmmBacking}
    (profile : backing.profile = c.backing.profile) (reserved : backing.reserved = c.backing.reserved)
    (bundles : backing.bundles = c.backing.bundles.filter fun entry => entry.1 ∉ pending) :
    Tended P { c with backing := backing, retiringPages := [] } taken [] := by
  have founded := kept.founded
  have present : ∀ id, id ∈ backing.bundleIds ↔ id ∈ c.backing.bundleIds ∧ id ∉ pending := by
    intro id
    have ids : backing.bundleIds = c.backing.bundleIds.filter fun id => id ∉ pending := by
      rw [KvVmmBacking.bundleIds, bundles, KvVmmBacking.bundleIds, List.filter_map]
      rfl
    rw [ids, List.mem_filter, decide_eq_true_eq]
  refine ⟨kept.layout, kept.converts, ⟨?_, ?_, ?_, ?_, ?_, ?_⟩, kept.partition, ?_, ?_, ?_, ?_⟩
  · exact profile.trans founded.profile
  · exact reserved.trans founded.reserved
  · rw [KvVmmBacking.bundleIds, bundles]
    exact founded.distinct.sublist (List.filter_sublist.map _)
  · intro id listed
    exact founded.bounded id ((present id).mp listed).1
  · intro entry listed
    rw [bundles] at listed
    exact founded.mapped entry (List.mem_of_mem_filter listed)
  · intro id low
    rw [present]
    refine ⟨founded.floor id low, ?_⟩
    intro pends
    exact absurd (kept.pinned id pends) (not_le.mpr low)
  · intro page
    constructor
    · intro impossible
      cases impossible
    · rintro ⟨-, id, impossible, -⟩
      cases impossible
  · intro page listed id touches
    apply (present id).mpr
    refine ⟨kept.backed page listed id touches, ?_⟩
    intro pends
    exact kept.spared page listed ⟨id, pends, touches⟩
  · intro id impossible
    cases impossible
  · rintro page - ⟨id, impossible, -⟩
    cases impossible

/-- All pages come back. -/
theorem Tended.cleared (good : P c.layout) (converts : c.layout.Converts (List.range' 1 c.layout.lastPage))
    (founded : Founded c.layout c.backing) (idle : c.retiringPages = [])
    (high : ∀ id ∈ pending, c.layout.floorBundles ≤ id)
    (spared : ∀ page, 1 ≤ page → page ≤ c.layout.lastPage → ¬c.Meets pending page) {freed : List Nat}
    (all : freed.Perm (List.range' 1 c.layout.lastPage)) : ∃ c', c.clear freed = some c' ∧ c'.layout = c.layout ∧
      Tended P c' [] pending := by
  have used : ∀ page ∈ freed, 1 ≤ page ∧ page ≤ c.layout.lastPage := by
    intro page listed
    have within := List.mem_range'_1.mp (all.mem_iff.mp listed)
    omega
  obtain ⟨c', ran, -, layout, backing, retiring, free, unavailable⟩ :=
    Component.clear_eq_some (converts.mono all.subset) idle founded.bounded fun page listed => (used page listed).2
  have divided : (c'.containers.pages ++ c'.unavailablePages).Perm freed := by
    rw [free, unavailable]
    have parts := List.filter_append_perm (fun page => decide (c.layout.missingCount c.backing.bundleIds page = 0)) freed
    simpa only [← decide_not] using parts
  have listed : ∀ page, page ∈ c'.containers.pages ++ c'.unavailablePages → ¬c'.Meets pending page := by
    intro page member
    rw [Component.Meets, layout]
    obtain ⟨lower, upper⟩ := used page (divided.mem_iff.mp member)
    exact spared page lower upper
  refine ⟨c', ran, layout, ?_, ?_, ?_, ?_, ?_, ?_, ?_, ?_⟩
  · rw [layout]
    exact good
  · rw [layout]
    exact converts
  · rw [layout, backing]
    exact founded
  · rw [List.append_nil, layout]
    exact divided.trans all
  · intro page
    rw [retiring]
    constructor
    · intro impossible
      cases impossible
    · rintro ⟨member, pends⟩
      exact absurd pends (listed page (List.mem_append_right _ member))
  · intro page member
    rw [List.append_nil, free, List.mem_filter, decide_eq_true_eq, KvVmmLayout.missingCount_eq_zero] at member
    rw [Component.Backed, layout, backing]
    exact member.2
  · rw [layout]
    exact high
  · intro page member
    rw [List.append_nil] at member
    exact listed page (List.mem_append_left _ member)

end Tended

/-- The free pages whose bundles may be empty. -/
def Component.free (c : Component) : List Nat :=
  (c.upstream.getAllFreePages c.containers ++ c.unavailablePages).filter (· ∉ c.retiringPages)

/-- What choosing empty bundles of the component converts does not wrap. -/
def Component.ReclaimConverts (c : Component) : Prop :=
  c.layout.Unwrapped c.backing.bundleIds c.free

/-- Bundles that may be retired: mapped, not pinned, and under no page of a caller. -/
def Selectable (c : Component) (taken bundleIds : List Nat) : Prop :=
  ∀ id ∈ bundleIds, id ∈ c.backing.bundleIds ∧ c.layout.floorBundles ≤ id ∧ ∀ page ∈ taken, ¬c.layout.Touches page id

theorem Tended.reclaimConverts {c : Component} {taken pending : List Nat}
    (tended : Tended KvVmmLayout.Fits c taken pending) : c.ReclaimConverts := by
  apply tended.layout.unwrapped tended.founded.bounded
  intro page listed
  have whole := List.mem_of_mem_filter listed
  have inside : page ∈ c.containers.pages ++ c.unavailablePages := by
    rcases List.mem_append.mp whole with free | unavailable
    · exact List.mem_append_left _ ((c.upstream.all_perm c.containers).mem_iff.mp free)
    · exact List.mem_append_right _ unavailable
  exact (tended.used (List.mem_append_left _ inside)).2

/-- The empty bundles of a component may be retired. -/
theorem Tended.emptyBundles {P : KvVmmLayout → Prop} {c : Component} {taken : List Nat} (kept : Tended P c taken [])
    (converting : c.ReclaimConverts) :
    ∃ empty, c.layout.emptyBundles c.backing.bundleIds (c.free.map Int.ofNat) = some empty ∧ Selectable c taken empty := by
  have valid := kept.valid
  have perm := (c.upstream.all_perm c.containers).append_right c.unavailablePages
  have whole : ∀ page ∈ c.free, page ∈ c.containers.pages ++ c.unavailablePages := fun _ listed =>
    perm.mem_iff.mp (List.mem_of_mem_filter listed)
  obtain ⟨empty, found, -, members⟩ := KvVmmLayout.emptyBundles_eq_some converting kept.founded.bounded
    ((perm.nodup_iff.mpr valid.distinct).filter _) fun page listed => valid.used page (whole page listed)
  refine ⟨empty, found, ?_⟩
  intro id listed
  obtain ⟨mapped, high, only⟩ := (members id).mp listed
  refine ⟨mapped, high, ?_⟩
  intro page owned
  obtain ⟨lower, upper⟩ := kept.used (List.mem_append_right _ owned)
  apply only page lower upper
  intro free
  have distinct := kept.partition.nodup_iff.mpr List.nodup_range'
  exact (List.nodup_append.mp distinct).2.2 page (whole page free) page owned rfl

/-! ## Operations over all components -/

namespace SglangElasticContextState

/-- Every component is kept, with the pages its callers have and the bundles being retired. -/
def Keeps (P : KvVmmLayout → Prop) (taken pending : Nat → List Nat) (s : SglangElasticContextState) : Prop :=
  s.Holds fun index c => Tended P c (taken index) (pending index)

def Secures (taken : Nat → List Nat) (s : SglangElasticContextState) : Prop :=
  s.Holds fun index c => Safe c (taken index)

section Operations

variable {P : KvVmmLayout → Prop} {taken pending : Nat → List Nat} {s t : SglangElasticContextState} {index : Nat}
  {c : Component}

theorem Keeps.secures (keeps : Keeps P taken pending s) : Secures taken s :=
  Holds.mono keeps fun _ _ kept => kept.safe

theorem Keeps.set (keeps : Keeps P taken pending s) (here : Tended P c (taken index) (pending index))
    (replaced : t.components = s.components.set index c) : Keeps P taken pending t :=
  Holds.set keeps (fun _ _ _ kept => kept) here replaced

theorem Secures.set (secures : Secures taken s) (here : Safe c (taken index))
    (replaced : t.components = s.components.set index c) : Secures taken t :=
  Holds.set secures (fun _ _ _ safe => safe) here replaced

/-- A method of a backing keeps all components or raises and leaves them secure, if it does
so for the component it runs on. -/
theorem Keeps.wp_onBacking {α : Type} {m : M α} {post : α → SglangElasticContextState → Prop}
    (keeps : Keeps P taken pending s) (method : ∀ c, s.components[index]? = some c → Tended P c (taken index) (pending index) →
      wp m (fun a t => post a (s.install index c t)) (fun t => Safe { c with backing := t.backing } (taken index))
        (s.scope c)) :
    wp (onBacking index m) post (Secures taken) s := by
  cases found : s.components[index]? with
  | none =>
    unfold wp onBacking
    rw [found]
    exact keeps.secures
  | some c =>
    apply SglangElasticContextState.wp_onBacking found
    refine wp_mono (method c found (keeps index c found)) (fun _ _ holds => holds) ?_
    intro t safe
    exact keeps.secures.set safe rfl

/-- Mapping keeps all components. -/
theorem Keeps.wp_tryMap (keeps : Keeps P taken pending s) (index : Nat) (bundleIds : List Nat) :
    wp (onBacking index (tryMap bundleIds)) (fun _ t => Keeps P taken pending t) (Secures taken) s := by
  apply keeps.wp_onBacking
  intro c found kept
  refine wp_mono wp_tryMap_entries ?_ ?_
  · rintro mapped t ⟨profile, reserved, entries⟩
    refine keeps.set ?_ rfl
    cases mapped with
    | true => exact kept.map profile reserved entries.1 entries.2
    | false => exact kept.same profile reserved entries
  · intro t spares
    exact kept.raise (List.nil_subset _) spares.kept

theorem Keeps.wp_mapPlans (plans : List SglangPagePlan) (keeps : Keeps P taken pending s) :
    wp (mapPlans index plans) (fun _ t => Keeps P taken pending t) (Secures taken) s := by
  induction plans generalizing s index with
  | nil => exact keeps
  | cons plan rest ih =>
    rw [mapPlans, wp_bind]
    refine wp_mono (keeps.wp_tryMap index plan.missingBundleIds) ?_ fun _ secures => secures
    intro mapped t after
    cases mapped with
    | true => exact ih after
    | false => exact after

theorem Keeps.wp_publishBacked (keeps : Keeps P taken pending s) :
    wp (publishBacked index) (fun _ t => Keeps P taken pending t) (Secures taken) s := by
  cases found : s.components[index]? with
  | none =>
    unfold wp publishBacked
    rw [found]
    exact keeps.secures
  | some c =>
    have kept := keeps index c found
    have converts : c.layout.Converts c.candidates := kept.converts.mono fun page member =>
      kept.mem_range (List.mem_append_left _ (List.mem_append_right _ (Component.mem_candidates.mp member).1))
    obtain ⟨c', published, ran⟩ := publishBacked_ok found kept.valid converts
    unfold wp
    rw [ran]
    exact keeps.set (kept.publish published) rfl

/-- A preparation keeps all components, whether it succeeds or not. -/
theorem Keeps.wp_prepareAllocation (pageCounts : List Nat) (keeps : Keeps P taken pending s) :
    wp (prepareAllocation pageCounts) (fun _ t => Keeps P taken pending t) (Secures taken) s := by
  rw [prepareAllocation, wp_bind, wp_get]
  split
  · exact keeps.secures
  · exact keeps
  · next complete _ =>
    split
    · exact keeps
    · rw [wp_bind]
      refine wp_mono (keeps.wp_mapPlans complete) ?_ fun _ secures => secures
      intro mapped t after
      cases mapped with
      | false => exact after
      | true =>
        simp only [Bool.not_true, Bool.false_eq_true, if_false, wp_bind, wp_get, wp_pure]
        exact wp_forM (Keeps P taken pending) (fun _ _ _ before => before.wp_publishBacked) after

/-- Each component selects bundles that may be retired. -/
theorem selectEmpty_eq_some {components : List Component} {taken : Nat → List Nat}
    (each : ∀ index c, components[index]? = some c → Tended P c (taken index) [])
    (converting : ∀ c ∈ components, c.ReclaimConverts) (remaining : Nat) :
    ∃ bundleIds, selectEmpty remaining components = some bundleIds ∧ bundleIds.length = components.length ∧
      ∀ index c, components[index]? = some c → Selectable c (taken index) (bundleIds.getD index []) := by
  induction components generalizing taken remaining with
  | nil => exact ⟨[], rfl, rfl, by simp⟩
  | cons c rest ih =>
    obtain ⟨found, empty, selectable⟩ := (each 0 c rfl).emptyBundles (converting c List.mem_cons_self)
    rw [Component.free] at empty
    obtain ⟨later, selected, length, others⟩ :=
      @ih (fun index => taken (index + 1)) (fun index c found => each (index + 1) c found)
        (fun c member => converting c (List.mem_cons_of_mem _ member))
        (remaining -
          (found.mergeSort.take ((remaining + c.layout.bundleBytes - 1) / c.layout.bundleBytes)).length *
            c.layout.bundleBytes)
    refine
      ⟨found.mergeSort.take ((remaining + c.layout.bundleBytes - 1) / c.layout.bundleBytes) :: later, ?_, ?_, ?_⟩
    · rw [selectEmpty]
      dsimp only
      rw [empty, Option.bind_eq_bind, Option.bind_some, selected]
      rfl
    · rw [List.length_cons, length, List.length_cons]
    · intro index c' at'
      cases index with
      | succ index => exact others index c' at'
      | zero =>
        obtain rfl := Option.some.inj at'
        intro id listed
        exact selectable id ((List.mergeSort_perm found _).mem_iff.mp (List.mem_of_mem_take listed))

theorem emptyBundleIds_eq_some (keeps : Keeps P taken (fun _ => []) s) {releaseBytes : Nat}
    (converting : releaseBytes ≠ 0 → ∀ c ∈ s.components, c.ReclaimConverts) :
    ∃ bundleIds, s.emptyBundleIds releaseBytes = some bundleIds ∧ bundleIds.length = s.components.length ∧
      ∀ index c, s.components[index]? = some c → Selectable c (taken index) (bundleIds.getD index []) := by
  rw [emptyBundleIds]
  split
  · refine ⟨_, rfl, by rw [List.length_map], ?_⟩
    intro index c found id listed
    rw [List.getD_eq_getElem?_getD, List.getElem?_map, found] at listed
    cases listed
  · next some' =>
    exact selectEmpty_eq_some keeps (converting some') releaseBytes

/-- The withdrawal does not raise, and then the bundles are being retired. -/
theorem wp_applyReclaim (bundleIds : List (List Nat)) (size : s.components.length = index + bundleIds.length)
    (pends : ∀ i, pending (index + i) = bundleIds.getD i [])
    (holds :
      s.Holds
        (Divided (fun i c => Tended P c (taken i) [] ∧ Selectable c (taken i) (pending i))
          (fun i c => Tended P c (taken i) (pending i)) index)) :
    wp (applyReclaim index bundleIds) (fun _ t => Keeps P taken pending t) (fun _ => False) s := by
  induction bundleIds generalizing index s with
  | nil => exact holds.finished size.le
  | cons bundles rest ih =>
    rw [List.length_cons] at size
    have inside : index < s.components.length := by omega
    have found : s.components[index]? = some s.components[index] := List.getElem?_eq_getElem inside
    obtain ⟨kept, selected⟩ := holds.here found
    have first : pending index = bundles := pends 0
    have later : ∀ i, pending (index + 1 + i) = rest.getD i [] := by
      intro i
      have := pends (i + 1)
      rwa [← Nat.add_assoc, Nat.add_right_comm] at this
    rw [applyReclaim]
    split
    · rw [wp_bind]
      obtain ⟨c', ran, withdrawn⟩ := @Component.beginRetirement_eq_some _ bundles
        (kept.converts.mono fun page member => kept.mem_range (List.mem_append_left _ member))
        (by
          apply List.eq_nil_iff_forall_not_mem.mpr
          intro page held
          obtain ⟨-, id, impossible, -⟩ := (kept.retiring page).mp held
          cases impossible)
        (by
          intro id listed
          exact kept.founded.bounded id (selected id (first ▸ listed)).1)
        (by
          intro page listed
          exact (kept.used (List.mem_append_left _ listed)).2)
      apply wp_onComponent found ran
      apply ih
      · change (s.components.set index c').length = _
        rw [List.length_set]
        omega
      · exact later
      · apply holds.advance (c := c') ?_ rfl
        rw [← first] at withdrawn
        apply kept.withdraw withdrawn
        · intro id listed
          exact (selected id listed).2.1
        · rintro page owned ⟨id, listed, touches⟩
          exact (selected id listed).2.2 page owned touches
    · next none =>
      have empty : pending index = [] := by simpa [first] using none
      apply ih
      · omega
      · exact later
      · apply holds.skip
        rintro c ⟨kept, -⟩
        rw [empty]
        exact kept

/-- The bundles are unmapped and held back no more, or the call raised. -/
theorem wp_finishRetirement (bundleIds : List (List Nat)) (pends : ∀ i, pending (index + i) = bundleIds.getD i [])
    (holds : s.Holds (Divided (fun i c => Tended P c (taken i) (pending i)) (fun i c => Tended P c (taken i) []) index)) :
    wp (finishRetirement index bundleIds) (fun _ t => Keeps P taken (fun _ => []) t) (Secures taken) s := by
  have secure : ∀ (index : Nat) (t : SglangElasticContextState),
      t.Holds (Divided (fun i c => Tended P c (taken i) (pending i)) (fun i c => Tended P c (taken i) []) index) →
        Secures taken t := by
    intro index t divided
    refine Holds.mono (Q := fun i c => Safe c (taken i)) divided ?_
    intro i c either
    rw [Divided] at either
    split at either
    · exact either.safe
    · exact either.safe
  induction bundleIds generalizing index s with
  | nil =>
    intro i c found
    have either := holds i c found
    rw [Divided] at either
    split at either
    · exact either
    · have none := pends (i - index)
      rw [Nat.add_sub_cancel' (by omega)] at none
      rw [none] at either
      exact either
  | cons bundles rest ih =>
    have first : pending index = bundles := pends 0
    have later : ∀ i, pending (index + 1 + i) = rest.getD i [] := by
      intro i
      have := pends (i + 1)
      rwa [← Nat.add_assoc, Nat.add_right_comm] at this
    rw [finishRetirement]
    split
    · next none =>
      have empty : pending index = [] := by simpa [first] using none
      apply ih later
      apply holds.skip
      intro c kept
      rw [empty] at kept
      exact kept
    rw [wp_bind]
    cases found : s.components[index]? with
    | none =>
      unfold wp onBacking
      rw [found]
      exact secure index s holds
    | some c =>
      have kept := holds.here found
      apply SglangElasticContextState.wp_onBacking found
      refine wp_mono wp_unmap_entries ?_ ?_
      · intro released t retired
        rw [wp_bind]
        have again : (s.install index c t).components[index]? = some { c with backing := t.backing } := by
          change (s.components.set index _)[index]? = _
          rw [List.getElem?_set_self (List.getElem?_eq_some_iff.mp found).1]
        apply wp_onComponent (f := fun c => some c.finishRetirement) again rfl
        rw [wp_bind]
        refine wp_mono (ih later ?_) (fun _ _ done => done) fun _ secures => secures
        apply holds.advance (c := Component.finishRetirement { c with backing := t.backing })
        · rw [← first] at retired
          exact kept.finish retired.profile retired.reserved retired.bundles
        · change (s.components.set index _).set index _ = _
          rw [List.set_set]
      · intro t spares
        apply (secure index s holds).set ?_ rfl
        exact kept.raise (first ▸ List.Subset.refl _) spares.kept

end Operations

end SglangElasticContextState

/-! ## Construction -/

/-- A construction that returns has mapped the floor. -/
theorem wp_construct_entries {profile : PoolProfile} {s : Scope} (fresh : s.backing = ⟨profile, false, []⟩) :
    wp construct
      (fun _ t =>
        t.backing.profile = profile ∧ t.backing.reserved = true ∧
          (∀ id ∈ List.range profile.floorBundles, id < profile.bundleCapacity) ∧
            t.backing.bundles = (missingIds s.backing (List.range profile.floorBundles)).map (·, ⟨true⟩))
      (fun _ => True) s := by
  have recovers : ∀ (u : Scope) (error : Failure) (post : Unit → Scope → Prop), wp (recover error) post (fun _ => True) u := by
    intro u error post
    simp only [recover, wp_bind, wp_get]
    split
    · rw [wp_bind]
      unfold wp
      split
      · exact trivial
      · exact trivial
    · trivial
  simp only [construct, wp_bind]
  apply wp_checkDriver _ trivial
  simp only [wp_modifyBacking, fresh]
  apply wp_attempt
  simp only [bootstrap, wp_bind]
  apply wp_checkDriver
  · simp only [wp_get]
    refine wp_mono wp_tryMap_entries ?_ ?_
    · rintro mapped u ⟨same, reserved, entries⟩
      cases mapped with
      | false => exact fun error => recovers u error _
      | true =>
        refine ⟨same, reserved, entries.1, ?_⟩
        rw [entries.2]
        exact List.nil_append _
    · intro u _ error
      exact recovers u error _
  · intro error
    exact recovers _ error _

theorem founded_construct {layout : KvVmmLayout} {s t : Scope} (fresh : s.backing = ⟨layout.profile, false, []⟩)
    (ran : construct s = .ok () t) : Founded layout t.backing := by
  have builds := wp_construct_entries fresh
  unfold wp at builds
  rw [ran] at builds
  obtain ⟨profile, reserved, bounded, bundles⟩ := builds
  obtain ⟨distinct, members⟩ := missingIds_spec s.backing (List.range layout.floorBundles)
  have none : s.backing.bundleIds = [] := by rw [fresh]; rfl
  have ids : t.backing.bundleIds = missingIds s.backing (List.range layout.floorBundles) := by
    rw [KvVmmBacking.bundleIds, bundles, List.map_map]
    exact List.map_id _
  have floor : ∀ id, id ∈ t.backing.bundleIds ↔ id ∈ List.range layout.floorBundles := by
    intro id
    rw [ids, members, none, and_iff_left List.not_mem_nil]
  refine ⟨profile, reserved, ?_, ?_, ?_, ?_⟩
  · rw [ids]
    exact distinct
  · intro id listed
    exact bounded id ((floor id).mp listed)
  · intro entry listed
    rw [bundles] at listed
    obtain ⟨id, -, rfl⟩ := List.mem_map.mp listed
    rfl
  · intro id low
    exact (floor id).mpr (List.mem_range.mpr low)

/-- A component whose backing has just been constructed and whose allocator has been
cleared, on a layout whose conversions do not wrap. -/
structure Component.Created (c : Component) : Prop where
  fits : c.layout.Fits
  constructed : ∃ s t : Scope, s.backing = ⟨c.layout.profile, false, []⟩ ∧ construct s = .ok () t ∧ c.backing = t.backing
  cleared : ∃ freed, freed.Perm (List.range' 1 c.layout.lastPage) ∧
    (⟨c.upstream, c.layout, c.backing, ⟨[], []⟩, [], []⟩ : Component).clear freed = some c

/-- The same for any layout. -/
structure Component.Built (c : Component) : Prop where
  constructed : ∃ s t : Scope, s.backing = ⟨c.layout.profile, false, []⟩ ∧ construct s = .ok () t ∧ c.backing = t.backing
  cleared : ∃ freed, freed.Perm (List.range' 1 c.layout.lastPage) ∧
    (⟨c.upstream, c.layout, c.backing, ⟨[], []⟩, [], []⟩ : Component).clear freed = some c

theorem Component.Built.tended {P : KvVmmLayout → Prop} {c : Component} (built : c.Built) (good : P c.layout)
    (converts : c.layout.Converts (List.range' 1 c.layout.lastPage)) : Tended P c [] [] := by
  obtain ⟨⟨s, t, fresh, ran, backing⟩, freed, all, cleared⟩ := built
  have founded : Founded c.layout c.backing := backing ▸ founded_construct fresh ran
  obtain ⟨c', again, -, kept⟩ := @Tended.cleared P ⟨c.upstream, c.layout, c.backing, ⟨[], []⟩, [], []⟩ [] good converts
    founded rfl (by
      intro id impossible
      cases impossible)
    (by
      rintro page - - ⟨id, impossible, -⟩
      cases impossible) _ all
  rw [cleared] at again
  obtain rfl := Option.some.inj again
  exact kept

theorem Component.Created.tended {c : Component} (created : c.Created) : Tended KvVmmLayout.Fits c [] [] := by
  apply Component.Built.tended ⟨created.constructed, created.cleared⟩ created.fits
  apply created.fits.converts
  intro page listed
  have := List.mem_range'_1.mp listed
  omega

/-! ## Runs -/

/-- The elastic state of a rank, the pages its callers have, those freed in a group that
has not ended, and the bundles being retired. A raise that no one handles halts it. -/
structure Custody where
  state : SglangElasticContextState
  owned : Nat → List Nat
  deferred : Nat → List Nat
  retirement : Option (List (List Nat))
  halted : Bool

/-- What the upstream allocators, their callers and the capacity coordinator do. Which
pages an allocation takes, and where freed pages are put, is up to upstream. Bundles may
also be mapped, pages published and some of the empty bundles retired for one component. -/
inductive Action where
  | setLimit (limitBytes : Nat)
  | prepareAllocation (pageCounts : List Nat)
  | alloc (index : Nat) (pages : List Nat) (containers : FreeContainers)
  | free (index : Nat) (pages rest : List Nat) (containers : FreeContainers)
  | freeInGroup (index : Nat) (pages rest : List Nat)
  | freeGroupEnd (index : Nat) (containers : FreeContainers)
  | clear (index : Nat) (freed : List Nat)
  | tryMap (index : Nat) (bundleIds : List Nat)
  | publishPages (index : Nat) (pageIds : List Nat)
  | beginRetirement (index : Nat) (bundleIds : List Nat)
  | reclaim (releaseBytes : Nat)
  | finishRetirement

namespace Custody

def taken (s : Custody) (index : Nat) : List Nat :=
  s.owned index ++ s.deferred index

def pending (s : Custody) (index : Nat) : List Nat :=
  (s.retirement.getD []).getD index []

/-- Replace the free containers of one component. -/
def putContainers (s : Custody) (index : Nat) (c : Component) (containers : FreeContainers) : SglangElasticContextState :=
  { s.state with components := s.state.components.set index { c with containers := containers } }

/-- Withdraw the pages of bundles that are to be retired. -/
def retire (s : Custody) (bundleIds : List (List Nat)) : Option Custody :=
  match SglangElasticContextState.applyReclaim 0 bundleIds s.state with
  | .ok _ t => some { s with state := t, retirement := some bundleIds }
  | .error _ t => some { s with state := t, halted := true }

/-- One action; `none` where it is not possible. -/
def next (s : Custody) (action : Action) : Option Custody :=
  if s.halted then none
  else
    match action with
    | .setLimit limitBytes =>
      if s.state.quota.chargedBytes ≤ limitBytes then some { s with state.quota.limitBytes := limitBytes } else none
    | .prepareAllocation pageCounts =>
      match SglangElasticContextState.prepareAllocation pageCounts s.state with
      | .ok _ t => some { s with state := t }
      | .error _ t => some { s with state := t, halted := true }
    | .alloc index pages containers => do
      let c ← s.state.components[index]?
      if c.containers.pages.Perm (pages ++ containers.pages) then
        some
          { s with
            state := s.putContainers index c containers
            owned := Function.update s.owned index (pages ++ s.owned index) }
      else none
    | .free index pages rest containers => do
      let c ← s.state.components[index]?
      if (s.owned index).Perm (pages ++ rest) ∧ containers.pages.Perm (c.containers.pages ++ pages) then
        some { s with state := s.putContainers index c containers, owned := Function.update s.owned index rest }
      else none
    | .freeInGroup index pages rest =>
      if (s.owned index).Perm (pages ++ rest) then
        some
          { s with
            owned := Function.update s.owned index rest
            deferred := Function.update s.deferred index (pages ++ s.deferred index) }
      else none
    | .freeGroupEnd index containers => do
      let c ← s.state.components[index]?
      if containers.pages.Perm (c.containers.pages ++ s.deferred index) then
        some { s with state := s.putContainers index c containers, deferred := Function.update s.deferred index [] }
      else none
    | .clear index freed => do
      let c ← s.state.components[index]?
      if freed.Perm (List.range' 1 c.layout.lastPage) then
        match c.clear freed with
        | none => some { s with halted := true }
        | some c' =>
          some
            { s with
              state.components := s.state.components.set index c'
              owned := Function.update s.owned index []
              deferred := Function.update s.deferred index [] }
      else none
    | .tryMap index bundleIds =>
      match SglangElasticContextState.onBacking index (Vmm.tryMap bundleIds) s.state with
      | .ok _ t => some { s with state := t }
      | .error _ t => some { s with state := t, halted := true }
    | .publishPages index pageIds => do
      let c ← s.state.components[index]?
      match c.publishPages pageIds with
      | none => some { s with halted := true }
      | some c' => some { s with state.components := s.state.components.set index c' }
    | .beginRetirement index bundleIds => do
      let c ← s.state.components[index]?
      if s.retirement.isSome then none
      else
        match c.layout.emptyBundles c.backing.bundleIds (c.free.map Int.ofNat) with
        | none => some { s with halted := true }
        | some empty =>
          if bundleIds ⊆ empty then s.retire (s.state.components.mapIdx fun i _ => if i = index then bundleIds else [])
          else none
    | .reclaim releaseBytes =>
      if s.retirement.isSome then none
      else
        match s.state.emptyBundleIds releaseBytes with
        | none => some { s with halted := true }
        | some bundleIds =>
          if bundleIds.all (·.isEmpty) then some s else s.retire bundleIds
    | .finishRetirement => do
      let bundleIds ← s.retirement
      match SglangElasticContextState.finishRetirement 0 bundleIds s.state with
      | .ok _ t => some { s with state := t, retirement := none }
      | .error _ t => some { s with state := t, halted := true }

/-- All components are created, no page is taken and nothing is being retired. -/
def system : System Custody Action where
  init s := (∀ c ∈ s.state.components, c.Created) ∧ (∀ index, s.taken index = []) ∧ s.retirement = none ∧ s.halted = false
  step s action t := s.next action = some t

/-- No conversion of the action wraps; the pages have been converted when the component was created. -/
def Converting (s : Custody) : Action → Prop
  | .beginRetirement index _ => ∀ c, s.state.components[index]? = some c → c.ReclaimConverts
  | .reclaim releaseBytes => releaseBytes ≠ 0 → ∀ c ∈ s.state.components, c.ReclaimConverts
  | _ => True

/-- The components of a state are secure, and kept as long as nothing has raised. -/
structure Sound (P : KvVmmLayout → Prop) (s : Custody) : Prop where
  secure : s.state.Secures s.taken
  keeps : s.halted = false → s.state.Keeps P s.taken s.pending

section Step

open SglangElasticContextState

variable {P : KvVmmLayout → Prop} {s t : Custody} {index : Nat} {c : Component}

theorem sound_of_keeps (keeps : s.state.Keeps P s.taken s.pending) : Sound P s :=
  ⟨keeps.secures, fun _ => keeps⟩

theorem sound_of_halted (secure : s.state.Secures s.taken) (halted : s.halted = true) : Sound P s := by
  refine ⟨secure, ?_⟩
  intro running
  rw [halted] at running
  cases running

/-- Pages of one component move, and those of the others stay. -/
theorem Keeps.moves (keeps : s.state.Keeps P s.taken s.pending) {containers : FreeContainers}
    (found : s.state.components[index]? = some c) (moves : t.state = s.putContainers index c containers)
    (retires : t.retirement = s.retirement) (others : ∀ other, other ≠ index → t.taken other = s.taken other)
    (moved : (containers.pages ++ t.taken index).Perm (c.containers.pages ++ s.taken index)) :
    t.state.Keeps P t.taken t.pending := by
  have pends : t.pending = s.pending := by
    funext i
    rw [pending, retires, pending]
  rw [pends, moves]
  refine Holds.set (c := { c with containers := containers }) keeps ?_ ?_ rfl
  · intro other c' ne kept
    rwa [others other ne]
  · exact (keeps index c found).move moved

theorem Keeps.alloc {pages : List Nat} {containers : FreeContainers} (keeps : s.state.Keeps P s.taken s.pending)
    (running : s.halted = false) (done : s.next (.alloc index pages containers) = some t) :
    t.state.Keeps P t.taken t.pending := by
  rw [next, if_neg (by simp [running])] at done
  obtain ⟨c, found, done⟩ := Option.bind_eq_some_iff.mp done
  obtain ⟨perm, same⟩ := Option.ite_none_right_eq_some.mp done
  obtain rfl := Option.some.inj same
  refine Keeps.moves (t := _) keeps found rfl rfl ?_ ?_
  · intro other ne
    simp only [taken, Function.update_of_ne ne]
  · simp only [taken, Function.update_self]
    calc
      (containers.pages ++ (pages ++ s.owned index ++ s.deferred index)).Perm
          (containers.pages ++ pages ++ (s.owned index ++ s.deferred index)) := by
        rw [List.append_assoc, List.append_assoc]
      List.Perm _ (c.containers.pages ++ (s.owned index ++ s.deferred index)) := by
        apply List.Perm.append_right
        exact List.perm_append_comm.trans perm.symm

theorem Keeps.free {pages rest : List Nat} {containers : FreeContainers} (keeps : s.state.Keeps P s.taken s.pending)
    (running : s.halted = false) (done : s.next (.free index pages rest containers) = some t) :
    t.state.Keeps P t.taken t.pending := by
  rw [next, if_neg (by simp [running])] at done
  obtain ⟨c, found, done⟩ := Option.bind_eq_some_iff.mp done
  obtain ⟨⟨owns, perm⟩, same⟩ := Option.ite_none_right_eq_some.mp done
  obtain rfl := Option.some.inj same
  refine Keeps.moves (t := _) keeps found rfl rfl ?_ ?_
  · intro other ne
    simp only [taken, Function.update_of_ne ne]
  · simp only [taken, Function.update_self]
    calc
      (containers.pages ++ (rest ++ s.deferred index)).Perm (c.containers.pages ++ pages ++ (rest ++ s.deferred index)) :=
        perm.append_right _
      _ = c.containers.pages ++ (pages ++ rest ++ s.deferred index) := by simp only [List.append_assoc]
      List.Perm _ (c.containers.pages ++ (s.owned index ++ s.deferred index)) := by
        apply List.Perm.append_left
        exact owns.symm.append_right _

theorem Keeps.freeInGroup {pages rest : List Nat} (keeps : s.state.Keeps P s.taken s.pending) (running : s.halted = false)
    (done : s.next (.freeInGroup index pages rest) = some t) : t.state.Keeps P t.taken t.pending := by
  rw [next, if_neg (by simp [running])] at done
  obtain ⟨owns, same⟩ := Option.ite_none_right_eq_some.mp done
  obtain rfl := Option.some.inj same
  intro other c found
  have kept := keeps other c found
  by_cases here : other = index
  · subst here
    refine @Tended.move P c _ _ kept c.containers _ ?_
    apply List.Perm.append_left
    simp only [taken, Function.update_self]
    rw [← List.append_assoc]
    apply List.Perm.append_right
    exact List.perm_append_comm.trans owns.symm
  · simp only [taken, Function.update_of_ne here]
    exact kept

theorem Keeps.freeGroupEnd {containers : FreeContainers} (keeps : s.state.Keeps P s.taken s.pending)
    (running : s.halted = false) (done : s.next (.freeGroupEnd index containers) = some t) : t.state.Keeps P t.taken t.pending := by
  rw [next, if_neg (by simp [running])] at done
  obtain ⟨c, found, done⟩ := Option.bind_eq_some_iff.mp done
  obtain ⟨perm, same⟩ := Option.ite_none_right_eq_some.mp done
  obtain rfl := Option.some.inj same
  refine Keeps.moves (t := _) keeps found rfl rfl ?_ ?_
  · intro other ne
    simp only [taken, Function.update_of_ne ne]
  · simp only [taken, Function.update_self, List.append_nil]
    refine (perm.append_right _).trans ?_
    rw [List.append_assoc]
    apply List.Perm.append_left
    exact List.perm_append_comm

/-- Clearing keeps all components, and raises only while pages are held back. -/
theorem Keeps.clear {freed : List Nat} (keeps : s.state.Keeps P s.taken s.pending) (running : s.halted = false)
    (done : s.next (.clear index freed) = some t) :
    Sound P t ∧ (s.retirement = none → t.halted = false) := by
  rw [next, if_neg (by simp [running])] at done
  obtain ⟨c, found, done⟩ := Option.bind_eq_some_iff.mp done
  obtain ⟨all, done⟩ := Option.ite_none_right_eq_some.mp done
  have kept := keeps index c found
  by_cases idle : c.retiringPages = []
  · -- then no page at all touches what is being retired
    obtain ⟨c', ran, -, cleared⟩ := Tended.cleared kept.layout kept.converts kept.founded idle kept.pinned (by
      intro page lower upper pends
      have listed : page ∈ c.containers.pages ++ c.unavailablePages ++ s.taken index := by
        rw [kept.partition.mem_iff, List.mem_range'_1]
        omega
      rcases List.mem_append.mp listed with inside | owned
      · rcases List.mem_append.mp inside with free | unavailable
        · exact kept.spared page (List.mem_append_left _ free) pends
        · have held := (kept.retiring page).mpr ⟨unavailable, pends⟩
          rw [idle] at held
          cases held
      · exact kept.spared page (List.mem_append_right _ owned) pends) all
    rw [ran] at done
    obtain rfl := Option.some.inj done
    refine ⟨sound_of_keeps ?_, fun _ => running⟩
    refine Holds.set (c := c') keeps ?_ ?_ rfl
    · intro other c'' ne kept'
      simp only [taken, Function.update_of_ne ne]
      exact kept'
    · simp only [taken, Function.update_self, List.append_nil]
      exact cleared
  · have raises : c.clear freed = none := by
      rw [Component.clear]
      simp [idle]
    rw [raises] at done
    obtain rfl := Option.some.inj done
    refine ⟨sound_of_halted keeps.secures rfl, ?_⟩
    intro none
    obtain ⟨page, held⟩ := List.exists_mem_of_ne_nil _ idle
    obtain ⟨-, id, listed, -⟩ := (kept.retiring page).mp held
    rw [pending, none] at listed
    cases listed

theorem Keeps.tryMap {bundleIds : List Nat} (keeps : s.state.Keeps P s.taken s.pending) (running : s.halted = false)
    (done : s.next (.tryMap index bundleIds) = some t) : Sound P t := by
  rw [next, if_neg (by simp [running])] at done
  have maps := keeps.wp_tryMap index bundleIds
  unfold wp at maps
  split at done
  · next ran =>
    rw [ran] at maps
    obtain rfl := Option.some.inj done
    exact sound_of_keeps maps
  · next ran =>
    rw [ran] at maps
    obtain rfl := Option.some.inj done
    exact sound_of_halted maps rfl

theorem Keeps.publishPages {pageIds : List Nat} (keeps : s.state.Keeps P s.taken s.pending) (running : s.halted = false)
    (done : s.next (.publishPages index pageIds) = some t) : Sound P t := by
  rw [next, if_neg (by simp [running])] at done
  obtain ⟨c, found, done⟩ := Option.bind_eq_some_iff.mp done
  split at done
  · obtain rfl := Option.some.inj done
    exact sound_of_halted keeps.secures rfl
  · next c' ran =>
    obtain rfl := Option.some.inj done
    apply sound_of_keeps
    exact SglangElasticContextState.Keeps.set keeps ((keeps index c found).publishPages ran) rfl

/-- Bundles that may be retired are withdrawn from all components without a raise. -/
theorem Keeps.retire {bundleIds : List (List Nat)} (keeps : s.state.Keeps P s.taken fun _ => [])
    (size : bundleIds.length = s.state.components.length)
    (selected : ∀ i c, s.state.components[i]? = some c → Selectable c (s.taken i) (bundleIds.getD i []))
    (done : s.retire bundleIds = some t) : t.state.Keeps P t.taken t.pending ∧ t.halted = s.halted := by
  obtain ⟨_, u, ran, after⟩ := ok_of_wp (@wp_applyReclaim P s.taken (fun i => bundleIds.getD i []) s.state 0 bundleIds
    (by rw [size, Nat.zero_add]) (fun i => by rw [Nat.zero_add])
    (Holds.divided fun i c found => ⟨keeps i c found, selected i c found⟩))
  rw [Custody.retire, ran] at done
  obtain rfl := Option.some.inj done
  exact ⟨after, rfl⟩

/-- Some empty bundles of a component are withdrawn, and this does not raise either. -/
theorem Keeps.beginRetirement {bundleIds : List Nat} (keeps : s.state.Keeps P s.taken s.pending)
    (running : s.halted = false) (converting : s.Converting (.beginRetirement index bundleIds))
    (done : s.next (.beginRetirement index bundleIds) = some t) :
    t.state.Keeps P t.taken t.pending ∧ t.halted = false := by
  rw [next, if_neg (by simp [running])] at done
  obtain ⟨c, found, done⟩ := Option.bind_eq_some_iff.mp done
  split at done
  · cases done
  next idle =>
  have none : s.pending = fun _ => [] := by
    funext i
    rw [pending, show s.retirement = none by simpa using idle]
    rfl
  rw [none] at keeps
  obtain ⟨empty, chosen, selectable⟩ := (keeps index c found).emptyBundles (converting c found)
  rw [chosen] at done
  obtain ⟨some', done⟩ := Option.ite_none_right_eq_some.mp done
  obtain ⟨after, halted⟩ := Keeps.retire keeps (by rw [List.length_mapIdx]) (by
    intro i c' at' id listed
    rw [List.getD_eq_getElem?_getD, List.getElem?_mapIdx, at', Option.map_some, Option.getD_some] at listed
    split at listed
    · next here =>
      subst here
      obtain rfl := Option.some.inj (found.symm.trans at')
      exact selectable id (some' listed)
    · cases listed) done
  exact ⟨after, halted.trans running⟩

/-- A withdrawal keeps all components and does not raise. -/
theorem Keeps.reclaim {releaseBytes : Nat} (keeps : s.state.Keeps P s.taken s.pending) (running : s.halted = false)
    (converting : s.Converting (.reclaim releaseBytes))
    (done : s.next (.reclaim releaseBytes) = some t) : t.state.Keeps P t.taken t.pending ∧ t.halted = false := by
  rw [next, if_neg (by simp [running])] at done
  split at done
  · cases done
  · next idle =>
    have none : s.retirement = none := by simpa using idle
    have pends : s.pending = fun _ => [] := by
      funext i
      rw [pending, none]
      rfl
    rw [pends] at keeps
    obtain ⟨bundleIds, chosen, size, selected⟩ := emptyBundleIds_eq_some keeps converting
    rw [chosen] at done
    dsimp only at done
    split at done
    · obtain rfl := Option.some.inj done
      rw [pends]
      exact ⟨keeps, running⟩
    · obtain ⟨after, halted⟩ := Keeps.retire keeps size selected done
      exact ⟨after, halted.trans running⟩

theorem Keeps.finishRetirement (keeps : s.state.Keeps P s.taken s.pending) (running : s.halted = false)
    (done : s.next .finishRetirement = some t) : Sound P t := by
  rw [next, if_neg (by simp [running])] at done
  obtain ⟨bundleIds, retires, done⟩ := Option.bind_eq_some_iff.mp done
  have finishes := @wp_finishRetirement P s.taken s.pending s.state 0 bundleIds
    (fun i => by rw [Nat.zero_add, pending, retires]; rfl) (Holds.divided keeps)
  unfold wp at finishes
  split at done
  · next ran =>
    rw [ran] at finishes
    obtain rfl := Option.some.inj done
    exact sound_of_keeps finishes
  · next ran =>
    rw [ran] at finishes
    obtain rfl := Option.some.inj done
    exact sound_of_halted finishes rfl

theorem Keeps.prepareAllocation {pageCounts : List Nat} (keeps : s.state.Keeps P s.taken s.pending)
    (running : s.halted = false) (done : s.next (.prepareAllocation pageCounts) = some t) : Sound P t := by
  rw [next, if_neg (by simp [running])] at done
  have prepares := Keeps.wp_prepareAllocation pageCounts keeps
  unfold wp at prepares
  split at done
  · next ran =>
    rw [ran] at prepares
    obtain rfl := Option.some.inj done
    exact sound_of_keeps prepares
  · next ran =>
    rw [ran] at prepares
    obtain rfl := Option.some.inj done
    exact sound_of_halted prepares rfl

theorem Sound.step {action : Action} (sound : Sound P s) (converting : s.Converting action)
    (done : s.next action = some t) : Sound P t := by
  by_cases halted : s.halted
  · simp [next, halted] at done
  have running : s.halted = false := by simpa using halted
  have keeps := sound.keeps running
  cases action with
  | setLimit limitBytes =>
    rw [next, if_neg (by simp [running])] at done
    obtain ⟨-, same⟩ := Option.ite_none_right_eq_some.mp done
    obtain rfl := Option.some.inj same
    exact sound_of_keeps keeps
  | prepareAllocation pageCounts => exact Keeps.prepareAllocation keeps running done
  | alloc index pages containers => exact sound_of_keeps (Keeps.alloc keeps running done)
  | free index pages rest containers => exact sound_of_keeps (Keeps.free keeps running done)
  | freeInGroup index pages rest => exact sound_of_keeps (Keeps.freeInGroup keeps running done)
  | freeGroupEnd index containers => exact sound_of_keeps (Keeps.freeGroupEnd keeps running done)
  | clear index freed => exact (Keeps.clear keeps running done).1
  | tryMap index bundleIds => exact Keeps.tryMap keeps running done
  | publishPages index pageIds => exact Keeps.publishPages keeps running done
  | beginRetirement index bundleIds => exact sound_of_keeps (Keeps.beginRetirement keeps running converting done).1
  | reclaim releaseBytes => exact sound_of_keeps (Keeps.reclaim keeps running converting done).1
  | finishRetirement => exact Keeps.finishRetirement keeps running done

theorem converting_of_fits (keeps : s.state.Keeps KvVmmLayout.Fits s.taken s.pending) (action : Action) :
    s.Converting action := by
  cases action with
  | beginRetirement index bundleIds =>
    intro c found
    exact (keeps index c found).reclaimConverts
  | reclaim releaseBytes =>
    intro _ c member
    obtain ⟨index, found⟩ := List.mem_iff_getElem?.mp member
    exact (keeps index c found).reclaimConverts
  | _ => exact trivial

theorem sound_of_reachable (reached : system.Reachable s) : Sound KvVmmLayout.Fits s := by
  apply System.ReachableUnder.invariant ?_ ?_ reached
  · rintro s ⟨created, untaken, idle, -⟩
    apply sound_of_keeps
    intro index c found
    rw [untaken index, pending, idle]
    exact (created c (List.mem_of_getElem? found)).tended
  · intro s action t _ sound _ done
    by_cases halted : s.halted
    · simp [system, next, halted] at done
    · exact sound.step (converting_of_fits (sound.keeps (by simpa using halted)) action) done

end Step

/-- In every state of a run the pages of each component are divided among its containers,
its unavailable pages and the callers, and all that a free page, a caller's page or the
dummy page touches is mapped, whatever the driver has answered. While nothing has raised,
the bundles being retired are touched by pages held back only, no withdrawal raises, and
clearing raises only during a retirement. -/
theorem custody_safe {s : Custody} (reached : system.Reachable s) :
    (∀ index c, s.state.components[index]? = some c → Safe c (s.taken index)) ∧
      (s.halted = false →
        (∀ index c, s.state.components[index]? = some c → Kept c (s.taken index) (s.pending index)) ∧
          (∀ releaseBytes t, s.next (.reclaim releaseBytes) = some t → t.halted = false) ∧
            ∀ index freed t, s.retirement = none → s.next (.clear index freed) = some t → t.halted = false) := by
  have sound := sound_of_reachable reached
  refine ⟨sound.secure, ?_⟩
  intro running
  have keeps := sound.keeps running
  refine ⟨fun index c found => (keeps index c found).kept, ?_, ?_⟩
  · intro releaseBytes t done
    exact (Keeps.reclaim keeps running (converting_of_fits keeps _) done).2
  · intro index freed t idle done
    exact (Keeps.clear keeps running done).2 idle

/-- A backing that is constructed where the driver does not fail has its floor. -/
theorem constructed_idle (l : KvVmmLayout)
    (returns : (match construct ⟨⟨2 ^ 24, 0⟩, ⟨l.profile, false, []⟩, fun _ => .success, 0, false⟩ with
      | .ok _ _ => true
      | .error _ _ => false) = true)
    (floor : missingIds ⟨l.profile, false, []⟩ (List.range l.floorBundles) = [0]) :
    ∃ s t : Scope, s.backing = ⟨l.profile, false, []⟩ ∧ construct s = .ok () t ∧
      (SglangElasticContextState.idle l).backing = t.backing := by
  let s : Scope := ⟨⟨2 ^ 24, 0⟩, ⟨l.profile, false, []⟩, fun _ => .success, 0, false⟩
  have builds := @wp_construct_entries l.profile s rfl
  unfold wp at builds
  cases ran : construct s with
  | error e t =>
    rw [ran] at returns
    cases returns
  | ok a t =>
    rw [ran] at builds
    obtain ⟨profile, reserved, -, bundles⟩ := builds
    change t.backing.bundles = (missingIds s.backing (List.range l.floorBundles)).map _ at bundles
    rw [floor] at bundles
    refine ⟨s, t, rfl, ran, ?_⟩
    change KvVmmBacking.mk _ _ _ = KvVmmBacking.mk _ _ _
    rw [profile, reserved, bundles]
    rfl

theorem created_idle : (SglangElasticContextState.idle .fewTokens).Created := by
  have fits : KvVmmLayout.fewTokens.Fits := ⟨by decide, by decide, by decide, by decide⟩
  refine ⟨fits, constructed_idle .fewTokens (by decide +kernel) (by decide +kernel), [1, 2, 3], by decide, ?_⟩
  have counts : KvVmmLayout.fewTokens.missingBundleCounts [0] ([1, 2, 3].map Int.ofNat) =
      some ([1, 2, 3].map fun page => (KvVmmLayout.fewTokens.missingCount [0] page : Int)) :=
    KvVmmLayout.missingBundleCounts_eq_some (fits.converts (by decide)) (by decide) (by decide)
  unfold Component.clear
  rw [if_neg (by decide)]
  change Option.bind (KvVmmLayout.fewTokens.missingBundleCounts [0] ([1, 2, 3].map Int.ofNat)) _ = _
  rw [counts]
  rfl

/-- Two pages are backed and taken; one comes back in a group, and its bundle is retired. -/
theorem retires :
    ∃ s, system.Reachable s ∧ s.taken 0 = [2] ∧
      ∃ c, s.state.components[0]? = some c ∧ c.backing.bundleIds = [0, 2] ∧ c.unavailablePages = [3, 1] := by
  let start : Custody :=
    ⟨{ SglangElasticContextState.started with quota := ⟨2 ^ 24, 2 ^ 21⟩ }, fun _ => [], fun _ => [], none, false⟩
  have starts : system.Reachable start := by
    refine .start ⟨?_, fun _ => rfl, rfl, rfl⟩
    intro c member
    obtain rfl := List.mem_singleton.mp member
    exact created_idle
  obtain ⟨s, reached, holds⟩ :=
    System.ReachableUnder.run next (fun _ _ _ done => ⟨trivial, done⟩) starts
      [.prepareAllocation [1], .alloc 0 [1] ⟨[], []⟩, .prepareAllocation [1], .alloc 0 [2] ⟨[], []⟩, .freeInGroup 0 [1] [2],
        .freeGroupEnd 0 ⟨[], [[1]]⟩, .reclaim (2 ^ 21), .finishRetirement]
      (fun s =>
        s.taken 0 = [2] && (s.state.components[0]?).any fun c => c.backing.bundleIds = [0, 2] && c.unavailablePages = [3, 1])
      (by decide +kernel)
  rw [Bool.and_eq_true, decide_eq_true_eq, Option.any_eq_true] at holds
  obtain ⟨taken, c, found, known⟩ := holds
  rw [Bool.and_eq_true, decide_eq_true_eq, decide_eq_true_eq] at known
  exact ⟨s, reached, taken, c, found, known⟩

theorem custody_safe_retires :
    ∃ s, system.Reachable s ∧ s.taken 0 = [2] ∧
      ∃ c, s.state.components[0]? = some c ∧ c.backing.bundleIds = [0, 2] ∧ c.unavailablePages = [3, 1] ∧ Safe c [2] := by
  obtain ⟨s, reached, taken, c, found, bundles, unavailable⟩ := retires
  have safe := (custody_safe reached).1 0 c found
  rw [taken] at safe
  exact ⟨s, reached, taken, c, found, bundles, unavailable, safe⟩

/-! ## Layouts of any size -/

/-- The same over components on layouts of which no bound is known. -/
def layouts (good : KvVmmLayout → Prop) : System Custody Action where
  init s :=
    (∀ c ∈ s.state.components, c.Built ∧ good c.layout) ∧ (∀ index, s.taken index = []) ∧ s.retirement = none ∧
      s.halted = false
  step s action t := s.next action = some t

/-- Where the pages of each layout convert without wrapping, and so does what each
withdrawal converts, the pages are divided and backed as before, whatever raises; and while
nothing has raised, no page that is free or with a caller touches what is being retired. -/
theorem custody_kept {s : Custody}
    (reached : (layouts fun l => l.Converts (List.range' 1 l.lastPage)).ReachableUnder Converting s) :
    (∀ index c, s.state.components[index]? = some c → Safe c (s.taken index)) ∧
      (s.halted = false → ∀ index c, s.state.components[index]? = some c →
        ∀ page ∈ c.containers.pages ++ s.taken index, ¬c.Meets (s.pending index) page) := by
  have sound : Sound (fun _ => True) s := by
    apply System.ReachableUnder.invariant ?_ ?_ reached
    · rintro s ⟨built, untaken, idle, -⟩
      apply sound_of_keeps
      intro index c found
      rw [untaken index, pending, idle]
      obtain ⟨built, converts⟩ := built c (List.mem_of_getElem? found)
      exact built.tended trivial converts
    · intro s action t _ sound converting done
      exact sound.step converting done
  refine ⟨sound.secure, ?_⟩
  intro running index c found
  exact (sound.keeps running index c found).spared

/-- On the layouts that fit, every run converts without wrapping. -/
theorem converting_of_system {s : Custody} (reached : system.Reachable s) :
    (layouts fun l => l.Converts (List.range' 1 l.lastPage)).ReachableUnder Converting s := by
  induction reached with
  | start init =>
    obtain ⟨created, rest⟩ := init
    refine .start ⟨?_, rest⟩
    intro c member
    refine ⟨⟨(created c member).constructed, (created c member).cleared⟩, ?_⟩
    exact (created c member).tended.converts
  | @next s t action before _ done ih =>
    refine ih.next ?_ done
    by_cases halted : s.halted
    · simp [system, next, halted] at done
    · exact converting_of_fits ((sound_of_reachable before).keeps (by simpa using halted)) action

theorem custody_kept_retires :
    ∃ s, (layouts fun l => l.Converts (List.range' 1 l.lastPage)).ReachableUnder Converting s ∧ s.taken 0 = [2] ∧
      ∃ c, s.state.components[0]? = some c ∧ c.backing.bundleIds = [0, 2] ∧ Safe c [2] := by
  obtain ⟨s, reached, taken, c, found, bundles, -⟩ := retires
  have converting := converting_of_system reached
  have safe := (custody_kept converting).1 0 c found
  rw [taken] at safe
  exact ⟨s, converting, taken, c, found, bundles, safe⟩

/-- Pages of one row each, with the `2 ^ 63 - 1` tokens that an int64 counts. -/
def largeRows : KvVmmLayout where
  itemsize := 1
  shape := [2, 2 ^ 21]
  tokensPerRow := 9223372036854775807
  tokenPageSize := 9223372036854775807
  layerCount := 1
  buffersPerLayer := 1
  mappingGranularityBytes := 2 ^ 21
  itemsize_pos := Nat.one_pos
  accepted := by decide

/-- The interval of the only page comes out as empty: clearing makes the page free though
its bundle has never been mapped, and a caller gets it. -/
theorem largeRows_unbacked :
    ∃ s, (layouts fun _ => True).Reachable s ∧ s.taken 0 = [1] ∧
      ∃ c, s.state.components[0]? = some c ∧ c.layout.Touches 1 1 ∧ c.backing.bundleIds = [0] ∧ ¬Safe c [1] := by
  let c : Component :=
    { SglangElasticContextState.idle largeRows with containers := ⟨[1], []⟩, unavailablePages := [] }
  let start : Custody := ⟨⟨⟨2 ^ 24, 2 ^ 21⟩, [c], fun _ => .success, 0, false⟩, fun _ => [], fun _ => [], none, false⟩
  have starts : (layouts fun _ => True).Reachable start := by
    refine .start ⟨?_, fun _ => rfl, rfl, rfl⟩
    intro c member
    obtain rfl := List.mem_singleton.mp member
    refine ⟨⟨constructed_idle largeRows (by decide +kernel) (by decide +kernel), [1], by decide, ?_⟩, trivial⟩
    have counts : largeRows.missingBundleCounts [0] ([1].map Int.ofNat) = some [0] := by decide +kernel
    unfold Component.clear
    rw [if_neg (by decide)]
    change Option.bind (largeRows.missingBundleCounts [0] ([1].map Int.ofNat)) _ = _
    rw [counts]
    rfl
  have taken := System.Reachable.step (a := Action.alloc 0 [1] ⟨[], []⟩) starts (rfl : start.next _ = some _)
  have touches : largeRows.Touches 1 1 := by decide
  refine ⟨_, taken, rfl, _, rfl, touches, rfl, ?_⟩
  intro safe
  have mapped := safe.backed 1 (by decide) 1 touches
  revert mapped
  decide

end Custody

end CrossPool.Ecs.Vmm
