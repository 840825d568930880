import CrossPool.Ecs.Allocator

/-!
# Joint preparation of an allocation

All components of a state are planned and priced before any bundle is mapped; then each
is mapped under the shared quota, and last each publishes its pages that are now backed.
With a driver that does not fail, the price decides.
-/

namespace CrossPool.Ecs.Vmm

open CrossPool.Lib

/-! ## Mapping without driver failures -/

section Mapping

variable {s : Scope}

/-- The mapping loop goes through. -/
theorem wp_mapBundles_works (rest : List Nat) {acquired : List Nat} (works : ∀ call, s.outcomes call = .success)
    (distinct : rest.Nodup) (fresh : ∀ id ∈ rest, id ∉ s.backing.bundleIds) :
    wp (mapBundles rest acquired)
      (fun result t =>
        result = (acquired ++ rest, none) ∧
          t.backing = { s.backing with bundles := s.backing.bundles ++ rest.map (·, ⟨true⟩) } ∧ t.quota = s.quota ∧
            t.outcomes = s.outcomes ∧ t.overdrawn = s.overdrawn)
      (fun _ => False) s := by
  induction rest generalizing acquired s with
  | nil => simp [mapBundles]
  | cons id rest ih =>
    obtain ⟨unrepeated, distinctRest⟩ := List.nodup_cons.mp distinct
    have freshId := fresh id List.mem_cons_self
    have flagged : (s.backing.insert id).setMapped id true =
        { s.backing with bundles := s.backing.bundles ++ [(id, ⟨true⟩)] } := by
      simp only [KvVmmBacking.insert, KvVmmBacking.setMapped, List.map_append, List.map_cons, List.map_nil, if_true]
      congr 2
      conv_rhs => rw [← List.map_id s.backing.bundles]
      apply List.map_congr_left
      intro entry member
      have ne : entry.1 ≠ id := fun same => freshId (same ▸ List.mem_map_of_mem member)
      simp [ne]
    simp only [mapBundles, wp_bind, wp_callDriver, works, wp_modifyBacking, flagged]
    refine wp_mono (ih ?_ distinctRest ?_) ?_ fun _ impossible => impossible
    · exact works
    · intro other member
      simp only [KvVmmBacking.bundleIds, List.map_append, List.map_cons, List.map_nil, List.mem_append, List.mem_singleton,
        not_or]
      exact ⟨fresh other (List.mem_cons_of_mem _ member), fun same => unrepeated (same ▸ member)⟩
    · rintro result t ⟨mapped, backing, quota, outcomes, overdrawn⟩
      refine ⟨?_, ?_, quota, outcomes, overdrawn⟩
      · rw [mapped, List.append_assoc, List.singleton_append]
      · rw [backing]
        simp

/-- `try_map` within the quota maps what is missing and charges it. -/
theorem wp_tryMap_works {ids : List Nat} (works : ∀ call, s.outcomes call = .success) (reserved : s.backing.reserved)
    (within : ∀ id ∈ ids, id < s.backing.profile.bundleCapacity)
    (room : s.quota.chargedBytes + (missingIds s.backing ids).length * s.backing.profile.bundleBytes ≤ s.quota.limitBytes) :
    wp (tryMap ids)
      (fun result t =>
        result = true ∧
          t.backing = { s.backing with bundles := s.backing.bundles ++ (missingIds s.backing ids).map (·, ⟨true⟩) } ∧
            t.quota =
              ⟨s.quota.limitBytes,
                s.quota.chargedBytes + (missingIds s.backing ids).length * s.backing.profile.bundleBytes⟩ ∧
              t.outcomes = s.outcomes ∧ t.overdrawn = s.overdrawn)
      (fun _ => False) s := by
  obtain ⟨distinct, members⟩ := missingIds_spec s.backing ids
  have valid := s.backing.profile.valid
  have small : s.backing.profile.bundleCapacity ≤ 2 ^ 64 - 1 := by
    have := Nat.le_mul_of_pos_left s.backing.profile.bundleCapacity (Nat.pos_of_ne_zero valid.1)
    omega
  have count := length_le_of_lt distinct fun id member => within id ((members id).mp member).1
  have bytes : (missingIds s.backing ids).length * s.backing.profile.bundleBytes ≤ 2 ^ 64 - 1 := by
    have := Nat.mul_le_mul_right s.backing.profile.bundleBytes count
    rw [Nat.mul_comm s.backing.profile.bundleCapacity] at this
    omega
  have integers : ¬(ids.any fun id => 2 ^ 64 - 1 < id) = true := by
    rw [List.any_eq_true]
    rintro ⟨id, member, large⟩
    have := within id member
    have := of_decide_eq_true large
    omega
  have bounded : ¬(ids.any fun id => s.backing.profile.bundleCapacity ≤ id) = true := by
    rw [List.any_eq_true]
    rintro ⟨id, member, large⟩
    have := within id member
    have := of_decide_eq_true large
    omega
  simp only [tryMap, wp_bind, wp_get]
  rw [if_neg integers, if_neg bounded, if_neg (by simp [reserved])]
  simp only [wp_bind, tryReserve, wp_get]
  rw [if_neg (by omega), if_neg (by omega)]
  simp only [wp_bind, wp_modify, wp_pure, Bool.not_true, Bool.false_eq_true, if_false]
  refine wp_mono (wp_mapBundles_works _ works distinct fun id member => ((members id).mp member).2) ?_
    fun _ impossible => impossible
  rintro result t ⟨rfl, backing, quota, outcomes, overdrawn⟩
  exact ⟨rfl, backing, quota, outcomes, overdrawn⟩

end Mapping

/-! ## Elastic state -/

/-- The components of one rank with their shared quota and the driver. -/
structure SglangElasticContextState where
  quota : MemoryQuota
  components : List Component
  outcomes : Nat → Status
  calls : Nat
  overdrawn : Bool

namespace SglangElasticContextState

/-- What a method of one component's backing sees. -/
def scope (s : SglangElasticContextState) (c : Component) : Scope where
  quota := s.quota
  backing := c.backing
  outcomes := s.outcomes
  calls := s.calls
  overdrawn := s.overdrawn

/-- The state after a method of one component's backing. -/
def install (s : SglangElasticContextState) (index : Nat) (c : Component) (t : Scope) : SglangElasticContextState where
  quota := t.quota
  components := s.components.set index { c with backing := t.backing }
  outcomes := t.outcomes
  calls := t.calls
  overdrawn := t.overdrawn

/-- Run a method of one component's backing. -/
def onBacking {α : Type} (index : Nat) (m : M α) : EStateM Failure SglangElasticContextState α := fun s =>
  match s.components[index]? with
  | none => .error .value s
  | some c =>
    match m (s.scope c) with
    | .ok a t => .ok a (s.install index c t)
    | .error e t => .error e (s.install index c t)

/-- `plan_allocation`. -/
def planAllocation (s : SglangElasticContextState) (pageCounts : List Nat) :
    Except Failure (Option (List SglangPagePlan)) := do
  if pageCounts.any fun count => 2 ^ 64 - 1 < count then throw .value
  if pageCounts.length ≠ s.components.length then throw .value
  let plans ← (s.components.zip pageCounts).mapM fun entry =>
    match entry.1.planPages entry.2 with
    | none => throw .runtime
    | some plan => pure plan
  if plans.any (·.isNone) then return none
  else return some (plans.filterMap id)

/-- The bytes of all bundles that some plans lack. -/
def cost (components : List Component) (plans : List SglangPagePlan) : Nat :=
  (List.zipWith (fun c plan => plan.missingBundleIds.length * c.layout.profile.bundleBytes) components plans).sum

/-- `allocation_bytes`. -/
def allocationBytes (s : SglangElasticContextState) (pageCounts : List Nat) : Except Failure (Option Nat) := do
  match ← s.planAllocation pageCounts with
  | none => return none
  | some plans => return some (s.quota.chargedBytes + cost s.components plans)

/-- The mapping loop of `prepare_allocation`. -/
def mapPlans : Nat → List SglangPagePlan → EStateM Failure SglangElasticContextState Bool
  | _, [] => return true
  | index, plan :: rest => do
    if !(← onBacking index (tryMap plan.missingBundleIds)) then return false
    mapPlans (index + 1) rest

/-- The publishing loop of `prepare_allocation`, at one component. -/
def publishBacked (index : Nat) : EStateM Failure SglangElasticContextState Unit := fun s =>
  match s.components[index]? with
  | none => .error .value s
  | some c =>
    let published := do
      let counts ← c.layout.missingBundleCounts c.backing.bundleIds (c.candidates.map Int.ofNat)
      c.publishPages (((c.candidates.zip counts).filter (·.2 = 0)).map Prod.fst)
    match published with
    | none => .error .runtime s
    | some c => .ok () { s with components := s.components.set index c }

/-- `resident_free_pages`. -/
def residentFreePages (s : SglangElasticContextState) : List Nat :=
  s.components.map fun c => c.upstream.availableSize c.containers / c.upstream.pageSize

/-- `prepare_allocation`. -/
def prepareAllocation (pageCounts : List Nat) : EStateM Failure SglangElasticContextState Bool := do
  let s ← get
  match s.planAllocation pageCounts with
  | .error error => throw error
  | .ok none => return false
  | .ok (some complete) =>
    if s.quota.limitBytes < s.quota.chargedBytes + cost s.components complete then return false
    if !(← mapPlans 0 complete) then return false
    (List.range s.components.length).forM publishBacked
    let s ← get
    return (s.residentFreePages.zip pageCounts).all fun entry => entry.2 ≤ entry.1

/-! ## Exact preparation -/

section Preparation

variable {s : SglangElasticContextState} {raised : SglangElasticContextState → Prop}

theorem wp_onBacking {α : Type} {m : M α} {index : Nat} {c : Component}
    {post : α → SglangElasticContextState → Prop} (found : s.components[index]? = some c)
    (holds : wp m (fun a t => post a (s.install index c t)) (fun t => raised (s.install index c t)) (s.scope c)) :
    wp (onBacking index m) post raised s := by
  unfold wp onBacking at *
  rw [found]
  dsimp only
  split at holds
  · next a t ran => simpa [ran] using holds
  · next e t ran => simpa [ran] using holds

/-- A component whose backing has mapped what a plan lacks. -/
def grow (c : Component) (plan : SglangPagePlan) : Component :=
  { c with
    backing :=
      { c.backing with
        bundles := c.backing.bundles ++ (missingIds c.backing plan.missingBundleIds).map (·, ⟨true⟩) } }

theorem bundleIds_grow_eq (c : Component) (plan : SglangPagePlan) :
    (grow c plan).backing.bundleIds = c.backing.bundleIds ++ missingIds c.backing plan.missingBundleIds := by
  rw [grow, KvVmmBacking.bundleIds, List.map_append, List.map_map]
  exact congrArg _ (List.map_id _)

/-- What planning leaves for mapping. -/
structure Planned (c : Component) (pageCount : Nat) (plan : SglangPagePlan) : Prop where
  valid : c.Valid
  realizes : c.Realizes pageCount plan

variable {c : Component} {pageCount : Nat} {plan : SglangPagePlan}

/-- Nothing of a plan's bundles is mapped yet. -/
theorem Planned.missing_perm (planned : Planned c pageCount plan) :
    (missingIds c.backing plan.missingBundleIds).Perm plan.missingBundleIds := by
  obtain ⟨distinct, members⟩ := missingIds_spec c.backing plan.missingBundleIds
  rw [List.perm_ext_iff_of_nodup distinct planned.realizes.missing_distinct]
  intro id
  rw [members]
  constructor
  · intro both
    exact both.1
  · intro member
    exact ⟨member, ((planned.realizes.missing id).mp member).1⟩

theorem Planned.page_used (planned : Planned c pageCount plan) {page : Nat} (member : page ∈ plan.pageIds) :
    1 ≤ page ∧ page ≤ c.layout.lastPage := by
  rcases planned.realizes.free page member with resident | candidate
  · exact planned.valid.used page (List.mem_append_left _ resident)
  · exact Component.candidate_used planned.valid candidate

theorem Planned.missing_bounded (planned : Planned c pageCount plan) :
    ∀ id ∈ plan.missingBundleIds, id < c.layout.bundleCapacity := by
  intro id member
  obtain ⟨-, page, listed, touches⟩ := (planned.realizes.missing id).mp member
  have upper := KvVmmLayout.bundlesOf_le_capacity (planned.page_used listed).2
  have inside := (KvVmmLayout.touches_iff.mp touches).2
  omega

theorem Planned.bundleIds_grow (planned : Planned c pageCount plan) {id : Nat} :
    id ∈ (grow c plan).backing.bundleIds ↔ id ∈ c.backing.bundleIds ∨ id ∈ plan.missingBundleIds := by
  rw [bundleIds_grow_eq, List.mem_append, planned.missing_perm.mem_iff]

theorem Planned.grow_valid (planned : Planned c pageCount plan) : (grow c plan).Valid := by
  have valid := planned.valid
  refine ⟨valid.profile, valid.reserved, valid.distinct, valid.used, valid.retiring, ?_, ?_, ?_⟩
  · obtain ⟨distinct, members⟩ := missingIds_spec c.backing plan.missingBundleIds
    rw [bundleIds_grow_eq]
    apply List.nodup_append.mpr
    refine ⟨valid.bundles_distinct, distinct, ?_⟩
    intro id old other new same
    exact ((members other).mp new).2 (same ▸ old)
  · intro id member
    rcases planned.bundleIds_grow.mp member with old | new
    · exact valid.bundles_bounded id old
    · exact planned.missing_bounded id new
  · intro page resident bundle touches
    exact planned.bundleIds_grow.mpr (.inl (valid.backed page resident bundle touches))

/-- All pages of the plan are backed then. -/
theorem Planned.backed_grow (planned : Planned c pageCount plan) {page : Nat} (member : page ∈ plan.pageIds) :
    (grow c plan).Backed page := by
  intro bundle touches
  rw [planned.bundleIds_grow]
  by_cases mapped : bundle ∈ c.backing.bundleIds
  · exact .inl mapped
  · exact .inr ((planned.realizes.missing bundle).mpr ⟨mapped, page, member, touches⟩)

/-- The mapping loop maps each plan and charges its bundles. -/
theorem wp_mapPlans (works : ∀ call, s.outcomes call = .success) (counts : List Nat) (plans : List SglangPagePlan)
    {done todo : List Component} (components : s.components = done ++ todo)
    (same : todo.length = plans.length) (same' : counts.length = plans.length)
    (planned : ∀ entry ∈ (todo.zip counts).zip plans, Planned entry.1.1 entry.1.2 entry.2)
    (room : s.quota.chargedBytes + cost todo plans ≤ s.quota.limitBytes) :
    wp (mapPlans done.length plans)
      (fun mapped t =>
        mapped = true ∧ t.components = done ++ List.zipWith grow todo plans ∧
          t.quota = ⟨s.quota.limitBytes, s.quota.chargedBytes + cost todo plans⟩ ∧ t.outcomes = s.outcomes)
      (fun _ => False) s := by
  induction plans generalizing s counts done todo with
  | nil =>
    obtain rfl := List.length_eq_zero_iff.mp same
    exact ⟨rfl, components, rfl, rfl⟩
  | cons plan rest ih =>
    cases todo with
    | nil => cases same
    | cons c todo =>
      cases counts with
      | nil => cases same'
      | cons count counts =>
        have here : Planned c count plan := planned ((c, count), plan) List.mem_cons_self
        have price : cost (c :: todo) (plan :: rest) =
            plan.missingBundleIds.length * c.layout.profile.bundleBytes + cost todo rest := rfl
        have length := here.missing_perm.length_eq
        have profile := here.valid.profile
        have found : s.components[done.length]? = some c := by
          rw [components, List.getElem?_append_right (le_refl _), Nat.sub_self]
          rfl
        rw [price] at room
        rw [mapPlans, wp_bind]
        apply wp_onBacking found
        refine wp_mono (wp_tryMap_works works here.valid.reserved ?_ ?_) ?_ fun _ impossible => impossible
        · intro id member
          change id < c.backing.profile.bundleCapacity
          rw [profile]
          exact here.missing_bounded id member
        · change s.quota.chargedBytes + (missingIds c.backing _).length * c.backing.profile.bundleBytes ≤ s.quota.limitBytes
          rw [length, profile]
          omega
        · rintro result t ⟨rfl, backing, quota, outcomes, -⟩
          change t.quota = ⟨s.quota.limitBytes,
            s.quota.chargedBytes + (missingIds c.backing _).length * c.backing.profile.bundleBytes⟩ at quota
          rw [length, profile] at quota
          have grown : (s.install done.length c t).components = (done ++ [grow c plan]) ++ todo := by
            change s.components.set done.length { c with backing := t.backing } = _
            rw [components, backing, List.set_append_right _ _ (le_refl _), Nat.sub_self, List.set_cons_zero,
              List.append_assoc]
            rfl
          have after := @ih (s.install done.length c t) (fun call => (congrFun outcomes call).trans (works call)) counts
            (done ++ [grow c plan]) todo grown (Nat.succ.inj same) (Nat.succ.inj same')
            (fun entry member => planned entry (List.mem_cons_of_mem _ member)) (by
              change t.quota.chargedBytes + _ ≤ t.quota.limitBytes
              rw [quota]
              dsimp only
              omega)
          rw [List.length_append, List.length_singleton] at after
          simp only [Bool.not_true, Bool.false_eq_true, if_false]
          refine wp_mono after ?_ fun _ impossible => impossible
          rintro mapped u ⟨mapped, components, quota', outcomes'⟩
          refine ⟨mapped, ?_, ?_, outcomes'.trans outcomes⟩
          · rw [components, List.append_assoc]
            rfl
          · rw [quota', price]
            change MemoryQuota.mk t.quota.limitBytes (t.quota.chargedBytes + _) = _
            rw [quota]
            dsimp only
            rw [Nat.add_assoc]

theorem filter_zip_counts (pages : List Nat) (count : Nat → Nat) :
    ((pages.zip (pages.map fun page => (count page : Int))).filter (·.2 = 0)).map Prod.fst =
      pages.filter fun page => count page = 0 := by
  induction pages with
  | nil => rfl
  | cons page pages ih =>
    rw [List.map_cons, List.zip_cons_cons, List.filter_cons, List.filter_cons]
    by_cases complete : count page = 0
    · simp only [complete, Nat.cast_zero, decide_true, if_true, List.map_cons, ih]
    · simp only [complete, Int.natCast_eq_zero, decide_false, Bool.false_eq_true, if_false, ih]

theorem publishBacked_ok {index : Nat} (found : s.components[index]? = some c) (valid : c.Valid)
    (converts : c.layout.Converts c.candidates) :
    ∃ c', Component.Published c c' ∧ publishBacked index s = .ok () { s with components := s.components.set index c' } := by
  obtain ⟨c', ran, published⟩ := Component.publishPages_eq_some valid converts
  refine ⟨c', published, ?_⟩
  have used : ∀ page ∈ c.candidates, page ≤ c.layout.lastPage := by
    intro page member
    exact (Component.candidate_used valid member).2
  rw [publishBacked, found]
  dsimp only
  rw [KvVmmLayout.missingBundleCounts_eq_some converts valid.bundles_bounded used]
  dsimp only [Option.bind_eq_bind, Option.bind_some]
  rw [filter_zip_counts, ← Component.backedCandidates, ran]

/-- The publishing loop publishes every component. -/
theorem wp_publishAll {done todo : List Component} (components : s.components = done ++ todo)
    (ready : ∀ c ∈ todo, c.Valid ∧ c.layout.Converts c.candidates) :
    wp ((List.range' done.length todo.length).forM publishBacked)
      (fun _ t => t.quota = s.quota ∧ ∃ todo', t.components = done ++ todo' ∧ List.Forall₂ Component.Published todo todo')
      (fun _ => False) s := by
  induction todo generalizing s done with
  | nil => exact ⟨rfl, [], components, .nil⟩
  | cons c todo ih =>
    obtain ⟨valid, converts⟩ := ready c List.mem_cons_self
    have found : s.components[done.length]? = some c := by
      rw [components, List.getElem?_append_right (le_refl _), Nat.sub_self]
      rfl
    obtain ⟨c', published, ran⟩ := publishBacked_ok found valid converts
    rw [List.length_cons, List.range'_succ]
    show wp (publishBacked done.length >>= fun _ => (List.range' (done.length + 1) todo.length).forM publishBacked) _ _ s
    rw [wp_bind, wp, ran]
    dsimp only
    have grown : (s.components.set done.length c') = (done ++ [c']) ++ todo := by
      rw [components, List.set_append_right _ _ (le_refl _), Nat.sub_self, List.set_cons_zero, List.append_assoc]
      rfl
    have after := @ih { s with components := s.components.set done.length c' } (done ++ [c']) grown
      fun other member => ready other (List.mem_cons_of_mem _ member)
    rw [List.length_append, List.length_singleton] at after
    refine wp_mono after ?_ fun _ impossible => impossible
    rintro - t ⟨quota, todo', components', all⟩
    refine ⟨quota, c' :: todo', ?_, .cons published all⟩
    rw [components', List.append_assoc]
    rfl

/-- An allocation is prepared for `bytes`: they are charged, and every component has its
count of free pages, all of them backed. -/
structure Prepared (s t : SglangElasticContextState) (pageCounts : List Nat) (bytes : Nat) : Prop where
  quota : t.quota = ⟨s.quota.limitBytes, bytes⟩
  size : t.components.length = s.components.length
  valid : ∀ c ∈ t.components, c.Valid
  delivered : ∀ entry ∈ t.components.zip pageCounts, entry.2 ≤ entry.1.containers.pages.length
  backed : ∀ c ∈ t.components, ∀ page ∈ c.containers.pages, c.Backed page

theorem eq_map_some {plans : List (Option SglangPagePlan)} (all : ¬(plans.any (·.isNone)) = true) :
    plans = (plans.filterMap id).map some := by
  induction plans with
  | nil => rfl
  | cons plan plans ih =>
    rw [List.any_cons, Bool.or_eq_true, not_or] at all
    cases plan with
    | none => exact absurd rfl all.1
    | some plan =>
      change some plan :: plans = some plan :: (plans.filterMap id).map some
      rw [← ih all.2]

/-- `plan_allocation` asks every component. -/
theorem planAllocation_computed {pageCounts : List Nat} (valid : ∀ c ∈ s.components, c.Valid)
    (converts : ∀ entry ∈ s.components.zip pageCounts, entry.1.ConvertsFor entry.2)
    (accepted : ∀ count ∈ pageCounts, count < 2 ^ 64) (same : pageCounts.length = s.components.length) :
    s.planAllocation pageCounts =
      if ((s.components.zip pageCounts).map fun entry => (entry.1.planPages entry.2).getD none).any (·.isNone) then .ok none
      else
        .ok (some (((s.components.zip pageCounts).map fun entry => (entry.1.planPages entry.2).getD none).filterMap id)) := by
  have integers : ¬(pageCounts.any fun count => 2 ^ 64 - 1 < count) = true := by
    rw [List.any_eq_true]
    rintro ⟨count, member, large⟩
    have := accepted count member
    have := of_decide_eq_true large
    omega
  have answers : ∀ entry ∈ s.components.zip pageCounts,
      (match entry.1.planPages entry.2 with
        | none => throw .runtime
        | some plan => pure plan : Except Failure (Option SglangPagePlan)) =
        .ok ((entry.1.planPages entry.2).getD none) := by
    intro entry member
    rw [Component.planPages_eq (valid entry.1 (List.of_mem_zip member).1) (converts entry member)]
    rfl
  rw [planAllocation, if_neg integers, if_neg (not_not.mpr same)]
  change (List.mapM _ _ >>= _) = _
  rw [mapM_ok answers]
  change (if _ then _ else _) = _
  split
  · rfl
  · rfl

/-- `plan_allocation` answers with plans of all components, or with none as some
component has too few pages. -/
theorem planAllocation_eq {pageCounts : List Nat} (valid : ∀ c ∈ s.components, c.Valid)
    (converts : ∀ entry ∈ s.components.zip pageCounts, entry.1.ConvertsFor entry.2)
    (accepted : ∀ count ∈ pageCounts, count < 2 ^ 64) (same : pageCounts.length = s.components.length) :
    (s.planAllocation pageCounts = .ok none ∧
        ∃ entry ∈ s.components.zip pageCounts,
          entry.1.containers.pages.length + entry.1.candidates.length < entry.2) ∨
      ∃ plans, s.planAllocation pageCounts = .ok (some plans) ∧ plans.length = s.components.length ∧
        ∀ entry ∈ (s.components.zip pageCounts).zip plans, Planned entry.1.1 entry.1.2 entry.2 := by
  have known : ∀ entry ∈ s.components.zip pageCounts, entry.1.Valid ∧ entry.1.ConvertsFor entry.2 :=
    fun entry member => ⟨valid entry.1 (List.of_mem_zip member).1, converts entry member⟩
  rw [planAllocation_computed valid converts accepted same]
  split
  · rename_i short
    refine .inl ⟨rfl, ?_⟩
    rw [List.any_map, List.any_eq_true] at short
    obtain ⟨entry, member, none⟩ := short
    obtain ⟨valid, converts⟩ := known entry member
    refine ⟨entry, member, ?_⟩
    by_contra room
    obtain ⟨plan, planned, -⟩ := Component.planPages_eq_some valid converts (not_lt.mp room)
    rw [Function.comp, planned] at none
    cases none
  · rename_i complete
    have some' := eq_map_some complete
    refine .inr ⟨_, rfl, ?_, ?_⟩
    · have length := congrArg List.length some'
      rw [List.length_map, List.length_map, List.length_zip, same, min_self] at length
      exact length.symm
    · rintro ⟨entry, plan⟩ member
      obtain ⟨index, bound, found⟩ := List.mem_iff_getElem.mp member
      rw [List.getElem_zip, Prod.mk.injEq] at found
      obtain ⟨rfl, rfl⟩ := found
      have inside := bound
      rw [List.length_zip, lt_min_iff] at inside
      have here : (((s.components.zip pageCounts).map fun entry => (entry.1.planPages entry.2).getD none)[index]?) = _ :=
        congrArg (fun plans => plans[index]?) some'
      rw [List.getElem?_map, List.getElem?_map, List.getElem?_eq_getElem inside.1, List.getElem?_eq_getElem inside.2,
        Option.map_some, Option.map_some, Option.some.injEq] at here
      obtain ⟨valid, converts⟩ := known _ (List.getElem_mem inside.1)
      refine ⟨valid, Component.realizes_of_planPages valid converts ?_⟩
      rw [Component.planPages_eq valid converts] at here ⊢
      rw [← here]
      rfl

/-- A published component has the pages of a plan that was mapped for it. -/
theorem Planned.delivered {c' : Component} (planned : Planned c pageCount plan)
    (published : Component.Published (grow c plan) c') : pageCount ≤ c'.containers.pages.length := by
  have distinct := planned.realizes.distinct
  rw [← planned.realizes.length]
  apply (List.Nodup.subperm distinct ?_).length_le
  intro page member
  apply published.pages.mem_iff.mpr
  rcases planned.realizes.free page member with resident | candidate
  · exact List.mem_append_left _ resident
  · apply List.mem_append_right
    exact Component.mem_backedCandidates.mpr ⟨Component.mem_candidates.mp candidate, planned.backed_grow member⟩

theorem grown_ready {todo : List Component} {counts : List Nat} {plans : List SglangPagePlan}
    (same : plans.length = todo.length) (same' : counts.length = todo.length)
    (planned : ∀ entry ∈ (todo.zip counts).zip plans, Planned entry.1.1 entry.1.2 entry.2)
    (converts : ∀ c ∈ todo, c.layout.Converts c.candidates) :
    ∀ c ∈ List.zipWith grow todo plans, c.Valid ∧ c.layout.Converts c.candidates := by
  induction todo generalizing counts plans with
  | nil =>
    intro c member
    cases member
  | cons c todo ih =>
    cases plans with
    | nil => cases same
    | cons plan plans =>
      cases counts with
      | nil => cases same'
      | cons count counts =>
        have here : Planned c count plan := planned ((c, count), plan) List.mem_cons_self
        intro grown member
        rcases List.mem_cons.mp member with rfl | later
        · exact ⟨here.grow_valid, converts c List.mem_cons_self⟩
        · exact ih (Nat.succ.inj same) (Nat.succ.inj same')
            (fun entry member => planned entry (List.mem_cons_of_mem _ member))
            (fun other member => converts other (List.mem_cons_of_mem _ member)) grown later

theorem residentFreePages_eq (s : SglangElasticContextState) :
    s.residentFreePages = s.components.map fun c => c.containers.pages.length := by
  apply List.map_congr_left
  intro c _
  rw [c.upstream.available_eq, Nat.mul_div_cancel _ c.upstream.pageSize_pos]

theorem prepared_of_published {todo components : List Component} {counts : List Nat} {plans : List SglangPagePlan}
    (published : List.Forall₂ Component.Published (List.zipWith grow todo plans) components)
    (same : plans.length = todo.length) (same' : counts.length = todo.length)
    (planned : ∀ entry ∈ (todo.zip counts).zip plans, Planned entry.1.1 entry.1.2 entry.2) :
    components.length = todo.length ∧ (∀ c ∈ components, c.Valid) ∧
      ∀ entry ∈ components.zip counts, entry.2 ≤ entry.1.containers.pages.length := by
  induction todo generalizing components counts plans with
  | nil =>
    cases published
    simp
  | cons c todo ih =>
    cases plans with
    | nil => cases same
    | cons plan plans =>
      cases counts with
      | nil => cases same'
      | cons count counts =>
        cases published with
        | cons first rest =>
          have here : Planned c count plan := planned ((c, count), plan) List.mem_cons_self
          obtain ⟨length, valid, delivered⟩ := ih rest (Nat.succ.inj same) (Nat.succ.inj same')
            fun entry member => planned entry (List.mem_cons_of_mem _ member)
          refine ⟨by rw [List.length_cons, length, List.length_cons], ?_, ?_⟩
          · intro c' member
            rcases List.mem_cons.mp member with rfl | later
            · exact first.valid here.grow_valid
            · exact valid c' later
          · intro entry member
            rcases List.mem_cons.mp member with rfl | later
            · exact here.delivered first
            · exact delivered entry later

/-- What a preparation converts: the candidates of a component whose count goes beyond its
resident pages, and, where the price is within the limit, those of all components. -/
structure Converts (s : SglangElasticContextState) (pageCounts : List Nat) : Prop where
  planned : ∀ entry ∈ s.components.zip pageCounts, entry.1.ConvertsFor entry.2
  published : ∀ bytes, s.allocationBytes pageCounts = .ok (some bytes) → bytes ≤ s.quota.limitBytes →
    ∀ c ∈ s.components, c.layout.Converts c.candidates

/-- Where the driver does not fail, an allocation is prepared just where it can be priced
within the quota; otherwise nothing has changed. -/
theorem prepareAllocation_eq (works : ∀ call, s.outcomes call = .success) {pageCounts : List Nat}
    (valid : ∀ c ∈ s.components, c.Valid) (converts : s.Converts pageCounts) (accepted : ∀ count ∈ pageCounts, count < 2 ^ 64)
    (same : pageCounts.length = s.components.length) :
    ∃ priced, s.allocationBytes pageCounts = .ok priced ∧
      ((∃ bytes, priced = some bytes ∧ bytes ≤ s.quota.limitBytes ∧
          ∃ t, prepareAllocation pageCounts s = .ok true t ∧ Prepared s t pageCounts bytes) ∨
        ((∀ bytes, priced = some bytes → s.quota.limitBytes < bytes) ∧ prepareAllocation pageCounts s = .ok false s)) := by
  rcases planAllocation_eq valid converts.planned accepted same with ⟨short, -⟩ | ⟨plans, planned, size, each⟩
  · refine ⟨none, by rw [allocationBytes, short]; rfl, .inr ⟨?_, ?_⟩⟩
    · intro bytes impossible
      cases impossible
    · have unchanged : wp (prepareAllocation pageCounts) (fun ok t => ok = false ∧ t = s) (fun _ => False) s := by
        rw [prepareAllocation, wp_bind, wp_get, short]
        exact ⟨rfl, rfl⟩
      obtain ⟨ok, t, ran, rfl, rfl⟩ := ok_of_wp unchanged
      exact ran
  · have price : s.allocationBytes pageCounts = .ok (some (s.quota.chargedBytes + cost s.components plans)) := by
      rw [allocationBytes, planned]
      rfl
    refine ⟨some (s.quota.chargedBytes + cost s.components plans), price, ?_⟩
    by_cases room : s.quota.limitBytes < s.quota.chargedBytes + cost s.components plans
    · refine .inr ⟨?_, ?_⟩
      · rintro bytes price
        rw [Option.some.injEq] at price
        exact price ▸ room
      · have unchanged : wp (prepareAllocation pageCounts) (fun ok t => ok = false ∧ t = s) (fun _ => False) s := by
          rw [prepareAllocation, wp_bind, wp_get, planned]
          dsimp only
          rw [if_pos room]
          exact ⟨rfl, rfl⟩
        obtain ⟨ok, t, ran, rfl, rfl⟩ := ok_of_wp unchanged
        exact ran
    · refine .inl ⟨_, rfl, not_lt.mp room, ?_⟩
      have prepares : wp (prepareAllocation pageCounts)
          (fun ok t => ok = true ∧ Prepared s t pageCounts (s.quota.chargedBytes + cost s.components plans))
          (fun _ => False) s := by
        rw [prepareAllocation, wp_bind, wp_get, planned]
        dsimp only
        rw [if_neg room, wp_bind]
        have maps := @wp_mapPlans s works pageCounts plans [] s.components rfl size.symm (same.trans size.symm) each
          (not_lt.mp room)
        refine wp_mono maps ?_ fun _ impossible => impossible
        rintro mapped t ⟨rfl, components, quota, -⟩
        have publishes := @wp_publishAll t [] _ components (grown_ready size same each (converts.published _ price (not_lt.mp room)))
        rw [List.length_zipWith, size, min_self, List.length_nil, ← List.range_eq_range'] at publishes
        simp only [Bool.not_true, Bool.false_eq_true, if_false, wp_bind, wp_get, wp_pure]
        refine wp_mono publishes ?_ fun _ impossible => impossible
        rintro - u ⟨quota', published, components', all⟩
        obtain ⟨length, valid, delivered⟩ := prepared_of_published all size same each
        rw [List.nil_append] at components'
        refine ⟨?_, quota'.trans quota, ?_, ?_, ?_, ?_⟩
        · rw [residentFreePages_eq, components', List.zip_map_left, List.all_map, List.all_eq_true]
          intro entry member
          exact decide_eq_true (delivered entry member)
        · rw [components', length]
        · rw [components']
          exact valid
        · rw [components']
          exact delivered
        · rw [components']
          intro c member
          exact (valid c member).backed
      obtain ⟨ok, t, ran, rfl, prepared⟩ := ok_of_wp prepares
      exact ⟨t, ran, prepared⟩

/-- Plans are exact where nothing that they convert wraps, which is where they are exact for
all allocators over some pages; preparation then goes by their joint price. -/
theorem preparation_exact (l : KvVmmLayout) (s : SglangElasticContextState) :
    (∀ c : Component, c.Valid → ∀ pageCount, c.ConvertsFor pageCount → c.Plans pageCount) ∧
      (∀ pages : List Nat, pages ≠ [] → (∀ page ∈ pages, 1 ≤ page ∧ page ≤ l.lastPage) →
        ((∀ c : Component, c.Valid → c.layout = l → c.candidates ⊆ pages → ∀ pageCount, c.Plans pageCount) ↔
          l.Converts pages)) ∧
      ((∀ call, s.outcomes call = .success) → (∀ c ∈ s.components, c.Valid) →
        ∀ pageCounts : List Nat, (∀ count ∈ pageCounts, count < 2 ^ 64) → pageCounts.length = s.components.length →
          s.Converts pageCounts →
            ∃ priced, s.allocationBytes pageCounts = .ok priced ∧
              ((∃ bytes, priced = some bytes ∧ bytes ≤ s.quota.limitBytes ∧
                  ∃ t, prepareAllocation pageCounts s = .ok true t ∧ Prepared s t pageCounts bytes) ∨
                ((∀ bytes, priced = some bytes → s.quota.limitBytes < bytes) ∧
                  prepareAllocation pageCounts s = .ok false s))) := by
  refine ⟨?_, ?_, ?_⟩
  · intro c valid pageCount converts
    exact Component.plans valid converts
  · intro pages some' used
    constructor
    · intro exact'
      have shown (page : Nat) (member : page ∈ pages) : l.spanScalarsFit ∧ l.PageConverts page := by
        apply Component.converts_of_plans (used page member)
        apply exact' _ (Component.lone_valid (used page member)) rfl
        intro other listed
        obtain rfl := List.mem_singleton.mp (List.mem_filter.mp listed).1
        exact member
      obtain ⟨page, member⟩ := List.exists_mem_of_ne_nil pages some'
      exact ⟨(shown page member).1, fun page member => (shown page member).2⟩
    · rintro converts c valid rfl within pageCount
      exact Component.plans valid fun _ _ => converts.mono within
  · intro works valid pageCounts accepted same converts
    exact prepareAllocation_eq works valid converts accepted same

end Preparation

/-! ## One component -/

/-- A component with the pinned bundle mapped and three pages that are not backed. -/
def idle (l : KvVmmLayout) : Component where
  upstream := .staging l.tokenPageSize l.tokenPageSize_pos
  layout := l
  backing := ⟨l.profile, true, [(0, ⟨true⟩)]⟩
  containers := ⟨[], []⟩
  unavailablePages := [1, 2, 3]
  retiringPages := []

theorem idle_valid {l : KvVmmLayout} (three : 3 ≤ l.lastPage) (some' : 0 < l.bundleCapacity) : (idle l).Valid where
  profile := rfl
  reserved := rfl
  distinct := (by decide : ([1, 2, 3] : List Nat).Nodup)
  used := by
    intro page member
    change page ∈ [1, 2, 3] at member
    simp only [List.mem_cons, List.not_mem_nil, or_false] at member
    change 1 ≤ page ∧ page ≤ l.lastPage
    omega
  retiring := List.nil_subset _
  bundles_distinct := (by decide : ([0] : List Nat).Nodup)
  bundles_bounded := by
    intro id member
    obtain rfl := List.mem_singleton.mp member
    exact some'
  backed := by
    intro page member
    cases member

/-- There are pages enough, and planning for one of them raises. -/
theorem manyTokens_plan_raises :
    (idle .manyTokens).Valid ∧ 1 ≤ (idle .manyTokens).containers.pages.length + (idle .manyTokens).candidates.length ∧
      (idle .manyTokens).planPages 1 = none :=
  ⟨idle_valid (by decide) (by decide), by decide, by decide +kernel⟩

/-- A quota of three bundles has room for two more. -/
def started : SglangElasticContextState where
  quota := ⟨3 * 2 ^ 21, 2 ^ 21⟩
  components := [idle .fewTokens]
  outcomes := fun _ => .success
  calls := 0
  overdrawn := false

theorem preparation_exact_started :
    ∃ t, prepareAllocation [2] started = .ok true t ∧ Prepared started t [2] (3 * 2 ^ 21) := by
  have fits : KvVmmLayout.fewTokens.Fits := ⟨by decide, by decide, by decide, by decide⟩
  have valid : (idle .fewTokens).Valid := idle_valid (by decide) (by decide)
  have converts : KvVmmLayout.fewTokens.Converts (idle .fewTokens).candidates :=
    fits.converts fun page member => (Component.candidate_used valid member).2
  have prepared := (preparation_exact .fewTokens started).2.2 (fun _ => rfl) (by
    intro c member
    obtain rfl := List.mem_singleton.mp member
    exact valid) [2] (by decide) rfl ⟨by
      intro entry member
      obtain rfl := List.mem_singleton.mp member
      exact fun _ _ => converts, by
      intro _ _ _ c member
      obtain rfl := List.mem_singleton.mp member
      exact converts⟩
  obtain ⟨priced, price, outcome⟩ := prepared
  have known : started.allocationBytes [2] = .ok (some (3 * 2 ^ 21)) := by decide +kernel
  rw [known, Except.ok.injEq] at price
  subst price
  rcases outcome with ⟨bytes, bytes', -, t, ran, made⟩ | ⟨ended, -⟩
  · rw [Option.some.injEq] at bytes'
    subst bytes'
    exact ⟨t, ran, made⟩
  · exact absurd (ended _ rfl) (by decide)

end SglangElasticContextState

end CrossPool.Ecs.Vmm
