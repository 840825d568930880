import CrossPool.Ecs.Policy
import Mathlib.Algebra.BigOperators.Group.Finset.Piecewise
import Mathlib.Algebra.Order.BigOperators.Group.Finset
import Mathlib.Data.List.GetD
import Mathlib.Tactic.Linarith
import Mathlib.Tactic.Ring

/-!
# Accounting of the quota policy

`Accounted` is the policy's invariant after `freeze_pools`: on every device the
partitions' permission, charged at the larger of the active and the pending
limit, fits the frozen capacity, and every limit lies between its partition's
floor and its service ceiling.

Startup needs a stronger bound than the budget. Until every group has applied
its first operation nothing borrows, and each partition's permission stays within
its floor plus one equal share of the device's spare bytes; the shares add up to
the budget. Afterwards a grant is published only into free bytes, a shrink frees
none before it is retired, and retiring never raises a partition's permission.
-/

namespace CrossPool.Ecs

open CrossPool.Lib

/-! ## The quantities the policy computes -/

section Quantities

variable (dep : Deployment) (profiles : Nat → Nat → PartitionProfile)

/-- A partition's floor. -/
def floorOf (index device : Nat) : Int :=
  (profiles index device).floorBytes

/-- All floors of one device. -/
def floorsOf (device : Nat) : Int :=
  ∑ index ∈ Finset.range dep.instanceCount, floorOf profiles index device

/-- A partition's service ceiling under a device capacity. -/
def ceilingOf (capacity : Nat → Int) (index device : Nat) : Int :=
  min ((profiles index device).reservationBytes : Int)
    (capacity device - (floorsOf dep profiles device - floorOf profiles index device))

/-- The equal share of a device's spare bytes. -/
def shareOf (capacity : Nat → Int) (device : Nat) : Int :=
  (capacity device - floorsOf dep profiles device) / dep.instanceCount

/-- TP width of an Instance's groups. -/
def Deployment.width (index : Nat) : Nat :=
  (dep.plan index).atnTpSize

/-- The limit vector a group's ranks hold or are about to adopt. -/
def CapacityPolicy.pendingQuota (policy : CapacityPolicy) (group : Group) (active : List Int) : List Int :=
  match policy.operations group with
  | some operation => operation.quotaBytes
  | none => active

/-- A partition's permission, charged at the larger limit. -/
def held (policy : CapacityPolicy) (index device : Nat) : Int :=
  match policy.activeQuotas (index, device / dep.width index) with
  | none => 0
  | some active => max (active.getD (device % dep.width index) 0)
      ((policy.pendingQuota (index, device / dep.width index) active).getD (device % dep.width index) 0)

/-- A limit vector of the group's width, each limit between floor and ceiling. -/
structure Within (capacity : Nat → Int) (group : Group) (quota : List Int) : Prop where
  width : quota.length = dep.width group.1
  floor : ∀ rank < dep.width group.1,
    floorOf profiles group.1 (group.2 * dep.width group.1 + rank) ≤ quota.getD rank 0
  ceiling : ∀ rank < dep.width group.1,
    quota.getD rank 0 ≤ ceilingOf dep profiles capacity group.1 (group.2 * dep.width group.1 + rank)

/-- The floors of a group's ranks. -/
def floorVector (group : Group) : List Int :=
  (List.range (dep.width group.1)).map fun rank => floorOf profiles group.1 (group.2 * dep.width group.1 + rank)

/-- The service ceilings of a group's ranks. -/
def ceilingVector (capacity : Nat → Int) (group : Group) : List Int :=
  (List.range (dep.width group.1)).map fun rank =>
    ceilingOf dep profiles capacity group.1 (group.2 * dep.width group.1 + rank)

/-- Every registration found is the one the generation was formed with. -/
def Retains (book : RegistrationBook) : Prop :=
  ∀ index rank registration, book index rank = some registration → registration.contextStateProfile = profiles index rank

/-- No partition's registration is lost. -/
def Complete (book : RegistrationBook) : Prop :=
  ∀ index < dep.instanceCount, ∀ device < dep.atnWorldSize, book index device ≠ none

end Quantities

/-! ## Groups, ranks and devices -/

section Geometry

variable {dep : Deployment}

theorem Deployment.width_mul (dep : Deployment) {index : Nat} (known : index < dep.instanceCount) :
    dep.width index * (dep.plan index).atnDpSize = dep.atnWorldSize := by
  refine dep.covers _ ?_
  unfold Deployment.plan
  rw [List.getD_eq_getElem _ _ known]
  exact List.getElem_mem known

theorem mem_capacityGroups {group : Group} :
    group ∈ dep.capacityGroups ↔ group.1 < dep.instanceCount ∧ group.2 < (dep.plan group.1).atnDpSize := by
  simp only [Deployment.capacityGroups, List.mem_flatMap, List.mem_range, List.mem_map]
  constructor
  · rintro ⟨index, known, dpRank, small, rfl⟩
    exact ⟨known, small⟩
  · rintro ⟨known, small⟩
    exact ⟨group.1, known, group.2, small, rfl⟩

/-- The device of a group's rank is in the world. -/
theorem rank_lt_world {group : Group} (member : group ∈ dep.capacityGroups) {rank : Nat} (small : rank < dep.width group.1) :
    group.2 * dep.width group.1 + rank < dep.atnWorldSize := by
  obtain ⟨known, below⟩ := mem_capacityGroups.mp member
  rw [← dep.width_mul known]
  calc group.2 * dep.width group.1 + rank < group.2 * dep.width group.1 + dep.width group.1 := by omega
    _ = dep.width group.1 * (group.2 + 1) := by ring
    _ ≤ dep.width group.1 * (dep.plan group.1).atnDpSize := Nat.mul_le_mul_left _ below

/-- Every device of an Instance belongs to one of its groups. -/
theorem device_group {index device : Nat} (known : index < dep.instanceCount) (small : device < dep.atnWorldSize) :
    0 < dep.width index ∧ (index, device / dep.width index) ∈ dep.capacityGroups := by
  rw [← dep.width_mul known] at small
  have positive : 0 < dep.width index := Nat.pos_of_mul_pos_right (Nat.zero_lt_of_lt small)
  refine ⟨positive, mem_capacityGroups.mpr ⟨known, ?_⟩⟩
  exact Nat.div_lt_of_lt_mul small

theorem rank_div_mod {width dpRank rank : Nat} (small : rank < width) :
    (dpRank * width + rank) / width = dpRank ∧ (dpRank * width + rank) % width = rank := by
  have positive : 0 < width := Nat.zero_lt_of_lt small
  constructor
  · rw [Nat.mul_comm, Nat.mul_add_div positive, Nat.div_eq_of_lt small, Nat.add_zero]
  · rw [Nat.mul_comm, Nat.mul_add_mod, Nat.mod_eq_of_lt small]

/-- A vector of known width is its entries in order. -/
theorem eq_map_range {quota : List Int} {width : Nat} (length : quota.length = width) :
    quota = (List.range width).map (quota.getD · 0) := by
  refine List.ext_getElem (by simp [length]) ?_
  intro rank small _
  simp only [List.getElem_map, List.getElem_range]
  exact (List.getD_eq_getElem _ _ small).symm

end Geometry

/-! ## What the queries return -/

section Queries

variable {dep : Deployment} {profiles : Nat → Nat → PartitionProfile} {book : RegistrationBook}

theorem zipStrict_eq_ok {α β γ : Type} {as : List α} {bs : List β} {cs : List γ} {entries : List (α × β × γ)} :
    zipStrict as bs cs = .ok entries ↔
      as.length = bs.length ∧ bs.length = cs.length ∧ entries = as.zip (bs.zip cs) := by
  induction as generalizing bs cs entries with
  | nil =>
    cases bs <;> cases cs <;> simp [zipStrict, eq_comm]
  | cons a as ih =>
    cases bs with
    | nil => cases cs <;> simp [zipStrict]
    | cons b bs =>
      cases cs with
      | nil => simp [zipStrict]
      | cons c cs =>
        simp only [zipStrict, map_eq_ok, ih, List.length_cons, List.zip_cons_cons, Nat.add_right_cancel_iff]
        constructor
        · rintro ⟨rest, ⟨left, right, rfl⟩, rfl⟩
          exact ⟨left, right, rfl⟩
        · rintro ⟨left, right, rfl⟩
          exact ⟨_, ⟨left, right, rfl⟩, rfl⟩

theorem partition_eq_ok (retains : Retains profiles book) {index rank : Nat} {registration : InstanceRankRegistration}
    (found : dep.partition book index rank = .ok registration) :
    registration.contextStateProfile = profiles index rank := by
  unfold Deployment.partition at found
  split at found
  · rename_i known
    obtain rfl := Except.ok.inj found
    exact retains _ _ _ known
  · cases found

theorem partition_returns {index device : Nat} (complete : Complete dep book) (known : index < dep.instanceCount)
    (small : device < dep.atnWorldSize) : ∃ registration, dep.partition book index device = .ok registration := by
  obtain ⟨registration, found⟩ := Option.ne_none_iff_exists'.mp (complete index known device small)
  exact ⟨registration, by simp [Deployment.partition, found]⟩

/-- A group's profiles, one for each rank. -/
theorem groupProfiles_eq_ok (retains : Retains profiles book) {group : Group} {found : List (Nat × PartitionProfile)}
    (returned : dep.groupProfiles book group = .ok found) :
    found = (List.range (dep.width group.1)).map fun rank =>
      (group.2 * dep.width group.1 + rank, profiles group.1 (group.2 * dep.width group.1 + rank)) := by
  have mapped : found = (dep.groupRanks group).map fun rank => (rank, profiles group.1 rank) := by
    refine mapM_eq_ok ?_ returned
    intro rank _ entry single
    obtain ⟨registration, known, rfl⟩ := map_eq_ok.mp single
    rw [partition_eq_ok retains known]
  rw [mapped, Deployment.groupRanks, List.map_map]
  rfl

theorem groupProfiles_returns (complete : Complete dep book) {group : Group} (member : group ∈ dep.capacityGroups) :
    ∃ found, dep.groupProfiles book group = .ok found := by
  refine mapM_returns ?_
  intro rank ranked
  obtain ⟨offset, small, rfl⟩ := List.mem_map.mp ranked
  obtain ⟨registration, known⟩ := partition_returns complete (mem_capacityGroups.mp member).1
    (rank_lt_world member (List.mem_range.mp small))
  exact ⟨_, map_eq_ok.mpr ⟨registration, known, rfl⟩⟩

theorem floorsOn_eq_ok (retains : Retains profiles book) {indices : List Nat} {device : Nat} {floors : Int}
    (returned : CapacityPolicy.floorsOn dep book indices device = .ok floors) :
    floors = (indices.map fun index => floorOf profiles index device).sum := by
  obtain ⟨registrations, found, rfl⟩ := map_eq_ok.mp returned
  have floored : (registrations.map fun registration => (registration.contextStateProfile.floorBytes : Int)) =
      indices.map fun index => floorOf profiles index device := by
    refine map_of_mapM_eq_ok ?_ found
    intro index _ registration known
    rw [partition_eq_ok retains known]
    rfl
  rw [floored]

theorem sum_map_range (f : Nat → Int) (count : Nat) : ((List.range count).map f).sum = ∑ index ∈ Finset.range count, f index := by
  rw [Finset.sum_eq_multiset_sum, Finset.range_val, Multiset.range, Multiset.map_coe, Multiset.sum_coe]

/-- Leaving one Instance out of the sum subtracts its floor. -/
theorem sum_other_floors {index device : Nat} (known : index < dep.instanceCount) :
    (((List.range dep.instanceCount).filter (· ≠ index)).map fun other => floorOf profiles other device).sum =
      floorsOf dep profiles device - floorOf profiles index device := by
  have split (count : Nat) : (((List.range count).filter (· ≠ index)).map fun other => floorOf profiles other device).sum =
      (∑ other ∈ Finset.range count, floorOf profiles other device) -
        (if index < count then floorOf profiles index device else 0) := by
    induction count with
    | zero => simp
    | succ count ih =>
      rw [List.range_succ, List.filter_append, List.map_append, List.sum_append, ih, Finset.sum_range_succ]
      rcases Nat.lt_trichotomy index count with below | rfl | above
      · have apart : count ≠ index := by omega
        simp [below, Nat.lt_succ_of_lt below, apart]
        ring
      · simp
      · have apart : count ≠ index := by omega
        simp [apart, Nat.not_lt.mpr above.le, Nat.not_lt.mpr (Nat.succ_le_of_lt above)]
  rw [split, if_pos known, floorsOf]

variable {policy : CapacityPolicy} {capacity : Nat → Int}

theorem budgets_eq_ok (frozen : policy.poolCapacityBytes = some capacity) {found : Nat → Int}
    (returned : policy.budgets = .ok found) : found = capacity := by
  simp only [CapacityPolicy.budgets, frozen] at returned
  exact (Except.ok.inj returned).symm

/-- The startup target of each rank: its floor and one share, capped. -/
theorem initialTarget_eq_ok (retains : Retains profiles book) (frozen : policy.poolCapacityBytes = some capacity)
    {group : Group} {target : List Int} (returned : policy.initialTarget dep book group = .ok target) :
    target = (List.range (dep.width group.1)).map fun rank =>
      min ((profiles group.1 (group.2 * dep.width group.1 + rank)).reservationBytes : Int)
        (floorOf profiles group.1 (group.2 * dep.width group.1 + rank) +
          shareOf dep profiles capacity (group.2 * dep.width group.1 + rank)) := by
  simp only [CapacityPolicy.initialTarget, bind_eq_ok] at returned
  obtain ⟨budgets, budgeted, entries, profiled, mapped⟩ := returned
  obtain rfl := budgets_eq_ok frozen budgeted
  obtain rfl := groupProfiles_eq_ok retains profiled
  rw [mapM_eq_ok (g := fun entry => min (entry.2.reservationBytes : Int)
    ((entry.2.floorBytes : Int) + shareOf dep profiles budgets entry.1)) ?_ mapped, List.map_map]
  · rfl
  · rintro ⟨device, profile⟩ _ limit single
    simp only [bind_eq_ok] at single
    obtain ⟨floors, summed, last⟩ := single
    rw [floorsOn_eq_ok retains summed, sum_map_range] at last
    exact (Except.ok.inj last).symm

/-- The service ceiling of each rank. -/
theorem serviceCeiling_eq_ok (retains : Retains profiles book) (frozen : policy.poolCapacityBytes = some capacity)
    {group : Group} (member : group ∈ dep.capacityGroups) {ceiling : List Int}
    (returned : policy.serviceCeiling dep book group = .ok ceiling) :
    ceiling = ceilingVector dep profiles capacity group := by
  simp only [CapacityPolicy.serviceCeiling, bind_eq_ok] at returned
  obtain ⟨budgets, budgeted, entries, profiled, mapped⟩ := returned
  obtain rfl := budgets_eq_ok frozen budgeted
  obtain rfl := groupProfiles_eq_ok retains profiled
  have known := (mem_capacityGroups.mp member).1
  rw [mapM_eq_ok (g := fun entry => min (entry.2.reservationBytes : Int)
    (budgets entry.1 - (floorsOf dep profiles entry.1 - floorOf profiles group.1 entry.1))) ?_ mapped, List.map_map]
  · rfl
  · rintro ⟨device, profile⟩ _ limit single
    simp only [bind_eq_ok] at single
    obtain ⟨floors, summed, last⟩ := single
    rw [floorsOn_eq_ok retains summed, sum_other_floors known] at last
    exact (Except.ok.inj last).symm

/-- Profiles and two limit vectors side by side, one entry for each rank. -/
theorem zip_profiles_eq_ok (retains : Retains profiles book) {group : Group} {found : List (Nat × PartitionProfile)}
    {first second : List Int} {entries : List ((Nat × PartitionProfile) × Int × Int)}
    (profiled : dep.groupProfiles book group = .ok found) (zipped : zipStrict found first second = .ok entries) :
    first.length = dep.width group.1 ∧ second.length = dep.width group.1 ∧
      entries = (List.range (dep.width group.1)).map fun rank =>
        ((group.2 * dep.width group.1 + rank, profiles group.1 (group.2 * dep.width group.1 + rank)),
          first.getD rank 0, second.getD rank 0) := by
  obtain rfl := groupProfiles_eq_ok retains profiled
  obtain ⟨left, right, rfl⟩ := zipStrict_eq_ok.mp zipped
  have firstWidth : first.length = dep.width group.1 := by simpa using left.symm
  have secondWidth : second.length = dep.width group.1 := right.symm.trans firstWidth
  refine ⟨firstWidth, secondWidth, ?_⟩
  conv_lhs => rw [eq_map_range firstWidth, eq_map_range secondWidth, List.zip_map', List.zip_map']

theorem growthBytes_eq_ok (retains : Retains profiles book) {group : Group} {start target : List Int}
    {growth : List (Nat × Int)} (returned : CapacityPolicy.growthBytes dep book group start target = .ok growth) :
    growth = (List.range (dep.width group.1)).map fun rank =>
      (group.2 * dep.width group.1 + rank, target.getD rank 0 - start.getD rank 0) := by
  simp only [CapacityPolicy.growthBytes, bind_eq_ok] at returned
  obtain ⟨found, profiled, entries, zipped, last⟩ := returned
  obtain ⟨-, -, rfl⟩ := zip_profiles_eq_ok retains profiled zipped
  rw [← Except.ok.inj last, List.map_map]
  rfl

theorem donorTarget_eq_ok (retains : Retains profiles book) {donor : Group} {active target : List Int}
    {shortages : List (Nat × Int)} (returned : CapacityPolicy.donorTarget dep book shortages donor active = .ok target) :
    target = (List.range (dep.width donor.1)).map fun rank =>
      max (floorOf profiles donor.1 (donor.2 * dep.width donor.1 + rank))
        (active.getD rank 0 - (shortages.lookup (donor.2 * dep.width donor.1 + rank)).getD 0) := by
  simp only [CapacityPolicy.donorTarget, bind_eq_ok] at returned
  obtain ⟨found, profiled, entries, zipped, last⟩ := returned
  obtain ⟨-, -, rfl⟩ := zip_profiles_eq_ok retains profiled zipped
  rw [← Except.ok.inj last, List.map_map]
  rfl

/-- The group may borrow up to its demand: the demand is current, asks for more
than the active limits and fits the ceilings. -/
structure Borrower (policy : CapacityPolicy) (group : Group) (demand : QuotaDemand) (active required ceiling : List Int) :
    Prop where
  demanded : policy.demands group = some demand
  current : demand.evaluatedSequence = policy.appliedSequences group
  initialized : policy.activeQuotas group = some active
  limited : policy.serviceCeilings group = some ceiling
  wanted : demand.requiredBytes = some required
  timed : ∃ deadline, demand.deadlineMonotonicNs = some deadline
  idle : policy.operations group = none
  activeWidth : active.length = required.length
  ceilingWidth : required.length = ceiling.length
  fits : ∀ rank < active.length, active.getD rank 0 ≤ required.getD rank 0 ∧ required.getD rank 0 ≤ ceiling.getD rank 0
  changed : required ≠ active

/-- An eligible demand is current, of an idle group, and fits the ceilings. -/
theorem eligibleDemand_eq_ok {group : Group} {demand : QuotaDemand}
    (returned : policy.eligibleDemand group = .ok (some demand)) :
    ∃ active required ceiling, Borrower policy group demand active required ceiling := by
  unfold CapacityPolicy.eligibleDemand at returned
  split at returned
  · rename_i found active ceiling demanded initialized limited
    split at returned
    · cases returned
    · rename_i current
      split at returned
      · rename_i required deadline wanted timed
        simp only [bind_eq_ok] at returned
        obtain ⟨entries, zipped, last⟩ := returned
        split at last
        · cases last
        · rename_i fits
          obtain rfl := Option.some.inj (Except.ok.inj last)
          obtain ⟨left, right, rfl⟩ := zipStrict_eq_ok.mp zipped
          refine ⟨active, required, ceiling, demanded, ?_, initialized, limited, wanted, ⟨deadline, timed⟩, ?_, left, right, ?_, ?_⟩
          · exact not_not.mp fun stale => current (Or.inr stale)
          · exact not_not.mp fun busy => current (Or.inl busy)
          · intro rank small
            have all := not_not.mp fun refused => fits (Or.inl refused)
            rw [List.all_eq_true] at all
            have inRequired : rank < required.length := left ▸ small
            have inCeiling : rank < ceiling.length := right ▸ inRequired
            have entry := all (active[rank], required[rank], ceiling[rank]) (by
              rw [List.mem_iff_getElem]
              exact ⟨rank, by simp [small, inRequired, inCeiling], by simp⟩)
            rw [List.getD_eq_getElem _ _ small, List.getD_eq_getElem _ _ inRequired, List.getD_eq_getElem _ _ inCeiling]
            simpa using entry
          · exact fun same => fits (Or.inr same)
      · cases returned
  · cases returned

end Queries

/-! ## Free bytes -/

section FreeBytes

variable {dep : Deployment} {profiles : Nat → Nat → PartitionProfile} {book : RegistrationBook}
variable {policy : CapacityPolicy} {capacity : Nat → Int}

/-- What the group of an Instance takes from one device. -/
def takes (dep : Deployment) (policy : CapacityPolicy) (group : Group) (device : Nat) : Int :=
  if device / dep.width group.1 = group.2 then held dep policy group.1 device else 0

theorem foldl_update_sub {α : Type} (entries : List ((Nat × α) × Int × Int)) (free : Nat → Int) (device : Nat) :
    (entries.foldl (fun free entry => Function.update free entry.1.1 (free entry.1.1 - max entry.2.1 entry.2.2)) free) device =
      free device - (entries.map fun entry => if entry.1.1 = device then max entry.2.1 entry.2.2 else 0).sum := by
  induction entries generalizing free with
  | nil => simp
  | cons entry rest ih =>
    rw [List.foldl_cons, ih, List.map_cons, List.sum_cons]
    by_cases same : entry.1.1 = device
    · subst same
      simp
      ring
    · simp [same, Function.update_of_ne (Ne.symm same)]

/-- Of a group's ranks at most one is on a given device. -/
theorem sum_ranks_on_device (dpRank device : Nat) {width : Nat} (positive : 0 < width) (f : Nat → Int) :
    ((List.range width).map fun rank => if dpRank * width + rank = device then f rank else 0).sum =
      if device / width = dpRank then f (device % width) else 0 := by
  rw [sum_map_range]
  by_cases here : device / width = dpRank
  · rw [if_pos here, Finset.sum_eq_single (device % width)]
    · rw [if_pos]
      rw [← here, Nat.mul_comm]
      exact Nat.div_add_mod device width
    · intro rank small apart
      refine if_neg fun same => apart ?_
      rw [← same, (rank_div_mod (Finset.mem_range.mp small)).2]
    · intro outside
      exact absurd (Finset.mem_range.mpr (Nat.mod_lt _ positive)) outside
  · rw [if_neg here]
    refine Finset.sum_eq_zero fun rank small => if_neg fun same => here ?_
    rw [← same, (rank_div_mod (Finset.mem_range.mp small)).1]

theorem chargeGroup_eq_ok (retains : Retains profiles book) {group : Group} {free next : Nat → Int}
    (returned : CapacityPolicy.chargeGroup dep book policy free group = .ok next) {device : Nat}
    (positive : 0 < dep.width group.1) : next device = free device - takes dep policy group device := by
  unfold CapacityPolicy.chargeGroup at returned
  split at returned
  · rename_i uninitialized
    obtain rfl := Except.ok.inj returned
    unfold takes
    split
    · rename_i here
      unfold held
      rw [here, uninitialized, sub_zero]
    · rw [sub_zero]
  · rename_i active initialized
    simp only [bind_eq_ok] at returned
    obtain ⟨found, profiled, entries, zipped, last⟩ := returned
    obtain ⟨-, -, rfl⟩ := zip_profiles_eq_ok retains profiled zipped
    rw [← Except.ok.inj last, foldl_update_sub, List.map_map]
    have sums := sum_ranks_on_device group.2 device positive
      fun rank => max (active.getD rank 0) ((policy.pendingQuota group active).getD rank 0)
    refine congrArg (free device - ·) (Eq.trans ?_ (sums.trans ?_))
    · rfl
    · unfold takes
      split
      · rename_i here
        unfold held
        rw [here, initialized]
      · rfl

/-- Over all groups a device loses what its partitions hold. -/
theorem sum_takes {device : Nat} (small : device < dep.atnWorldSize) :
    (dep.capacityGroups.map fun group => takes dep policy group device).sum =
      ∑ index ∈ Finset.range dep.instanceCount, held dep policy index device := by
  have rows (indices : List Nat) (known : ∀ index ∈ indices, index < dep.instanceCount) :
      ((indices.flatMap fun index => (List.range (dep.plan index).atnDpSize).map fun dpRank => (index, dpRank)).map
        fun group => takes dep policy group device).sum = (indices.map fun index => held dep policy index device).sum := by
    induction indices with
    | nil => rfl
    | cons index rest ih =>
      rw [List.flatMap_cons, List.map_append, List.sum_append, List.map_cons, List.sum_cons,
        ih fun other member => known other (by simp [member])]
      congr 1
      rw [List.map_map]
      show ((List.range _).map fun dpRank => takes dep policy (index, dpRank) device).sum = _
      rw [sum_map_range]
      have found := (mem_capacityGroups.mp (device_group (known index (by simp)) small).2).2
      exact (Finset.sum_ite_eq (Finset.range _) (device / dep.width index) fun _ => held dep policy index device).trans
        (if_pos (Finset.mem_range.mpr found))
  rw [← sum_map_range]
  exact rows _ fun index member => List.mem_range.mp member

/-- Charging every group leaves a device its capacity less what its partitions
hold. -/
theorem chargeGroups_eq_ok (retains : Retains profiles book) {free : Nat → Int}
    (folded : dep.capacityGroups.foldlM (CapacityPolicy.chargeGroup dep book policy) capacity = .ok free) {device : Nat}
    (small : device < dep.atnWorldSize) :
    free device = capacity device - ∑ index ∈ Finset.range dep.instanceCount, held dep policy index device := by
  rw [← sum_takes small]
  refine foldlM_eq_ok (R := fun seen acc => acc device = capacity device - (seen.map fun group => takes dep policy group device).sum)
    (by simp) ?_ folded
  intro seen group acc next member before charged
  obtain ⟨known, -⟩ := mem_capacityGroups.mp member
  rw [chargeGroup_eq_ok retains charged (device_group known small).1, before]
  simp only [List.map_append, List.sum_append, List.map_cons, List.map_nil, List.sum_cons, List.sum_nil]
  ring

/-- The free bytes of a device are its capacity less what its partitions hold. -/
theorem poolFreeBytes_eq_ok (retains : Retains profiles book) (frozen : policy.poolCapacityBytes = some capacity)
    {free : Nat → Int} (returned : policy.poolFreeBytes dep book = .ok free) {device : Nat} (small : device < dep.atnWorldSize) :
    free device = capacity device - ∑ index ∈ Finset.range dep.instanceCount, held dep policy index device := by
  simp only [CapacityPolicy.poolFreeBytes, bind_eq_ok] at returned
  obtain ⟨budgets, budgeted, result, folded, last⟩ := returned
  obtain rfl := budgets_eq_ok frozen budgeted
  split at last
  · cases last
  · obtain rfl := Except.ok.inj last
    exact chargeGroups_eq_ok retains folded small

end FreeBytes

/-! ## The invariant -/

section Invariant

variable (dep : Deployment) (profiles : Nat → Nat → PartitionProfile)

/-- Some group has not applied its first operation. -/
def Starting (policy : CapacityPolicy) : Prop :=
  ∃ group ∈ dep.capacityGroups, policy.appliedSequences group = 0

/-- The accounting of a policy with frozen device capacities. -/
structure Accounted (capacity : Nat → Int) (policy : CapacityPolicy) : Prop where
  floors : ∀ device < dep.atnWorldSize, floorsOf dep profiles device ≤ capacity device
  known : ∀ group, policy.activeQuotas group ≠ none → group ∈ dep.capacityGroups
  active : ∀ group ∈ dep.capacityGroups, ∀ quota, policy.activeQuotas group = some quota →
    Within dep profiles capacity group quota
  pending : ∀ group ∈ dep.capacityGroups, ∀ operation, policy.operations group = some operation →
    Within dep profiles capacity group operation.quotaBytes ∧ policy.activeQuotas group ≠ none ∧
      operation.sequence = policy.appliedSequences group + 1
  ceilings : ∀ group ∈ dep.capacityGroups, ∀ ceiling, policy.serviceCeilings group = some ceiling →
    ceiling = ceilingVector dep profiles capacity group
  budget : ∀ device < dep.atnWorldSize,
    ∑ index ∈ Finset.range dep.instanceCount, held dep policy index device ≤ capacity device
  startup : Starting dep policy → ∀ index < dep.instanceCount, ∀ device < dep.atnWorldSize,
    held dep policy index device ≤ floorOf profiles index device + shareOf dep profiles capacity device

/-- The policy's invariant, before and after the capacities are frozen. -/
structure PolicyInvariant (policy : CapacityPolicy) : Prop where
  fresh : policy.poolCapacityBytes = none → policy = CapacityPolicy.create
  frozen : ∀ capacity, policy.poolCapacityBytes = some capacity → Accounted dep profiles capacity policy

/-- A limit vector the policy may publish for an idle group: a startup target
while some group is starting; afterwards a shrink, or a grant within the free
bytes of each device. -/
structure Publishable (capacity : Nat → Int) (policy : CapacityPolicy) (group : Group) (active target : List Int) : Prop where
  within : Within dep profiles capacity group target
  startup : Starting dep policy → ∀ rank < dep.width group.1, target.getD rank 0 ≤
    floorOf profiles group.1 (group.2 * dep.width group.1 + rank) +
      shareOf dep profiles capacity (group.2 * dep.width group.1 + rank)
  funded : ¬ Starting dep policy → ∀ rank < dep.width group.1, target.getD rank 0 ≤ active.getD rank 0 ∨
    target.getD rank 0 - active.getD rank 0 ≤ capacity (group.2 * dep.width group.1 + rank) -
      ∑ index ∈ Finset.range dep.instanceCount, held dep policy index (group.2 * dep.width group.1 + rank)

/-- The updates of the policy `step` is made of, up to the fields the accounting
does not read. -/
inductive Move (readings : Readings) : CapacityPolicy → CapacityPolicy → Prop where
  | freeze {policy : CapacityPolicy} (capacity : Nat → Int) : policy = CapacityPolicy.create →
      (∀ device < dep.atnWorldSize, floorsOf dep profiles device ≤ capacity device) →
      Move readings policy { policy with poolCapacityBytes := some capacity }
  | floor {policy policy' : CapacityPolicy} (group : Group) : group ∈ dep.capacityGroups →
      policy.poolCapacityBytes ≠ none → policy.operations group = none → policy.appliedSequences group = 0 →
      policy'.activeQuotas = Function.update policy.activeQuotas group (some (floorVector dep profiles group)) →
      policy'.operations = policy.operations → policy'.appliedSequences = policy.appliedSequences →
      policy'.serviceCeilings = policy.serviceCeilings → policy'.poolCapacityBytes = policy.poolCapacityBytes →
      policy'.commands = policy.commands → Move readings policy policy'
  | ceiling {policy policy' : CapacityPolicy} (group : Group) (capacity : Nat → Int) :
      policy.poolCapacityBytes = some capacity →
      policy'.serviceCeilings =
        Function.update policy.serviceCeilings group (some (ceilingVector dep profiles capacity group)) →
      policy'.activeQuotas = policy.activeQuotas → policy'.operations = policy.operations →
      policy'.appliedSequences = policy.appliedSequences → policy'.poolCapacityBytes = policy.poolCapacityBytes →
      policy'.commands = policy.commands → Move readings policy policy'
  | retire {policy policy' : CapacityPolicy} (group : Group) (operation : QuotaCommand) : group ∈ dep.capacityGroups →
      policy.poolCapacityBytes ≠ none → policy.operations group = some operation →
      (∀ slot ∈ dep.groupPartitions group, (readings.completions slot).map (·.sequence) = some operation.sequence) →
      policy'.activeQuotas = Function.update policy.activeQuotas group (some operation.quotaBytes) →
      policy'.appliedSequences = Function.update policy.appliedSequences group operation.sequence →
      policy'.operations = Function.update policy.operations group none →
      policy'.serviceCeilings = policy.serviceCeilings → policy'.poolCapacityBytes = policy.poolCapacityBytes →
      policy'.commands = policy.commands → Move readings policy policy'
  | publish {policy policy' : CapacityPolicy} (group : Group) (capacity : Nat → Int) (active target : List Int) :
      group ∈ dep.capacityGroups → policy.poolCapacityBytes = some capacity →
      policy.operations group = none → policy.activeQuotas group = some active →
      Publishable dep profiles capacity policy group active target →
      policy'.operations =
        Function.update policy.operations group (some ⟨policy.appliedSequences group + 1, target⟩) →
      (policy'.commands = Function.update policy.commands group
          (⟨policy.appliedSequences group + 1, target⟩ :: policy.commands group) ∨
        policy'.commands = policy.commands ∧
          (policy.commands group).head? = some ⟨policy.appliedSequences group + 1, target⟩) →
      policy'.activeQuotas = policy.activeQuotas → policy'.appliedSequences = policy.appliedSequences →
      policy'.serviceCeilings = policy.serviceCeilings → policy'.poolCapacityBytes = policy.poolCapacityBytes →
      Move readings policy policy'
  | other {policy policy' : CapacityPolicy} : policy.poolCapacityBytes ≠ none →
      policy'.activeQuotas = policy.activeQuotas → policy'.operations = policy.operations →
      policy'.appliedSequences = policy.appliedSequences → policy'.serviceCeilings = policy.serviceCeilings →
      policy'.poolCapacityBytes = policy.poolCapacityBytes → policy'.commands = policy.commands →
      Move readings policy policy'

variable {dep profiles}
variable {policy : CapacityPolicy} {capacity : Nat → Int}

/-- The accounting reads four of the policy's fields. -/
theorem Accounted.congr {policy' : CapacityPolicy} (accounted : Accounted dep profiles capacity policy)
    (active : policy'.activeQuotas = policy.activeQuotas) (operations : policy'.operations = policy.operations)
    (applied : policy'.appliedSequences = policy.appliedSequences) (ceilings : policy'.serviceCeilings = policy.serviceCeilings) :
    Accounted dep profiles capacity policy' := by
  have same : ∀ index device, held dep policy' index device = held dep policy index device := by
    intro index device
    simp only [held, CapacityPolicy.pendingQuota, active, operations]
  refine ⟨accounted.floors, ?_, ?_, ?_, ?_, ?_, ?_⟩
  · rw [active]; exact accounted.known
  · rw [active]; exact accounted.active
  · rw [active, operations, applied]; exact accounted.pending
  · rw [ceilings]; exact accounted.ceilings
  · simp only [same]; exact accounted.budget
  · simp only [same, Starting, applied]; exact accounted.startup

/-- The shares of one device add up to at most its spare bytes. -/
theorem sum_shares_le {device : Nat} (fits : floorsOf dep profiles device ≤ capacity device) :
    ∑ index ∈ Finset.range dep.instanceCount, (floorOf profiles index device + shareOf dep profiles capacity device) ≤
      capacity device := by
  rw [Finset.sum_add_distrib, Finset.sum_const, Finset.card_range, nsmul_eq_mul]
  show floorsOf dep profiles device + _ ≤ _
  have share : (dep.instanceCount : Int) * shareOf dep profiles capacity device ≤
      capacity device - floorsOf dep profiles device := by
    rcases Nat.eq_zero_or_pos dep.instanceCount with none | some
    · rw [none]
      simpa using fits
    · exact Int.mul_ediv_self_le (by omega)
  omega

theorem share_nonneg {device : Nat} (fits : floorsOf dep profiles device ≤ capacity device) :
    0 ≤ shareOf dep profiles capacity device :=
  Int.ediv_nonneg (by omega) (by omega)

theorem floorOf_nonneg (index device : Nat) : 0 ≤ floorOf profiles index device :=
  Int.natCast_nonneg _

/-- A floor is at most its ceiling, since the capacity retains all floors. -/
theorem floor_le_ceiling {index device : Nat} (fits : floorsOf dep profiles device ≤ capacity device) :
    floorOf profiles index device ≤ ceilingOf dep profiles capacity index device := by
  have bounds := (profiles index device).bounds.1
  unfold ceilingOf
  refine le_min ?_ (by omega)
  unfold floorOf
  exact_mod_cast bounds

/-- A floor and a share are at most the ceiling, where the reservation allows. -/
theorem target_le_ceiling {index device : Nat}
    (fits : floorsOf dep profiles device ≤ capacity device) :
    min ((profiles index device).reservationBytes : Int) (floorOf profiles index device + shareOf dep profiles capacity device)
      ≤ ceilingOf dep profiles capacity index device := by
  have share : shareOf dep profiles capacity device ≤ capacity device - floorsOf dep profiles device := by
    unfold shareOf
    exact Int.ediv_le_self _ (by omega)
  unfold ceilingOf
  refine le_min (min_le_left _ _) ((min_le_right _ _).trans ?_)
  omega

/-- The budget of a device follows from the startup bound. -/
theorem budget_of_startup {device : Nat} (fits : floorsOf dep profiles device ≤ capacity device)
    (bound : ∀ index < dep.instanceCount,
      held dep policy index device ≤ floorOf profiles index device + shareOf dep profiles capacity device) :
    ∑ index ∈ Finset.range dep.instanceCount, held dep policy index device ≤ capacity device :=
  (Finset.sum_le_sum fun index member => bound index (Finset.mem_range.mp member)).trans (sum_shares_le fits)

/-- Replacing one summand adds the difference. -/
theorem sum_replace {f g : Nat → Int} {index count : Nat} (known : index < count)
    (same : ∀ other < count, other ≠ index → g other = f other) :
    ∑ other ∈ Finset.range count, g other = ∑ other ∈ Finset.range count, f other + (g index - f index) := by
  have member : index ∈ Finset.range count := Finset.mem_range.mpr known
  rw [← Finset.add_sum_erase _ g member, ← Finset.add_sum_erase _ f member]
  have rest : ∑ other ∈ (Finset.range count).erase index, g other = ∑ other ∈ (Finset.range count).erase index, f other :=
    Finset.sum_congr rfl fun other apart =>
      same other (Finset.mem_range.mp (Finset.mem_of_mem_erase apart)) (Finset.ne_of_mem_erase apart)
  rw [rest]
  ring

section Publish

variable {policy' : CapacityPolicy} {group : Group} {active target : List Int} {sequence : Nat}

/-- A partition of another group keeps its permission; one of the published
group holds the larger limit. -/
theorem held_publish (initialized : policy.activeQuotas group = some active)
    (operations : policy'.operations = Function.update policy.operations group (some ⟨sequence, target⟩))
    (kept : policy'.activeQuotas = policy.activeQuotas) (index device : Nat) :
    held dep policy' index device =
      if (index, device / dep.width index) = group then
        max (active.getD (device % dep.width index) 0) (target.getD (device % dep.width index) 0)
      else held dep policy index device := by
  split
  · rename_i here
    simp only [held, CapacityPolicy.pendingQuota, kept, operations, here, initialized, Function.update_self]
  · rename_i apart
    simp only [held, CapacityPolicy.pendingQuota, kept, operations, Function.update_of_ne apart]

theorem held_idle (initialized : policy.activeQuotas group = some active) (idle : policy.operations group = none)
    {index device : Nat} (here : (index, device / dep.width index) = group) :
    held dep policy index device = active.getD (device % dep.width index) 0 := by
  simp only [held, CapacityPolicy.pendingQuota, here, initialized, idle, max_self]

/-- Publishing a publishable vector keeps the accounting. -/
theorem Accounted.publish (accounted : Accounted dep profiles capacity policy) (member : group ∈ dep.capacityGroups)
    (idle : policy.operations group = none) (initialized : policy.activeQuotas group = some active)
    (publishable : Publishable dep profiles capacity policy group active target)
    (operations : policy'.operations =
      Function.update policy.operations group (some ⟨policy.appliedSequences group + 1, target⟩))
    (kept : policy'.activeQuotas = policy.activeQuotas) (applied : policy'.appliedSequences = policy.appliedSequences)
    (ceilings : policy'.serviceCeilings = policy.serviceCeilings) : Accounted dep profiles capacity policy' := by
  have after (index device : Nat) : held dep policy' index device = _ := held_publish initialized operations kept index device
  have starts : Starting dep policy' ↔ Starting dep policy := by simp only [Starting, applied]
  have startup : Starting dep policy → ∀ index < dep.instanceCount, ∀ device < dep.atnWorldSize,
      held dep policy' index device ≤ floorOf profiles index device + shareOf dep profiles capacity device := by
    intro starting index known device small
    have before := accounted.startup starting index known device small
    rw [after]
    split
    · rename_i here
      rw [held_idle initialized idle here] at before
      refine max_le before ?_
      subst here
      obtain ⟨positive, -⟩ := device_group known small
      have bound := publishable.startup starting (device % dep.width index) (Nat.mod_lt _ positive)
      rwa [Nat.mul_comm, Nat.div_add_mod] at bound
    · exact before
  refine ⟨accounted.floors, ?_, ?_, ?_, ?_, ?_, ?_⟩
  · rw [kept]; exact accounted.known
  · rw [kept]; exact accounted.active
  · intro other known operation found
    rw [kept, applied]
    rw [operations] at found
    by_cases here : other = group
    · subst here
      rw [Function.update_self] at found
      obtain rfl := Option.some.inj found
      exact ⟨publishable.within, by simp [initialized], rfl⟩
    · rw [Function.update_of_ne here] at found
      exact accounted.pending other known operation found
  · rw [ceilings]; exact accounted.ceilings
  · intro device small
    by_cases starting : Starting dep policy
    · exact budget_of_startup (accounted.floors device small) fun index known => startup starting index known device small
    · have budget := accounted.budget device small
      by_cases here : device / dep.width group.1 = group.2
      · have known := (mem_capacityGroups.mp member).1
        obtain ⟨positive, -⟩ := device_group known small
        have named : (group.1, device / dep.width group.1) = group := Prod.ext rfl here
        rw [sum_replace known (f := fun index => held dep policy index device)]
        · rw [after, if_pos named, held_idle initialized idle named]
          have funded := publishable.funded starting (device % dep.width group.1) (Nat.mod_lt _ positive)
          have place : group.2 * dep.width group.1 + device % dep.width group.1 = device := by
            rw [← here, Nat.mul_comm]
            exact Nat.div_add_mod device _
          rw [place] at funded
          rcases funded with shrink | grant
          · rw [max_eq_left shrink]
            omega
          · rcases le_total (target.getD (device % dep.width group.1) 0) (active.getD (device % dep.width group.1) 0)
              with below | above
            · rw [max_eq_left below]
              omega
            · rw [max_eq_right above]
              omega
        · intro other _ apart
          rw [after, if_neg fun same => apart (congrArg Prod.fst same)]
      · have unchanged : ∀ index, held dep policy' index device = held dep policy index device := by
          intro index
          rw [after, if_neg]
          rintro rfl
          exact here rfl
        simp only [unchanged]
        exact budget
  · rw [starts]; exact startup

end Publish

/-- Retiring an operation never raises a partition's permission. -/
theorem held_retire {policy' : CapacityPolicy} {group : Group} {operation : QuotaCommand}
    (pending : policy.operations group = some operation) (initialized : policy.activeQuotas group ≠ none)
    (active : policy'.activeQuotas = Function.update policy.activeQuotas group (some operation.quotaBytes))
    (operations : policy'.operations = Function.update policy.operations group none) (index device : Nat) :
    held dep policy' index device ≤ held dep policy index device := by
  by_cases here : (index, device / dep.width index) = group
  · obtain ⟨old, found⟩ := Option.ne_none_iff_exists'.mp initialized
    simp only [held, CapacityPolicy.pendingQuota, active, operations, here, found, pending, Function.update_self, max_self]
    exact le_max_right _ _
  · simp only [held, CapacityPolicy.pendingQuota, active, operations, Function.update_of_ne here, le_refl]

theorem Accounted.retire {policy' : CapacityPolicy} {group : Group} {operation : QuotaCommand}
    (accounted : Accounted dep profiles capacity policy) (member : group ∈ dep.capacityGroups)
    (pending : policy.operations group = some operation)
    (active : policy'.activeQuotas = Function.update policy.activeQuotas group (some operation.quotaBytes))
    (applied : policy'.appliedSequences = Function.update policy.appliedSequences group operation.sequence)
    (operations : policy'.operations = Function.update policy.operations group none)
    (ceilings : policy'.serviceCeilings = policy.serviceCeilings) : Accounted dep profiles capacity policy' := by
  obtain ⟨within, initialized, numbered⟩ := accounted.pending group member operation pending
  have less (index device : Nat) : held dep policy' index device ≤ held dep policy index device :=
    held_retire pending initialized active operations index device
  refine ⟨accounted.floors, ?_, ?_, ?_, ?_, ?_, ?_⟩
  · intro other initialized
    by_cases here : other = group
    · exact here ▸ member
    · rw [active, Function.update_of_ne here] at initialized
      exact accounted.known other initialized
  · intro other known quota found
    rw [active] at found
    by_cases here : other = group
    · subst here
      rw [Function.update_self] at found
      obtain rfl := Option.some.inj found
      exact within
    · rw [Function.update_of_ne here] at found
      exact accounted.active other known quota found
  · intro other known next found
    rw [operations] at found
    by_cases here : other = group
    · subst here
      rw [Function.update_self] at found
      cases found
    · rw [Function.update_of_ne here] at found
      rw [active, applied, Function.update_of_ne here, Function.update_of_ne here]
      exact accounted.pending other known next found
  · rw [ceilings]; exact accounted.ceilings
  · intro device small
    exact (Finset.sum_le_sum fun index _ => less index device).trans (accounted.budget device small)
  · rintro ⟨other, known, zero⟩ index below device small
    refine (less index device).trans (accounted.startup ⟨other, known, ?_⟩ index below device small)
    rw [applied] at zero
    by_cases here : other = group
    · subst here
      rw [Function.update_self] at zero
      omega
    · rwa [Function.update_of_ne here] at zero

theorem getD_map_range (f : Nat → Int) {rank count : Nat} (small : rank < count) :
    ((List.range count).map f).getD rank 0 = f rank := by
  rw [List.getD_eq_getElem _ _ (by simpa using small)]
  simp

theorem floorVector_within {group : Group} (member : group ∈ dep.capacityGroups)
    (floors : ∀ device < dep.atnWorldSize, floorsOf dep profiles device ≤ capacity device) :
    Within dep profiles capacity group (floorVector dep profiles group) := by
  refine ⟨by simp [floorVector], ?_, ?_⟩
  · intro rank small
    rw [floorVector, getD_map_range _ small]
  · intro rank small
    rw [floorVector, getD_map_range _ small]
    exact floor_le_ceiling (floors _ (rank_lt_world member small))

/-- Giving a group its floors at startup keeps the accounting. -/
theorem Accounted.floor {policy' : CapacityPolicy} {group : Group} (accounted : Accounted dep profiles capacity policy)
    (member : group ∈ dep.capacityGroups) (idle : policy.operations group = none)
    (unapplied : policy.appliedSequences group = 0)
    (active : policy'.activeQuotas = Function.update policy.activeQuotas group (some (floorVector dep profiles group)))
    (operations : policy'.operations = policy.operations) (applied : policy'.appliedSequences = policy.appliedSequences)
    (ceilings : policy'.serviceCeilings = policy.serviceCeilings) : Accounted dep profiles capacity policy' := by
  have starting : Starting dep policy := ⟨group, member, unapplied⟩
  have startup : ∀ index < dep.instanceCount, ∀ device < dep.atnWorldSize,
      held dep policy' index device ≤ floorOf profiles index device + shareOf dep profiles capacity device := by
    intro index known device small
    by_cases here : (index, device / dep.width index) = group
    · obtain ⟨positive, -⟩ := device_group known small
      have least : held dep policy' index device = floorOf profiles index device := by
        subst here
        simp only [held, CapacityPolicy.pendingQuota, active, operations, idle, Function.update_self, max_self]
        rw [floorVector, getD_map_range _ (Nat.mod_lt _ positive), Nat.mul_comm, Nat.div_add_mod]
      have := share_nonneg (accounted.floors device small)
      omega
    · have before := accounted.startup starting index known device small
      simpa only [held, CapacityPolicy.pendingQuota, active, operations, Function.update_of_ne here] using before
  refine ⟨accounted.floors, ?_, ?_, ?_, ?_, ?_, fun _ => startup⟩
  · intro other initialized
    by_cases here : other = group
    · exact here ▸ member
    · rw [active, Function.update_of_ne here] at initialized
      exact accounted.known other initialized
  · intro other known quota found
    rw [active] at found
    by_cases here : other = group
    · subst here
      rw [Function.update_self] at found
      obtain rfl := Option.some.inj found
      exact floorVector_within member accounted.floors
    · rw [Function.update_of_ne here] at found
      exact accounted.active other known quota found
  · intro other known operation found
    rw [operations] at found
    have apart : other ≠ group := by
      rintro rfl
      exact absurd (idle.symm.trans found) (by simp)
    rw [active, applied, Function.update_of_ne apart]
    exact accounted.pending other known operation found
  · rw [ceilings]; exact accounted.ceilings
  · intro device small
    exact budget_of_startup (accounted.floors device small) fun index known => startup index known device small

/-- Storing a group's ceilings keeps the accounting. -/
theorem Accounted.ceiling {policy' : CapacityPolicy} {group : Group} (accounted : Accounted dep profiles capacity policy)
    (ceilings : policy'.serviceCeilings =
      Function.update policy.serviceCeilings group (some (ceilingVector dep profiles capacity group)))
    (active : policy'.activeQuotas = policy.activeQuotas) (operations : policy'.operations = policy.operations)
    (applied : policy'.appliedSequences = policy.appliedSequences) : Accounted dep profiles capacity policy' := by
  have stored : Accounted dep profiles capacity { policy' with serviceCeilings := policy.serviceCeilings } :=
    accounted.congr active operations applied rfl
  refine ⟨accounted.floors, stored.known, stored.active, stored.pending, ?_, stored.budget, stored.startup⟩
  intro other known ceiling found
  rw [ceilings] at found
  by_cases here : other = group
  · subst here
    rw [Function.update_self] at found
    exact (Option.some.inj found).symm
  · rw [Function.update_of_ne here] at found
    exact accounted.ceilings other known ceiling found

theorem create_accounted (floors : ∀ device < dep.atnWorldSize, floorsOf dep profiles device ≤ capacity device) :
    Accounted dep profiles capacity { CapacityPolicy.create with poolCapacityBytes := some capacity } := by
  have startup : ∀ index < dep.instanceCount, ∀ device < dep.atnWorldSize,
      held dep { CapacityPolicy.create with poolCapacityBytes := some capacity } index device ≤
        floorOf profiles index device + shareOf dep profiles capacity device := by
    intro index _ device small
    show (0 : Int) ≤ _
    have := share_nonneg (floors device small)
    have : 0 ≤ floorOf profiles index device := floorOf_nonneg index device
    omega
  refine ⟨floors, ?_, ?_, ?_, ?_, ?_, fun _ => startup⟩
  · intro group initialized; exact absurd rfl initialized
  · intro group _ quota found; cases found
  · intro group _ operation found; cases found
  · intro group _ ceiling found; cases found
  · intro device small
    exact budget_of_startup (floors device small) fun index known => startup index known device small

/-- Every move keeps the invariant. -/
theorem Move.invariant {readings : Readings} {policy' : CapacityPolicy} (inv : PolicyInvariant dep profiles policy)
    (move : Move dep profiles readings policy policy') : PolicyInvariant dep profiles policy' := by
  cases move with
  | freeze capacity created floors =>
    subst created
    refine ⟨fun unfrozen => by simp at unfrozen, ?_⟩
    rintro _ ⟨⟩
    exact create_accounted floors
  | floor group member live idle unapplied active operations applied ceilings pool =>
    refine ⟨fun unfrozen => absurd (pool ▸ unfrozen) live, fun capacity frozen => ?_⟩
    exact (inv.frozen capacity (pool ▸ frozen)).floor member idle unapplied active operations applied ceilings
  | ceiling group capacity frozen ceilings active operations applied pool =>
    refine ⟨fun unfrozen => absurd (frozen.symm.trans (pool ▸ unfrozen)) (by simp), fun capacity' frozen' => ?_⟩
    obtain rfl := Option.some.inj (frozen.symm.trans (pool ▸ frozen'))
    exact (inv.frozen capacity frozen).ceiling ceilings active operations applied
  | retire group operation member live pending replies active applied operations ceilings pool =>
    refine ⟨fun unfrozen => absurd (pool ▸ unfrozen) live, fun capacity frozen => ?_⟩
    exact (inv.frozen capacity (pool ▸ frozen)).retire member pending active applied operations ceilings
  | publish group capacity active target member frozen idle initialized publishable operations commands kept applied
      ceilings pool =>
    refine ⟨fun unfrozen => absurd (frozen.symm.trans (pool ▸ unfrozen)) (by simp), fun capacity' frozen' => ?_⟩
    obtain rfl := Option.some.inj (frozen.symm.trans (pool ▸ frozen'))
    exact (inv.frozen capacity frozen).publish member idle initialized publishable operations kept applied ceilings
  | other live active operations applied ceilings pool =>
    refine ⟨fun unfrozen => absurd (pool ▸ unfrozen) live, fun capacity frozen => ?_⟩
    exact (inv.frozen capacity (pool ▸ frozen)).congr active operations applied ceilings

end Invariant

end CrossPool.Ecs
