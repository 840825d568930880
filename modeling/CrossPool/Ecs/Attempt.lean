import CrossPool.Ecs.Funding

/-!
# Funding attempts over runs of the policy

A run consists of returning steps: after a raise the daemon records a control
failure, aborts the generation and steps the policy no more. `Open` is what holds
of an open attempt in every state of a run, and `Continues` relates two states
between which it stayed open.
-/

namespace CrossPool.Ecs

open CrossPool.Lib

/-! ## One step -/

section Step

variable {dep : Deployment} {profiles : Nat → Nat → PartitionProfile} {capacity : Nat → Int}
variable {book : RegistrationBook} {readings : Readings} {s t u : CapacityPolicy}

/-- What a returning step does, with or without freezing the budgets first. -/
inductive Stepped (dep : Deployment) (profiles : Nat → Nat → PartitionProfile) (readings : Readings) (s : CapacityPolicy) :
    CapacityPolicy → Prop where
  | unready : Stepped dep profiles readings s s
  | progress {f t : CapacityPolicy} (capacity : Nat → Int) : f.commands = s.commands → f.fundingAttempt = s.fundingAttempt →
      (s.poolCapacityBytes ≠ none → f = s) → f.poolCapacityBytes = some capacity → PolicyInvariant dep profiles f →
      Issued f → Progress dep profiles capacity readings f t → Stepped dep profiles readings s t

theorem freezeGroup_spec (group : Group) :
    wp (CapacityPolicy.freezeGroup dep book group)
      (fun _ t => t.commands = s.commands ∧ t.fundingAttempt = s.fundingAttempt) (fun t => t.commands = s.commands) s := by
  unfold CapacityPolicy.freezeGroup
  simp only [wp_bind]
  refine wp_query_of ?_ rfl
  intro found _
  simp only [wp_modify]
  refine wp_query_of ?_ rfl
  intro ceiling _
  exact ⟨rfl, rfl⟩

theorem freezePools_spec :
    wp (CapacityPolicy.freezePools dep book readings)
      (fun _ t => t.commands = s.commands ∧ t.fundingAttempt = s.fundingAttempt) (fun t => t.commands = s.commands) s := by
  unfold CapacityPolicy.freezePools
  simp only [wp_bind]
  refine wp_query_of ?_ rfl
  intro budgets _
  simp only [wp_modify]
  refine wp_forM (fun t : CapacityPolicy => t.commands = s.commands ∧ t.fundingAttempt = s.fundingAttempt) ?_ ⟨rfl, rfl⟩
  rintro group _ t ⟨commands, attempt⟩
  refine wp_mono (freezeGroup_spec group) ?_ ?_
  · rintro _ u ⟨sent, noted⟩
    exact ⟨sent.trans commands, noted.trans attempt⟩
  · intro u sent
    exact sent.trans commands

theorem step_spec (retains : Retains profiles book) (inv : PolicyInvariant dep profiles s) (issued : Issued s) :
    wp (CapacityPolicy.step dep book readings) (fun _ t => Stepped dep profiles readings s t)
      (fun t => t.commands = s.commands) s := by
  unfold CapacityPolicy.step
  simp only [wp_bind, wp_get]
  split
  · exact .unready
  split
  · rename_i unfrozen
    simp only [wp_bind]
    refine wp_mono (wp_and freezePools_spec (freezePools_moves retains (inv.fresh unfrozen) inv)) ?_ (fun _ h => h.1)
    rintro _ f ⟨⟨commands, attempt⟩, along, frozen⟩
    obtain ⟨capacity, budgets⟩ := Option.ne_none_iff_exists'.mp frozen
    have invThere := along.invariant inv
    have issuedThere := along.issued issued
    refine wp_mono (progress_spec retains budgets invThere issuedThere) ?_ (fun _ h => h.trans commands)
    intro _ t progress
    exact .progress capacity commands attempt (fun already => absurd unfrozen already) budgets invThere issuedThere progress
  · rename_i frozen
    obtain ⟨capacity, budgets⟩ := Option.ne_none_iff_exists'.mp frozen
    refine wp_mono (progress_spec retains budgets inv issued) ?_ (fun _ h => h)
    intro _ t progress
    exact .progress capacity rfl rfl (fun _ => rfl) budgets inv issued progress

/-- A step that returned. -/
def Returns (dep : Deployment) (profiles : Nat → Nat → PartitionProfile) (book : RegistrationBook) (readings : Readings)
    (s t : CapacityPolicy) : Prop :=
  Retains profiles book ∧ CapacityPolicy.step dep book readings s = .ok () t

theorem Returns.stepped (returned : Returns dep profiles book readings s t) (inv : PolicyInvariant dep profiles s)
    (issued : Issued s) : Stepped dep profiles readings s t := by
  have spec : wp (CapacityPolicy.step dep book readings) (fun _ t => Stepped dep profiles readings s t)
      (fun t => t.commands = s.commands) s := step_spec returned.1 inv issued
  unfold wp at spec
  rwa [returned.2] at spec

end Step

/-- Runs of returning steps from a created policy. -/
def fundingRuns (dep : Deployment) (profiles : Nat → Nat → PartitionProfile) :
    System CapacityPolicy (RegistrationBook × Readings) where
  init policy := policy = CapacityPolicy.create
  step policy call next := Returns dep profiles call.1 call.2 policy next

/-! ## What a step publishes -/

section Publications

variable {dep : Deployment} {profiles : Nat → Nat → PartitionProfile} {capacity : Nat → Int}
variable {readings : Readings} {s t u : CapacityPolicy} {groups : List Group}

/-- The settled state differs from the one before in retired groups and demands. -/
theorem Settled.commands (settled : Settled dep readings s groups u) : u.commands = s.commands := by
  obtain ⟨v, retired, consumed⟩ := settled.phases
  rw [consumed.same]
  exact retired.commands

theorem Settled.attempt (settled : Settled dep readings s groups u) : u.fundingAttempt = s.fundingAttempt.map (·.note groups) := by
  obtain ⟨v, retired, consumed⟩ := settled.phases
  rw [consumed.same]

theorem Settled.done (settled : Settled dep readings s groups u) {group : Group} (listed : group ∈ groups) :
    ∃ operation, s.operations group = some operation ∧ u.operations group = none ∧
      u.activeQuotas group = some operation.quotaBytes ∧ u.appliedSequences group = operation.sequence := by
  obtain ⟨v, retired, consumed⟩ := settled.phases
  rw [consumed.same]
  exact retired.done group listed

theorem Settled.kept (settled : Settled dep readings s groups u) {group : Group} (absent : group ∉ groups) :
    u.operations group = s.operations group ∧ u.activeQuotas group = s.activeQuotas group ∧
      u.appliedSequences group = s.appliedSequences group := by
  obtain ⟨v, retired, consumed⟩ := settled.phases
  rw [consumed.same]
  exact retired.kept group absent

theorem Settled.ceilings (settled : Settled dep readings s groups u) : u.serviceCeilings = s.serviceCeilings := by
  obtain ⟨v, retired, consumed⟩ := settled.phases
  rw [consumed.same]
  exact retired.ceilings

/-- A demand is kept, or replaced by one of an operation already issued. -/
theorem Settled.demands (settled : Settled dep readings s groups u) (group : Group) :
    u.demands group = s.demands group ∨ ∃ demand, readings.demands group = some demand ∧
      u.demands group = some demand ∧ demand.evaluatedSequence ≤ s.lastIssuedSequence group := by
  obtain ⟨v, retired, consumed⟩ := settled.phases
  have last : v.lastIssuedSequence group = s.lastIssuedSequence group := by
    by_cases listed : group ∈ groups
    · obtain ⟨operation, pending, idle, -, applied⟩ := retired.done group listed
      rw [lastIssued_idle idle, lastIssued_pending pending, applied]
    · obtain ⟨operations, -, applied⟩ := retired.kept group listed
      simp only [CapacityPolicy.lastIssuedSequence, operations, applied]
  rcases consumed.demands group with kept | ⟨demand, read, stored, bound⟩
  · exact Or.inl (kept.trans (congrFun retired.demands group))
  · exact Or.inr ⟨demand, read, stored, last ▸ bound⟩

/-- An idle group is not retired. -/
theorem Settled.idle (settled : Settled dep readings s groups u) {group : Group} (idle : s.operations group = none) :
    group ∉ groups := by
  intro listed
  obtain ⟨operation, pending, -⟩ := settled.done listed
  exact absurd (idle.symm.trans pending) (by simp)

/-- No partition holds more once operations are retired. -/
theorem Settled.held_le (settled : Settled dep readings s groups u) (accounted : Accounted dep profiles capacity s)
    {index device : Nat} (known : index < dep.instanceCount) (small : device < dep.atnWorldSize) :
    held dep u index device ≤ held dep s index device := by
  by_cases listed : (index, device / dep.width index) ∈ groups
  · obtain ⟨operation, pending, idle, active, -⟩ := settled.done listed
    have initialized := (accounted.pending _ (device_group known small).2 operation pending).2.1
    obtain ⟨old, found⟩ := Option.ne_none_iff_exists'.mp initialized
    simp only [held, CapacityPolicy.pendingQuota, active, idle, found, pending, max_self]
    exact le_max_right _ _
  · obtain ⟨operations, active, -⟩ := settled.kept listed
    exact (held_congr active operations).le

/-- At most one command is published. -/
def AtMostOne (s t : CapacityPolicy) : Prop :=
  t.commands = s.commands ∨ ∃ group command, t.commands = Function.update s.commands group (command :: s.commands group)

theorem Outcome.atMostOne (outcome : Outcome dep profiles capacity u t) : AtMostOne u t := by
  cases outcome with
  | waits => exact Or.inl rfl
  | unrelated attempt donor group demand quota => exact Or.inr ⟨group, _, rfl⟩
  | advanced attempt tried advance =>
    cases advance with
    | granted => exact Or.inr ⟨attempt.borrower, _, rfl⟩
    | donated active donor => exact Or.inr ⟨donor, _, rfl⟩
  | quits => exact Or.inl rfl

theorem Progress.atMostOne (progress : Progress dep profiles capacity readings s t) : AtMostOne s t := by
  cases progress with
  | waits groups retired => exact Or.inl retired.commands
  | starts groups group quota retired => exact Or.inr ⟨group, _, by rw [← retired.commands]; rfl⟩
  | funds groups settled serving outcome =>
    have one := outcome.atMostOne
    unfold AtMostOne at one ⊢
    rwa [settled.commands] at one

theorem Stepped.atMostOne (stepped : Stepped dep profiles readings s t) : AtMostOne s t := by
  cases stepped with
  | unready => exact Or.inl rfl
  | progress capacity commands attempt same frozen inv issued progress =>
    have one := progress.atMostOne
    unfold AtMostOne at one ⊢
    rwa [commands] at one

end Publications

/-! ## An open attempt -/

/-- The donors an attempt has shrunk, the current one first. -/
def FundingAttempt.donors (attempt : FundingAttempt) : List Group :=
  attempt.donor.toList ++ attempt.attemptedDonors

section Open

variable (dep : Deployment) (profiles : Nat → Nat → PartitionProfile) (capacity : Nat → Int)

/-- A pending operation that takes bytes from a group, never below its floors. -/
structure PendingShrink (policy : CapacityPolicy) (group : Group) (operation : QuotaCommand) (active : List Int) : Prop where
  pending : policy.operations group = some operation
  initialized : policy.activeQuotas group = some active
  floor : ∀ rank < dep.width group.1,
    floorOf profiles group.1 (group.2 * dep.width group.1 + rank) ≤ operation.quotaBytes.getD rank 0
  shrinks : ∀ rank < dep.width group.1, operation.quotaBytes.getD rank 0 ≤ active.getD rank 0
  changed : operation.quotaBytes ≠ active

/-- A group an attempt may have shrunk. -/
structure Lender (attempt : FundingAttempt) (group : Group) : Prop where
  member : group ∈ dep.capacityGroups
  apart : group ≠ attempt.borrower
  shares : dep.Shares group attempt.borrower

/-- What an operation leaves its group on a device: the floor, or enough for the
attempt's grant once it is retired. -/
def Gives (policy : CapacityPolicy) (attempt : FundingAttempt) (active : List Int) (donor : Group) (operation : QuotaCommand)
    (donorActive : List Int) : Prop :=
  ∀ device, dep.Uses donor device → dep.Uses attempt.borrower device →
    operation.quotaBytes.getD (device % dep.width donor.1) 0 = floorOf profiles donor.1 device ∨
      attempt.targetQuotaBytes.getD (device % dep.width attempt.borrower.1) 0 -
          active.getD (device % dep.width attempt.borrower.1) 0 ≤
        freeOn dep capacity policy device + (donorActive.getD (device % dep.width donor.1) 0 -
          operation.quotaBytes.getD (device % dep.width donor.1) 0)

/-- The policy as if the attempt's witness were stored. -/
def CapacityPolicy.witnessing (policy : CapacityPolicy) (attempt : FundingAttempt) : CapacityPolicy := { policy with
  demands := Function.update policy.demands attempt.borrower
    (some ⟨attempt.evaluatedSequence, some attempt.targetQuotaBytes, some attempt.deadlineMonotonicNs⟩) }

theorem witnessing_demands (policy : CapacityPolicy) (attempt : FundingAttempt) :
    (policy.witnessing attempt).demands attempt.borrower =
      some ⟨attempt.evaluatedSequence, some attempt.targetQuotaBytes, some attempt.deadlineMonotonicNs⟩ :=
  Function.update_self ..

/-- An open attempt waits for the shrink of its donor. -/
structure Open (policy : CapacityPolicy) (attempt : FundingAttempt) (active : List Int) (donor : Group)
    (operation : QuotaCommand) (donorActive : List Int) : Prop where
  named : attempt.donor = some donor
  distinct : attempt.donors.Nodup
  lenders : ∀ group ∈ attempt.donors, Lender dep attempt group
  shrink : PendingShrink dep profiles policy donor operation donorActive
  borrower : policy.activeQuotas attempt.borrower = some active
  idle : policy.operations attempt.borrower = none
  positive : 0 < dep.width attempt.borrower.1
  known : attempt.borrower ∈ dep.capacityGroups
  started : ¬ Starting dep policy
  eligible : Current (policy.witnessing attempt) attempt
  gives : Gives dep profiles capacity policy attempt active donor operation donorActive

/-- Every open attempt of the policy is in order. -/
def Disciplined (policy : CapacityPolicy) : Prop :=
  ∀ attempt, policy.fundingAttempt = some attempt → ∃ capacity active donor operation donorActive,
    policy.poolCapacityBytes = some capacity ∧ Open dep profiles capacity policy attempt active donor operation donorActive

variable {dep profiles capacity}
variable {readings : Readings} {s t u : CapacityPolicy} {groups : List Group} {group : Group} {device : Nat}
variable {attempt : FundingAttempt} {active : List Int} {donor : Group} {operation : QuotaCommand} {donorActive : List Int}

/-- Eligibility reads the group's own entries. -/
theorem eligibleDemand_congr {group : Group} (demands : t.demands group = s.demands group)
    (quotas : t.activeQuotas group = s.activeQuotas group) (operations : t.operations group = s.operations group)
    (applied : t.appliedSequences group = s.appliedSequences group)
    (ceilings : t.serviceCeilings group = s.serviceCeilings group) : t.eligibleDemand group = s.eligibleDemand group := by
  simp only [CapacityPolicy.eligibleDemand, demands, quotas, operations, applied, ceilings]

/-- Publishing for a group leaves the devices it does not use. -/
theorem freeOn_issue_unused (small : device < dep.atnWorldSize) (unused : ¬ dep.Uses group device) (quota : List Int) :
    freeOn dep capacity (s.issue group quota) device = freeOn dep capacity s device := by
  have same : ∀ index < dep.instanceCount, held dep (s.issue group quota) index device = held dep s index device := by
    intro index known
    refine held_congr rfl (Function.update_of_ne ?_ ..)
    rintro rfl
    exact unused (uses_of_div (device_group known small).1 rfl)
  unfold freeOn
  rw [Finset.sum_congr rfl fun index member => same index (Finset.mem_range.mp member)]

/-- A shrink frees nothing before it is retired. -/
theorem freeOn_issue_shrink (small : device < dep.atnWorldSize) (idle : s.operations group = none)
    (initialized : s.activeQuotas group = some active) {quota : List Int}
    (shrinks : ∀ rank < dep.width group.1, quota.getD rank 0 ≤ active.getD rank 0) :
    freeOn dep capacity (s.issue group quota) device = freeOn dep capacity s device := by
  have same : ∀ index < dep.instanceCount, held dep (s.issue group quota) index device = held dep s index device := by
    intro index known
    by_cases here : (index, device / dep.width index) = group
    · subst here
      have positive := (device_group known small).1
      have less := shrinks (device % dep.width index) (Nat.mod_lt _ positive)
      have pending : (s.issue (index, device / dep.width index) quota).operations (index, device / dep.width index) =
          some ⟨s.appliedSequences (index, device / dep.width index) + 1, quota⟩ := Function.update_self ..
      have kept : (s.issue (index, device / dep.width index) quota).activeQuotas = s.activeQuotas := rfl
      simp only [held, CapacityPolicy.pendingQuota, pending, kept, initialized, idle, max_self]
      exact max_eq_left less
    · exact held_congr rfl (Function.update_of_ne here ..)
  unfold freeOn
  rw [Finset.sum_congr rfl fun index member => same index (Finset.mem_range.mp member)]

/-- A shortage is only on the borrower's devices. -/
theorem uses_of_shortage {target : List Int} {borrower : Group} (positive : 0 < dep.width borrower.1)
    (short : shortageOn dep capacity s borrower active target device ≠ 0) : dep.Uses borrower device := by
  unfold shortageOn at short
  split at short
  · exact uses_of_div positive ‹_›
  · exact absurd rfl short

/-- The shortage of a device the borrower uses. -/
theorem shortageOn_uses {target : List Int} {borrower : Group} (uses : dep.Uses borrower device) :
    shortageOn dep capacity s borrower active target device =
      max 0 (target.getD (device % dep.width borrower.1) 0 - active.getD (device % dep.width borrower.1) 0 -
        freeOn dep capacity s device) :=
  if_pos uses.place.2.1

theorem donorQuota_getD {rank : Nat} (small : rank < dep.width donor.1) :
    (donorQuota dep profiles capacity u attempt active donor donorActive).getD rank 0 =
      max (floorOf profiles donor.1 (donor.2 * dep.width donor.1 + rank))
        (donorActive.getD rank 0 - shortageOn dep capacity u attempt.borrower active attempt.targetQuotaBytes
          (donor.2 * dep.width donor.1 + rank)) := by
  unfold donorQuota
  exact getD_map_range _ small

section Donated

variable (accounted : Accounted dep profiles capacity u) (current : Current u attempt)
  (initialized : u.activeQuotas attempt.borrower = some active) (able : Donor dep u attempt donor donorActive)

include accounted able

/-- A donor is shrunk, and not below its floor. -/
theorem donorQuota_bounds {rank : Nat} (small : rank < dep.width donor.1) :
    floorOf profiles donor.1 (donor.2 * dep.width donor.1 + rank) ≤
        (donorQuota dep profiles capacity u attempt active donor donorActive).getD rank 0 ∧
      (donorQuota dep profiles capacity u attempt active donor donorActive).getD rank 0 ≤ donorActive.getD rank 0 := by
  have floor := (accounted.active donor able.member donorActive able.initialized).floor rank small
  have some : 0 ≤ shortageOn dep capacity u attempt.borrower active attempt.targetQuotaBytes
      (donor.2 * dep.width donor.1 + rank) := shortageOn_nonneg
  rw [donorQuota_getD small]
  exact ⟨le_max_left _ _, max_le floor (by omega)⟩

/-- What the shrink leaves is the floor, or it gives all the device is short of. -/
theorem donated_gives (sequence : Nat) (noted : Option FundingAttempt) :
    Gives dep profiles capacity
      { u.issue donor (donorQuota dep profiles capacity u attempt active donor donorActive) with fundingAttempt := noted }
      { attempt with donor := some donor } active donor
      ⟨sequence, donorQuota dep profiles capacity u attempt active donor donorActive⟩ donorActive := by
  intro device used borrowed
  obtain ⟨positive, -, place⟩ := used.place
  have small := Nat.mod_lt device positive
  have same : freeOn dep capacity
      { u.issue donor (donorQuota dep profiles capacity u attempt active donor donorActive) with fundingAttempt := noted }
      device = freeOn dep capacity u device :=
    (freeOn_congr rfl rfl).trans (freeOn_issue_shrink (used.small able.member) able.idle able.initialized
      fun rank below => (donorQuota_bounds accounted able below).2)
  have left : (donorQuota dep profiles capacity u attempt active donor donorActive).getD (device % dep.width donor.1) 0 =
      max (floorOf profiles donor.1 device) (donorActive.getD (device % dep.width donor.1) 0 -
        shortageOn dep capacity u attempt.borrower active attempt.targetQuotaBytes device) := by
    rw [donorQuota_getD small, place]
  rw [shortageOn_uses borrowed] at left
  rw [same]
  show (donorQuota dep profiles capacity u attempt active donor donorActive).getD (device % dep.width donor.1) 0 =
      floorOf profiles donor.1 device ∨ _
  rw [left]
  rcases le_total (donorActive.getD (device % dep.width donor.1) 0 -
    max 0 (attempt.targetQuotaBytes.getD (device % dep.width attempt.borrower.1) 0 -
      active.getD (device % dep.width attempt.borrower.1) 0 - freeOn dep capacity u device))
    (floorOf profiles donor.1 device) with below | above
  · exact Or.inl (max_eq_left below)
  · refine Or.inr ?_
    rw [max_eq_right above]
    have enough := le_max_right 0 (attempt.targetQuotaBytes.getD (device % dep.width attempt.borrower.1) 0 -
      active.getD (device % dep.width attempt.borrower.1) 0 - freeOn dep capacity u device)
    show attempt.targetQuotaBytes.getD (device % dep.width attempt.borrower.1) 0 -
      active.getD (device % dep.width attempt.borrower.1) 0 ≤ _
    omega

include current

/-- A donor that gives something has a rank on one of the borrower's devices. -/
theorem donor_shares (changed : donorQuota dep profiles capacity u attempt active donor donorActive ≠ donorActive) :
    dep.Shares donor attempt.borrower := by
  by_contra apart
  obtain ⟨-, positive⟩ := current.member accounted
  have width := (accounted.active donor able.member donorActive able.initialized).width
  refine changed ?_
  rw [eq_map_range width]
  unfold donorQuota
  refine List.map_congr_left fun rank ranked => ?_
  have small := List.mem_range.mp ranked
  have floor := (accounted.active donor able.member donorActive able.initialized).floor rank small
  have covered : shortageOn dep capacity u attempt.borrower active attempt.targetQuotaBytes
      (donor.2 * dep.width donor.1 + rank) = 0 := by
    by_contra short
    exact apart ⟨_, uses_iff.mpr ⟨rank, small, rfl⟩, uses_of_shortage positive short⟩
  rw [covered, ← eq_map_range width, sub_zero]
  exact max_eq_right floor

include initialized

/-- Shrinking a donor opens the attempt, or keeps it open. -/
theorem donated_open (started : ¬ Starting dep u) (distinct : attempt.attemptedDonors.Nodup)
    (lenders : ∀ group ∈ attempt.attemptedDonors, Lender dep attempt group)
    (changed : donorQuota dep profiles capacity u attempt active donor donorActive ≠ donorActive) :
    Open dep profiles capacity
      { u.issue donor (donorQuota dep profiles capacity u attempt active donor donorActive) with
        fundingAttempt := some { attempt with donor := some donor } }
      { attempt with donor := some donor } active donor
      ⟨u.appliedSequences donor + 1, donorQuota dep profiles capacity u attempt active donor donorActive⟩ donorActive := by
  obtain ⟨member, positive⟩ := current.member accounted
  obtain ⟨_, _, _, borrower⟩ := eligibleDemand_eq_ok current
  have borrows := donor_shares accounted current able changed
  refine ⟨rfl, ?_, ?_, ?_, initialized, ?_, positive, member, started, ?_, donated_gives accounted able _ _⟩
  · exact List.nodup_cons.mpr ⟨able.untried, distinct⟩
  · intro group listed
    rcases List.mem_cons.mp listed with rfl | earlier
    · exact ⟨able.member, able.apart, borrows⟩
    · obtain ⟨member, apart, shares⟩ := lenders group earlier
      exact ⟨member, apart, shares⟩
  · refine ⟨Function.update_self .., able.initialized, ?_, ?_, changed⟩
    · intro rank small
      exact (donorQuota_bounds accounted able small).1
    · intro rank small
      exact (donorQuota_bounds accounted able small).2
  · exact (Function.update_of_ne able.apart.symm ..).trans borrower.idle
  · unfold Current at current ⊢
    rw [← current]
    exact eligibleDemand_congr ((witnessing_demands _ _).trans borrower.demanded.symm) rfl
      (Function.update_of_ne able.apart.symm ..) rfl rfl

end Donated

/-- What the operation gives is kept while the free bytes do not decrease. -/
theorem Gives.mono (gives : Gives dep profiles capacity s attempt active donor operation donorActive)
    (more : ∀ device, dep.Uses attempt.borrower device → freeOn dep capacity s device ≤ freeOn dep capacity t device) :
    Gives dep profiles capacity t attempt active donor operation donorActive := by
  intro device used borrowed
  have grows := more device borrowed
  exact (gives device used borrowed).imp id fun enough => by omega

/-- An open attempt stays open while its borrower and donor are left alone and the
borrower's devices do not lose free bytes. -/
theorem Open.keep (opened : Open dep profiles capacity s attempt active donor operation donorActive)
    (pending : t.operations donor = s.operations donor) (donated : t.activeQuotas donor = s.activeQuotas donor)
    (idle : t.operations attempt.borrower = s.operations attempt.borrower)
    (kept : t.activeQuotas attempt.borrower = s.activeQuotas attempt.borrower)
    (applied : t.appliedSequences attempt.borrower = s.appliedSequences attempt.borrower)
    (ceilings : t.serviceCeilings attempt.borrower = s.serviceCeilings attempt.borrower) (started : ¬ Starting dep t)
    (more : ∀ device, dep.Uses attempt.borrower device → freeOn dep capacity s device ≤ freeOn dep capacity t device) :
    Open dep profiles capacity t attempt active donor operation donorActive := by
  obtain ⟨found, initialized, floor, shrinks, changed⟩ := opened.shrink
  refine ⟨opened.named, opened.distinct, opened.lenders,
    ⟨pending.trans found, donated.trans initialized, floor, shrinks, changed⟩, kept.trans opened.borrower,
    idle.trans opened.idle, opened.positive, opened.known, started, ?_, opened.gives.mono more⟩
  have eligible := opened.eligible
  unfold Current at eligible ⊢
  rw [← eligible]
  exact eligibleDemand_congr ((witnessing_demands t attempt).trans (witnessing_demands s attempt).symm) kept idle applied
    ceilings

/-! ## From step to step -/

/-- The attempt stays open over a step: it waits for the same shrink, or its donor
was retired and the next one is shrunk. -/
def Continues (s t : CapacityPolicy) : Prop :=
  ∃ attempt donor, s.fundingAttempt = some attempt ∧ attempt.donor = some donor ∧
    (t.fundingAttempt = some attempt ∧ t.operations donor = s.operations donor ∨
      ∃ next, t.fundingAttempt =
        some { attempt with donor := some next, attemptedDonors := donor :: attempt.attemptedDonors })

/-- The grant of an attempt. -/
def Grants (s t : CapacityPolicy) (attempt : FundingAttempt) : Prop :=
  t.fundingAttempt = none ∧ t.commands = Function.update s.commands attempt.borrower
    (⟨s.appliedSequences attempt.borrower + 1, attempt.targetQuotaBytes⟩ :: s.commands attempt.borrower)

theorem note_retired (named : attempt.donor = some donor) (listed : donor ∈ groups) :
    attempt.note groups = { attempt with donor := none, attemptedDonors := donor :: attempt.attemptedDonors } := by
  simp [FundingAttempt.note, named, listed]

theorem note_waiting (named : attempt.donor = some donor) (absent : donor ∉ groups) : attempt.note groups = attempt := by
  simp [FundingAttempt.note, named, absent]

/-- What the state of a step looks like after retirement, for an open attempt. -/
inductive Resumed (s u : CapacityPolicy) (attempt : FundingAttempt) (donor : Group) : Prop where
  | waiting : u.fundingAttempt = some attempt → u.operations donor = s.operations donor →
      u.activeQuotas donor = s.activeQuotas donor → Resumed s u attempt donor
  | retired (operation : QuotaCommand) :
      u.fundingAttempt = some { attempt with donor := none, attemptedDonors := donor :: attempt.attemptedDonors } →
      s.operations donor = some operation → u.operations donor = none → u.activeQuotas donor = some operation.quotaBytes →
      u.appliedSequences donor = operation.sequence → Resumed s u attempt donor

theorem Settled.resumed (settled : Settled dep readings s groups u) (noted : s.fundingAttempt = some attempt)
    (named : attempt.donor = some donor) : Resumed s u attempt donor := by
  have after := settled.attempt
  rw [noted, Option.map_some] at after
  by_cases listed : donor ∈ groups
  · rw [note_retired named listed] at after
    obtain ⟨operation, pending, idle, active, applied⟩ := settled.done listed
    exact .retired operation after pending idle active applied
  · rw [note_waiting named listed] at after
    obtain ⟨operations, active, -⟩ := settled.kept listed
    exact .waiting after operations active

/-- The settled state leaves the borrower alone and takes no free bytes. -/
theorem Settled.borrower (settled : Settled dep readings s groups u)
    (opened : Open dep profiles capacity s attempt active donor operation donorActive) :
    u.operations attempt.borrower = none ∧ u.activeQuotas attempt.borrower = some active ∧
      u.appliedSequences attempt.borrower = s.appliedSequences attempt.borrower := by
  obtain ⟨operations, kept, applied⟩ := settled.kept (settled.idle opened.idle)
  exact ⟨operations.trans opened.idle, kept.trans opened.borrower, applied⟩

theorem Settled.free_le (settled : Settled dep readings s groups u) (accounted : Accounted dep profiles capacity s)
    (small : device < dep.atnWorldSize) : freeOn dep capacity s device ≤ freeOn dep capacity u device :=
  freeOn_mono fun _ known => settled.held_le accounted known small

/-- An attempt that waits after retirement was open before. -/
theorem Settled.waiting (settled : Settled dep readings s groups u) (disciplined : Disciplined dep profiles s)
    (frozen : s.poolCapacityBytes = some capacity) (accounted : Accounted dep profiles capacity s) (started : ¬ Starting dep u)
    (noted : u.fundingAttempt = some attempt) (named : attempt.donor = some donor) :
    s.fundingAttempt = some attempt ∧ u.operations donor = s.operations donor ∧ ∃ active operation donorActive,
      Open dep profiles capacity s attempt active donor operation donorActive ∧
        Open dep profiles capacity u attempt active donor operation donorActive := by
  have before := settled.attempt
  rw [noted] at before
  obtain ⟨old, was, same⟩ := Option.map_eq_some_iff.mp before.symm
  obtain ⟨capacity', active, donor', operation, donorActive, frozen', opened⟩ := disciplined old was
  obtain rfl := Option.some.inj (frozen.symm.trans frozen')
  have resumed := settled.resumed was opened.named
  cases resumed with
  | waiting after operations donated =>
    obtain rfl := Option.some.inj (noted.symm.trans after)
    obtain rfl := Option.some.inj (named.symm.trans opened.named)
    obtain ⟨idle, kept, applied⟩ := settled.borrower opened
    refine ⟨was, operations, active, operation, donorActive, opened, ?_⟩
    refine opened.keep operations donated (idle.trans opened.idle.symm) (kept.trans opened.borrower.symm) applied
      (congrFun settled.ceilings _) started ?_
    intro device uses
    exact settled.free_le accounted (uses.small opened.known)
  | retired _ after =>
    obtain rfl := Option.some.inj (noted.symm.trans after)
    cases named

/-- An attempt that is free after retirement was open before, and its donor has
been retired. -/
theorem Settled.released (settled : Settled dep readings s groups u) (disciplined : Disciplined dep profiles s)
    (frozen : s.poolCapacityBytes = some capacity) (noted : u.fundingAttempt = some attempt) (free : attempt.donor = none) :
    ∃ old active donor operation donorActive, s.fundingAttempt = some old ∧
      Open dep profiles capacity s old active donor operation donorActive ∧
      attempt = { old with donor := none, attemptedDonors := donor :: old.attemptedDonors } ∧
      u.operations donor = none ∧ u.activeQuotas donor = some operation.quotaBytes := by
  have before := settled.attempt
  rw [noted] at before
  obtain ⟨old, was, same⟩ := Option.map_eq_some_iff.mp before.symm
  obtain ⟨capacity', active, donor, operation, donorActive, frozen', opened⟩ := disciplined old was
  obtain rfl := Option.some.inj (frozen.symm.trans frozen')
  have resumed := settled.resumed was opened.named
  cases resumed with
  | waiting after =>
    obtain rfl := Option.some.inj (noted.symm.trans after)
    exact absurd (free.symm.trans opened.named) (by simp)
  | retired operation' after pending idle donated =>
    obtain rfl := Option.some.inj (noted.symm.trans after)
    obtain rfl := Option.some.inj (opened.shrink.pending.symm.trans pending)
    exact ⟨old, active, donor, operation, donorActive, was, opened, rfl, idle, donated⟩

/-- The donors of a released attempt are those of the attempt before. -/
theorem Open.released_donors (opened : Open dep profiles capacity s attempt active donor operation donorActive) :
    attempt.donors = donor :: attempt.attemptedDonors := by
  simp [FundingAttempt.donors, opened.named]

/-- The donors tried so far, of the attempt a step advances. -/
theorem Tried.donors (tried : Tried dep profiles capacity u attempt) (settled : Settled dep readings s groups u)
    (disciplined : Disciplined dep profiles s) (frozen : s.poolCapacityBytes = some capacity) (free : attempt.donor = none) :
    attempt.attemptedDonors.Nodup ∧ ∀ group ∈ attempt.attemptedDonors, Lender dep attempt group := by
  cases tried with
  | noted noted =>
    obtain ⟨old, active, donor, operation, donorActive, was, opened, rfl, -⟩ := settled.released disciplined frozen noted free
    have distinct := opened.distinct
    have lenders := opened.lenders
    rw [opened.released_donors] at distinct lenders
    refine ⟨distinct, fun group listed => ?_⟩
    obtain ⟨member, apart, shares⟩ := lenders group listed
    exact ⟨member, apart, shares⟩
  | fresh _ empty =>
    rw [empty]
    exact ⟨List.nodup_nil, fun group listed => absurd listed List.not_mem_nil⟩

theorem Settled.pool (settled : Settled dep readings s groups u) : u.poolCapacityBytes = s.poolCapacityBytes := by
  obtain ⟨v, retired, consumed⟩ := settled.phases
  rw [consumed.same]
  exact retired.capacity

/-- The funding part leaves every open attempt in order. -/
theorem Outcome.disciplined (outcome : Outcome dep profiles capacity u t) (settled : Settled dep readings s groups u)
    (disciplined : Disciplined dep profiles s) (frozen : s.poolCapacityBytes = some capacity)
    (before : Accounted dep profiles capacity s) (accounted : Accounted dep profiles capacity u) (started : ¬ Starting dep u) :
    Disciplined dep profiles t := by
  have frozenThere := settled.pool.trans frozen
  intro attempt noted
  cases outcome with
  | waits old donor opened named =>
    obtain rfl := Option.some.inj (opened.symm.trans noted)
    obtain ⟨-, -, active, operation, donorActive, -, stays⟩ := settled.waiting disciplined frozen before started opened named
    exact ⟨capacity, active, donor, operation, donorActive, frozenThere, stays⟩
  | unrelated old donor group demand quota opened named apart eligible wanted =>
    obtain rfl := Option.some.inj (opened.symm.trans noted)
    obtain ⟨-, -, active, operation, donorActive, -, stays⟩ := settled.waiting disciplined frozen before started opened named
    obtain ⟨_, _, _, borrower⟩ := eligibleDemand_eq_ok eligible
    refine ⟨capacity, active, donor, operation, donorActive, frozenThere, ?_⟩
    have busy : donor ≠ group := by
      rintro rfl
      exact absurd (borrower.idle.symm.trans stays.shrink.pending) (by simp)
    have other : old.borrower ≠ group := by
      rintro rfl
      have uses := uses_iff.mpr ⟨0, stays.positive, rfl⟩
      exact apart ⟨_, uses, uses⟩
    refine stays.keep ?_ rfl ?_ rfl rfl rfl started ?_
    · exact Function.update_of_ne busy ..
    · exact Function.update_of_ne other ..
    · intro device uses
      rw [freeOn_issue_unused (uses.small stays.known)]
      exact fun used => apart ⟨device, used, uses⟩
  | advanced old tried advance =>
    cases advance with
    | granted => cases noted
    | donated active donor donorActive free current initialized short able changed =>
      obtain rfl := Option.some.inj noted
      obtain ⟨distinct, lenders⟩ := tried.donors settled disciplined frozen free
      exact ⟨capacity, active, donor, _, donorActive, frozenThere,
        donated_open accounted current initialized able started distinct lenders changed⟩
  | quits => cases noted

/-- Retirement applies first operations, so started groups stay started. -/
theorem Retired.started (retired : Retired dep readings s groups u) (accounted : Accounted dep profiles capacity s)
    (started : ¬ Starting dep s) : ¬ Starting dep u := by
  rintro ⟨group, member, zero⟩
  by_cases listed : group ∈ groups
  · obtain ⟨operation, pending, -, -, applied⟩ := retired.done group listed
    have numbered := (accounted.pending group member operation pending).2.2
    omega
  · obtain ⟨-, -, applied⟩ := retired.kept group listed
    exact started ⟨group, member, applied.symm.trans zero⟩

theorem Progress.disciplined (progress : Progress dep profiles capacity readings s t) (disciplined : Disciplined dep profiles s)
    (frozen : s.poolCapacityBytes = some capacity) (accounted : Accounted dep profiles capacity s) :
    Disciplined dep profiles t := by
  have closed {groups : List Group} {u : CapacityPolicy} (retired : Retired dep readings s groups u) (starting : Starting dep u) :
      s.fundingAttempt = none := by
    cases noted : s.fundingAttempt with
    | none => rfl
    | some attempt =>
      obtain ⟨_, _, _, _, _, -, opened⟩ := disciplined attempt noted
      exact absurd starting (retired.started accounted opened.started)
  cases progress with
  | waits groups retired starting =>
    intro attempt noted
    have none := closed retired starting
    simp [none] at noted
  | starts groups group quota retired starting =>
    intro attempt noted
    have none := closed retired starting
    simp [none] at noted
  | funds groups settled serving outcome =>
    exact outcome.disciplined settled disciplined frozen accounted serving.accounted serving.started

end Open

/-! ## Runs -/

section Runs

variable {dep : Deployment} {profiles : Nat → Nat → PartitionProfile} {capacity : Nat → Int} {book : RegistrationBook}
variable {readings : Readings} {s t u : CapacityPolicy} {groups : List Group} {attempt : FundingAttempt} {donor : Group}

/-- What holds of the policy in every state of a run. -/
structure RunInvariant (dep : Deployment) (profiles : Nat → Nat → PartitionProfile) (state : CapacityPolicy) : Prop where
  policy : PolicyInvariant dep profiles state
  issued : Issued state
  disciplined : Disciplined dep profiles state

theorem Stepped.disciplined (stepped : Stepped dep profiles readings s t) (inv : RunInvariant dep profiles s) :
    Disciplined dep profiles t := by
  cases stepped with
  | unready => exact inv.disciplined
  | @progress f t capacity commands noted same frozen policy issued progress =>
    have disciplined : Disciplined dep profiles f := by
      by_cases already : s.poolCapacityBytes = none
      · intro attempt opened
        rw [noted, inv.policy.fresh already] at opened
        cases opened
      · rw [same already]
        exact inv.disciplined
    exact progress.disciplined disciplined frozen (policy.frozen capacity frozen)

theorem Returns.along (returned : Returns dep profiles book readings s t) (inv : PolicyInvariant dep profiles s) :
    Along dep profiles readings s t := by
  have along : Along dep profiles readings s (s.after dep book readings) := after_along returned.1 inv
  unfold CapacityPolicy.after at along
  rwa [returned.2] at along

theorem Returns.runInvariant (returned : Returns dep profiles book readings s t) (inv : RunInvariant dep profiles s) :
    RunInvariant dep profiles t :=
  have along := returned.along inv.policy
  ⟨along.invariant inv.policy, along.issued inv.issued, (returned.stepped inv.policy inv.issued).disciplined inv⟩

theorem reachable_runInvariant (reached : (fundingRuns dep profiles).Reachable s) : RunInvariant dep profiles s := by
  refine System.ReachableUnder.invariant ?_ ?_ reached
  · rintro _ rfl
    refine ⟨create_invariant dep profiles, create_issued, ?_⟩
    rintro attempt ⟨⟩
  · intro s call t _ inv _ returned
    exact returned.runInvariant inv

/-- How an attempt stays open over a step. -/
inductive Kept (dep : Deployment) (profiles : Nat → Nat → PartitionProfile) (capacity : Nat → Int) (u : CapacityPolicy)
    (attempt : FundingAttempt) (donor : Group) : CapacityPolicy → Prop where
  | waits : u.fundingAttempt = some attempt → Kept dep profiles capacity u attempt donor u
  | unrelated (group : Group) (quota : List Int) : u.fundingAttempt = some attempt → u.operations group = none →
      ¬ dep.Shares group attempt.borrower → Kept dep profiles capacity u attempt donor (u.issue group quota)
  | donated (released : FundingAttempt) (active : List Int) (next : Group) (nextActive : List Int) :
      released = { attempt with donor := none, attemptedDonors := donor :: attempt.attemptedDonors } →
      u.fundingAttempt = some released → Current u released → u.activeQuotas attempt.borrower = some active →
      Donor dep u released next nextActive →
      donorQuota dep profiles capacity u released active next nextActive ≠ nextActive →
      Kept dep profiles capacity u attempt donor
        { u.issue next (donorQuota dep profiles capacity u released active next nextActive) with
          fundingAttempt := some { released with donor := some next } }

/-- The funding part of a step from an open attempt. -/
theorem Stepped.funds (stepped : Stepped dep profiles readings s t) (inv : RunInvariant dep profiles s)
    (noted : s.fundingAttempt = some attempt) :
    t = s ∨ ∃ capacity groups u, s.poolCapacityBytes = some capacity ∧ Settled dep readings s groups u ∧
      Accounted dep profiles capacity s ∧ Serving dep profiles capacity u ∧ Outcome dep profiles capacity u t := by
  obtain ⟨capacity, active, donor, operation, donorActive, frozen, opened⟩ := inv.disciplined attempt noted
  cases stepped with
  | unready => exact Or.inl rfl
  | progress capacity' commands noted' same frozen' policy issued progress =>
    obtain rfl := same (by simp [frozen])
    obtain rfl := Option.some.inj (frozen.symm.trans frozen')
    have accounted := policy.frozen capacity frozen
    cases progress with
    | waits groups retired starting => exact absurd starting (retired.started accounted opened.started)
    | starts groups group quota retired starting => exact absurd starting (retired.started accounted opened.started)
    | funds groups settled serving outcome => exact Or.inr ⟨capacity, groups, _, frozen, settled, accounted, serving, outcome⟩

/-- An attempt closed by the step is not continued. -/
theorem not_continues_fresh (settled : Settled dep readings s groups u) (noted : s.fundingAttempt = some attempt)
    (named : attempt.donor = some donor)
    (closed : ∀ old, u.fundingAttempt = some old → Quits dep profiles capacity u old) {fresh : FundingAttempt} {next : Group}
    {quota : List Int} (opened : t.fundingAttempt = some fresh) (issued : t.operations = (u.issue next quota).operations)
    (empty : fresh.attemptedDonors = []) : ¬ Continues s t := by
  rintro ⟨attempt', donor', noted', named', kept⟩
  obtain rfl := Option.some.inj (noted.symm.trans noted')
  obtain rfl := Option.some.inj (named.symm.trans named')
  rcases settled.resumed noted named with ⟨waiting, -, -⟩ | ⟨operation, -, pending, idle, -, applied⟩
  · exact absurd (named.symm.trans (closed attempt waiting).free) (by simp)
  rcases kept with ⟨-, same⟩ | ⟨_, advanced⟩
  · -- The donor was retired: a new operation for it has a later sequence.
    rw [issued, pending] at same
    by_cases here : donor = next
    · subst here
      have newer : (u.issue donor quota).operations donor = some ⟨u.appliedSequences donor + 1, quota⟩ :=
        Function.update_self ..
      have numbered := congrArg QuotaCommand.sequence (Option.some.inj (newer.symm.trans same))
      simp only at numbered
      omega
    · have idle' : (u.issue next quota).operations donor = none := (Function.update_of_ne here ..).trans idle
      exact absurd (idle'.symm.trans same) (by simp)
  · rw [Option.some.inj (opened.symm.trans advanced)] at empty
    cases empty

theorem Continues.kept (continues : Continues s t) (stepped : Stepped dep profiles readings s t)
    (inv : RunInvariant dep profiles s) (noted : s.fundingAttempt = some attempt) (named : attempt.donor = some donor) :
    t = s ∨ ∃ capacity groups u, s.poolCapacityBytes = some capacity ∧ Settled dep readings s groups u ∧
      Accounted dep profiles capacity s ∧ Serving dep profiles capacity u ∧ Kept dep profiles capacity u attempt donor t := by
  rcases stepped.funds inv noted with same | ⟨capacity, groups, u, frozen, settled, before, serving, outcome⟩
  · exact Or.inl same
  refine Or.inr ⟨capacity, groups, u, frozen, settled, before, serving, ?_⟩
  obtain ⟨attempt', donor', noted', -, kept⟩ := id continues
  obtain rfl := Option.some.inj (noted.symm.trans noted')
  have stays : t.fundingAttempt ≠ none := by
    rcases kept with ⟨opened, -⟩ | ⟨_, opened⟩ <;> simp [opened]
  cases outcome with
  | waits old donor opened named =>
    obtain ⟨was, -⟩ := settled.waiting inv.disciplined frozen before serving.started opened named
    obtain rfl := Option.some.inj (was.symm.trans noted)
    exact .waits opened
  | unrelated old donor group demand quota opened named apart eligible wanted =>
    obtain ⟨was, -⟩ := settled.waiting inv.disciplined frozen before serving.started opened named
    obtain rfl := Option.some.inj (was.symm.trans noted)
    obtain ⟨_, _, _, borrower⟩ := eligibleDemand_eq_ok eligible
    exact .unrelated group quota opened borrower.idle apart
  | advanced old tried advance =>
    cases advance with
    | granted => exact absurd rfl stays
    | donated active next nextActive free current initialized short able changed =>
      cases tried with
      | noted opened =>
        obtain ⟨before', _, donor', _, _, was, open', same, -⟩ := settled.released inv.disciplined frozen opened free
        obtain rfl := Option.some.inj (was.symm.trans noted)
        obtain rfl := Option.some.inj (named.symm.trans open'.named)
        refine .donated old active next nextActive same opened current ?_ able changed
        rw [same] at initialized
        exact initialized
      | fresh closed empty =>
        exact absurd continues (not_continues_fresh settled noted named closed rfl rfl empty)
  | quits => exact absurd rfl stays

/-- While the attempt stays open, the borrower's devices lose no free bytes. -/
theorem Kept.free_le (kept : Kept dep profiles capacity u attempt donor t) (accounted : Accounted dep profiles capacity u)
    {device : Nat} (small : device < dep.atnWorldSize) (uses : dep.Uses attempt.borrower device) :
    freeOn dep capacity t device = freeOn dep capacity u device := by
  cases kept with
  | waits => rfl
  | unrelated group quota opened idle apart =>
    exact freeOn_issue_unused small (fun used => apart ⟨device, used, uses⟩) quota
  | donated released active next nextActive same opened current initialized able changed =>
    exact (freeOn_congr rfl rfl).trans (freeOn_issue_shrink small able.idle able.initialized
      fun rank below => (donorQuota_bounds accounted able below).2)

/-- While the attempt stays open, a group on one of the borrower's devices gets a
command only as its next donor, and only if it was none before. -/
theorem Kept.commands (kept : Kept dep profiles capacity u attempt donor t) (accounted : Accounted dep profiles capacity u)
    (named : attempt.donor = some donor) {group : Group} (shares : dep.Shares group attempt.borrower) :
    t.commands group = u.commands group ∨ ∃ command noted active, t.commands group = command :: u.commands group ∧
      t.fundingAttempt = some noted ∧ noted.donors = group :: attempt.donors ∧ group ∉ attempt.donors ∧
      PendingShrink dep profiles t group command active := by
  cases kept with
  | waits => exact Or.inl rfl
  | unrelated other quota opened idle apart =>
    refine Or.inl (Function.update_of_ne ?_ ..)
    rintro rfl
    exact apart shares
  | donated released active next nextActive same opened current initialized able changed =>
    by_cases here : group = next
    · subst here
      have donors : attempt.donors = released.attemptedDonors := by
        rw [same]
        simp [FundingAttempt.donors, named]
      refine Or.inr ⟨⟨u.appliedSequences group + 1, _⟩, _, nextActive, Function.update_self .., rfl, ?_, ?_, ?_⟩
      · rw [donors]
        rfl
      · rw [donors]
        exact able.untried
      · refine ⟨Function.update_self .., able.initialized, ?_, ?_, changed⟩
        · intro rank small
          exact (donorQuota_bounds accounted able small).1
        · intro rank small
          exact (donorQuota_bounds accounted able small).2
    · exact Or.inl (Function.update_of_ne here ..)

/-- A group on one of the borrower's devices gets at most one command, as a donor
that was none before. -/
def ShrunkOnce (dep : Deployment) (profiles : Nat → Nat → PartitionProfile) (s : CapacityPolicy) (attempt : FundingAttempt)
    (t : CapacityPolicy) (noted : FundingAttempt) : Prop :=
  ∀ group, dep.Shares group attempt.borrower → t.commands group = s.commands group ∨
    ∃ command, t.commands group = command :: s.commands group ∧ group ∈ noted.donors ∧ group ∉ attempt.donors ∧
      ∀ rank < dep.width group.1,
        floorOf profiles group.1 (group.2 * dep.width group.1 + rank) ≤ command.quotaBytes.getD rank 0

/-- `t` is reached from `s` by returning steps over which the attempt stays open. -/
def Stays (dep : Deployment) (profiles : Nat → Nat → PartitionProfile) : CapacityPolicy → CapacityPolicy → Prop :=
  Relation.ReflTransGen fun s t => (∃ book readings, Returns dep profiles book readings s t) ∧ Continues s t

/-- What holds between two states of one attempt. -/
structure SameAttempt (dep : Deployment) (profiles : Nat → Nat → PartitionProfile) (s : CapacityPolicy)
    (attempt : FundingAttempt) (t : CapacityPolicy) (last : FundingAttempt) : Prop where
  noted : t.fundingAttempt = some last
  borrower : last.borrower = attempt.borrower
  donors : attempt.donors <:+ last.donors
  capacity : t.poolCapacityBytes = s.poolCapacityBytes
  free : ∀ capacity, s.poolCapacityBytes = some capacity → ∀ device, dep.Uses attempt.borrower device →
    freeOn dep capacity s device ≤ freeOn dep capacity t device
  once : ShrunkOnce dep profiles s attempt t last

/-- The attempt after one more step. -/
theorem Continues.sameAttempt (continues : Continues s t) (stepped : Stepped dep profiles readings s t)
    (inv : RunInvariant dep profiles s) (noted : s.fundingAttempt = some attempt) :
    ∃ next, SameAttempt dep profiles s attempt t next := by
  obtain ⟨capacity, active, donor, operation, donorActive, frozen, opened⟩ := inv.disciplined attempt noted
  have named := opened.named
  rcases continues.kept stepped inv noted named with
    rfl | ⟨capacity', groups, u, frozen', settled, before, serving, kept⟩
  · exact ⟨attempt, noted, rfl, List.suffix_refl _, rfl, fun _ _ _ _ => le_refl _, fun _ _ => Or.inl rfl⟩
  obtain rfl := Option.some.inj (frozen.symm.trans frozen')
  have free : ∀ capacity', s.poolCapacityBytes = some capacity' → ∀ device, dep.Uses attempt.borrower device →
      freeOn dep capacity' s device ≤ freeOn dep capacity' t device := by
    intro capacity' frozen' device uses
    obtain rfl := Option.some.inj (frozen.symm.trans frozen')
    have small := uses.small opened.known
    rw [kept.free_le serving.accounted small uses]
    exact settled.free_le before small
  have once (group : Group) (shares : dep.Shares group attempt.borrower) := kept.commands serving.accounted named shares
  simp only [settled.commands] at once
  have pool : t.poolCapacityBytes = s.poolCapacityBytes := by
    cases kept <;> exact settled.pool
  -- The list of donors is the same, or grows by the next one.
  cases kept with
  | waits still =>
    refine ⟨attempt, still, rfl, List.suffix_refl _, pool, free, fun group shares => ?_⟩
    exact Or.inl (congrFun settled.commands group)
  | unrelated other quota still idle apart =>
    refine ⟨attempt, still, rfl, List.suffix_refl _, pool, free, fun group shares => ?_⟩
    rcases once group shares with same | ⟨command, noted', _, -, opened', grown, -⟩
    · exact Or.inl same
    · obtain rfl := Option.some.inj (still.symm.trans opened')
      exact absurd (congrArg List.length grown) (by simp)
  | donated released active next nextActive same still current initialized able changed =>
    have donors : ({ released with donor := some next } : FundingAttempt).donors = next :: attempt.donors := by
      rw [same]
      simp [FundingAttempt.donors, named]
    refine ⟨{ released with donor := some next }, rfl, by rw [same], ?_, pool, free, fun group shares => ?_⟩
    · rw [donors]
      exact List.suffix_cons _ _
    · rcases once group shares with same | ⟨command, noted', _, sent, opened', grown, fresh, shrink⟩
      · exact Or.inl same
      · obtain rfl := Option.some.inj opened'
        exact Or.inr ⟨command, sent, by rw [grown]; exact List.mem_cons_self, fresh, shrink.floor⟩

theorem SameAttempt.trans {attempt noted last : FundingAttempt} (first : SameAttempt dep profiles s attempt u noted)
    (second : SameAttempt dep profiles u noted t last) : SameAttempt dep profiles s attempt t last := by
  refine ⟨second.noted, second.borrower.trans first.borrower, first.donors.trans second.donors,
    second.capacity.trans first.capacity, ?_, ?_⟩
  · intro capacity frozen device uses
    have early := first.free capacity frozen device uses
    have late := second.free capacity (first.capacity.trans frozen) device (first.borrower.symm ▸ uses)
    omega
  · intro group shares
    have early := first.once group shares
    have late := second.once group (first.borrower.symm ▸ shares)
    rcases late with same | ⟨command, sent, donor, fresh, floor⟩
    · rw [same]
      refine early.imp id fun ⟨command, sent, donor, rest⟩ => ?_
      exact ⟨command, sent, second.donors.mem donor, rest⟩
    · -- A second command would be a second shrink of one donor.
      rcases early with same | ⟨_, -, before, -⟩
      · rw [same] at sent
        exact Or.inr ⟨command, sent, donor, fun listed => fresh (first.donors.mem listed), floor⟩
      · exact absurd before fresh

theorem Stays.sameAttempt (stays : Stays dep profiles s t) (inv : RunInvariant dep profiles s)
    (noted : s.fundingAttempt = some attempt) :
    RunInvariant dep profiles t ∧ ∃ last, SameAttempt dep profiles s attempt t last := by
  induction stays with
  | refl => exact ⟨inv, attempt, noted, rfl, List.suffix_refl _, rfl, fun _ _ _ _ => le_refl _, fun _ _ => Or.inl rfl⟩
  | tail _ step ih =>
    obtain ⟨invThere, last, same⟩ := ih
    obtain ⟨⟨book, readings, returned⟩, continues⟩ := step
    obtain ⟨next, more⟩ := continues.sameAttempt (returned.stepped invThere.policy invThere.issued) invThere same.noted
    exact ⟨returned.runInvariant invThere, next, same.trans more⟩

end Runs

/-! ## The last donor suffices -/

section Completeness

variable (dep : Deployment) (profiles : Nat → Nat → PartitionProfile) (capacity : Nat → Int)

/-- Every other group on one of the borrower's devices is idle with a demand
evaluated at its applied sequence. -/
def OthersReady (policy : CapacityPolicy) (attempt : FundingAttempt) : Prop :=
  ∀ group, Lender dep attempt group → policy.operations group = none ∧
    ∃ demand, policy.demands group = some demand ∧ demand.evaluatedSequence = policy.appliedSequences group

/-- On a device that is still short, a group has no more than its floor. -/
def Spent (policy : CapacityPolicy) (attempt : FundingAttempt) (active : List Int) (group : Group) : Prop :=
  ∀ device, dep.Uses group device → dep.Uses attempt.borrower device →
    0 < shortageOn dep capacity policy attempt.borrower active attempt.targetQuotaBytes device →
      ∀ limits, policy.activeQuotas group = some limits →
        limits.getD (device % dep.width group.1) 0 = floorOf profiles group.1 device

/-- Between two donors: the groups tried have given what they can, the others may
still be shrunk. -/
structure Fundable (policy : CapacityPolicy) (attempt : FundingAttempt) (active : List Int) : Prop where
  idle : ∀ group, Lender dep attempt group → policy.operations group = none
  ready : ∀ group, Lender dep attempt group → group ∉ attempt.attemptedDonors →
    ∃ demand, policy.demands group = some demand ∧ demand.evaluatedSequence = policy.appliedSequences group
  spent : ∀ group ∈ attempt.attemptedDonors, Spent dep profiles capacity policy attempt active group

variable {dep profiles capacity}
variable {readings : Readings} {s t u : CapacityPolicy} {groups : List Group} {attempt : FundingAttempt} {active : List Int}

/-- Every started group has limits. -/
theorem Issued.limits (issued : Issued s) (started : ¬ Starting dep s) {group : Group} (member : group ∈ dep.capacityGroups) :
    ∃ limits, s.activeQuotas group = some limits := by
  have positive : 0 < s.appliedSequences group := Nat.pos_of_ne_zero fun zero => started ⟨group, member, zero⟩
  obtain ⟨command, -, -, limits⟩ := issued.applied group positive
  exact ⟨_, limits⟩

/-- If no group would give anything, a short device has all other partitions at
their floors; the service ceiling leaves it enough. -/
theorem Fundable.not_starved (fundable : Fundable dep profiles capacity u attempt active)
    (accounted : Accounted dep profiles capacity u) (issued : Issued u) (started : ¬ Starting dep u)
    (current : Current u attempt) (initialized : u.activeQuotas attempt.borrower = some active)
    (short : ¬ Fits dep capacity u attempt active) :
    ∃ donor donorActive, Donor dep u attempt donor donorActive ∧
      donorQuota dep profiles capacity u attempt active donor donorActive ≠ donorActive := by
  by_contra unable
  have gives : ∀ donor donorActive, Donor dep u attempt donor donorActive →
      donorQuota dep profiles capacity u attempt active donor donorActive = donorActive := by
    intro donor donorActive able
    exact not_not.mp fun changed => unable ⟨donor, donorActive, able, changed⟩
  obtain ⟨member, positive⟩ := current.member accounted
  obtain ⟨active', required, ceiling, borrower⟩ := eligibleDemand_eq_ok current
  obtain rfl := Option.some.inj (initialized.symm.trans borrower.initialized)
  obtain rfl : attempt.targetQuotaBytes = required := Option.some.inj borrower.wanted
  refine short fun rank small => ?_
  by_contra lacks
  -- Look at one short device, and at the groups of the other Instances there.
  obtain ⟨device, placed⟩ : ∃ device, attempt.borrower.2 * dep.width attempt.borrower.1 + rank = device := ⟨_, rfl⟩
  have uses : dep.Uses attempt.borrower device := uses_iff.mpr ⟨rank, small, placed⟩
  have world := uses.small member
  have offset : device % dep.width attempt.borrower.1 = rank := by
    rw [← placed]
    exact (rank_div_mod small).2
  rw [placed] at lacks
  have known := (mem_capacityGroups.mp member).1
  have shortage : 0 < shortageOn dep capacity u attempt.borrower active attempt.targetQuotaBytes device := by
    rw [shortageOn_uses uses, offset]
    exact lt_max_of_lt_right (by omega)
  have floors : ∀ index < dep.instanceCount, index ≠ attempt.borrower.1 →
      held dep u index device = floorOf profiles index device := by
    intro index below apart
    obtain ⟨width, grouped⟩ := device_group below world
    have used : dep.Uses (index, device / dep.width index) device := uses_of_div width rfl
    have lender : Lender dep attempt (index, device / dep.width index) :=
      ⟨grouped, fun same => apart (congrArg Prod.fst same), device, used, uses⟩
    obtain ⟨limits, found⟩ := issued.limits started grouped
    have idle := fundable.idle _ lender
    rw [held_idle found idle rfl]
    by_cases tried : (index, device / dep.width index) ∈ attempt.attemptedDonors
    · exact fundable.spent _ tried device used uses shortage limits found
    · -- It would give something, unless it is at its floor.
      have able : Donor dep u attempt (index, device / dep.width index) limits :=
        ⟨grouped, lender.apart, tried, found, idle, fundable.ready _ lender tried⟩
      have place : device / dep.width index * dep.width index + device % dep.width index = device := used.place.2.2
      have same : (donorQuota dep profiles capacity u attempt active (index, device / dep.width index) limits).getD
          (device % dep.width index) 0 = max (floorOf profiles index device) (limits.getD (device % dep.width index) 0 -
            shortageOn dep capacity u attempt.borrower active attempt.targetQuotaBytes device) := by
        rw [donorQuota_getD (Nat.mod_lt device width), place]
      rw [gives _ _ able] at same
      rcases max_choice (floorOf profiles index device) (limits.getD (device % dep.width index) 0 -
        shortageOn dep capacity u attempt.borrower active attempt.targetQuotaBytes device) with floor | less
      · rw [floor] at same
        exact same
      · rw [less] at same
        omega
  have own : held dep u attempt.borrower.1 device = active.getD rank 0 := by
    rw [held_idle initialized borrower.idle (Prod.ext rfl uses.place.2.1), offset]
  have total := sum_replace (f := fun index => floorOf profiles index device)
    (g := fun index => held dep u index device) known floors
  -- The service ceiling is what the other floors leave of the device.
  have bound := (borrower.fits rank (by rw [(accounted.active _ member _ initialized).width]; exact small)).2
  have stored := accounted.ceilings _ member ceiling borrower.limited
  rw [stored, ceilingVector, getD_map_range _ small, placed] at bound
  have ceilings : ceilingOf dep profiles capacity attempt.borrower.1 device ≤
      capacity device - (floorsOf dep profiles device - floorOf profiles attempt.borrower.1 device) := min_le_right _ _
  have free : freeOn dep capacity u device = capacity device - (floorsOf dep profiles device +
      (active.getD rank 0 - floorOf profiles attempt.borrower.1 device)) := by
    unfold freeOn
    rw [total, own]
    rfl
  omega

/-- While an attempt waits: its witness is current, and the groups other than its
donor are as between two donors. -/
structure Underway (dep : Deployment) (profiles : Nat → Nat → PartitionProfile) (capacity : Nat → Int) (policy : CapacityPolicy)
    (attempt : FundingAttempt) (active : List Int) (donor : Group) : Prop where
  current : Current policy attempt
  idle : ∀ group, Lender dep attempt group → group ≠ donor → policy.operations group = none
  ready : ∀ group, Lender dep attempt group → group ≠ donor → group ∉ attempt.attemptedDonors →
    ∃ demand, policy.demands group = some demand ∧ demand.evaluatedSequence = policy.appliedSequences group
  spent : ∀ group ∈ attempt.attemptedDonors, Spent dep profiles capacity policy attempt active group

/-- The channel never delivers a demand of an earlier sequence than before: its
publisher rejects one. -/
def NeverRegress (readings : Readings) (policy : CapacityPolicy) : Prop :=
  ∀ group demand old, readings.demands group = some demand → policy.demands group = some old →
    old.evaluatedSequence ≤ demand.evaluatedSequence

/-- An idle group with a current demand keeps one. -/
theorem Settled.ready (settled : Settled dep readings s groups u) (forward : NeverRegress readings s) {group : Group}
    (idle : s.operations group = none)
    (ready : ∃ demand, s.demands group = some demand ∧ demand.evaluatedSequence = s.appliedSequences group) :
    ∃ demand, u.demands group = some demand ∧ demand.evaluatedSequence = u.appliedSequences group := by
  obtain ⟨demand, stored, current⟩ := ready
  obtain ⟨-, -, applied⟩ := settled.kept (settled.idle idle)
  rcases settled.demands group with kept | ⟨next, read, taken, bound⟩
  · exact ⟨demand, kept.trans stored, current.trans applied.symm⟩
  · have later := forward group next demand read stored
    rw [lastIssued_idle idle] at bound
    exact ⟨next, taken, by omega⟩

/-- More free bytes leave no new shortage. -/
theorem Spent.mono {group : Group} (spent : Spent dep profiles capacity s attempt active group)
    (more : ∀ device, dep.Uses attempt.borrower device → freeOn dep capacity s device ≤ freeOn dep capacity t device)
    (same : t.activeQuotas group = s.activeQuotas group) : Spent dep profiles capacity t attempt active group := by
  intro device used borrowed short limits found
  refine spent device used borrowed ?_ limits (same ▸ found)
  have grows := more device borrowed
  rw [shortageOn_uses borrowed] at short ⊢
  omega

section Waiting

variable {donor : Group} {operation : QuotaCommand} {donorActive : List Int}

theorem Outcome.demands (outcome : Outcome dep profiles capacity u t) : t.demands = u.demands := by
  cases outcome with
  | waits => rfl
  | unrelated => rfl
  | advanced attempt tried advance => cases advance <;> rfl
  | quits => rfl

/-- A witness that is stored unchanged stays current until its borrower is funded. -/
theorem Settled.current (settled : Settled dep readings s groups u)
    (opened : Open dep profiles capacity s attempt active donor operation donorActive) (current : Current s attempt)
    (unchanged : u.demands attempt.borrower = s.demands attempt.borrower) : Current u attempt := by
  obtain ⟨idle, kept, applied⟩ := settled.borrower opened
  unfold Current at current ⊢
  rw [← current]
  exact eligibleDemand_congr unchanged (kept.trans opened.borrower.symm) (idle.trans opened.idle.symm) applied
    (congrFun settled.ceilings _)

/-- Retiring the donor frees what it gave. -/
theorem Settled.free_retired (settled : Settled dep readings s groups u) (accounted : Accounted dep profiles capacity s)
    (shrink : PendingShrink dep profiles s donor operation donorActive) (member : donor ∈ dep.capacityGroups)
    (idle : u.operations donor = none) (retired : u.activeQuotas donor = some operation.quotaBytes) {device : Nat}
    (used : dep.Uses donor device) :
    freeOn dep capacity s device + (donorActive.getD (device % dep.width donor.1) 0 -
      operation.quotaBytes.getD (device % dep.width donor.1) 0) ≤ freeOn dep capacity u device := by
  have small := used.small member
  obtain ⟨positive, quotient, -⟩ := used.place
  have here : (donor.1, device / dep.width donor.1) = donor := Prod.ext rfl quotient
  have after : held dep u donor.1 device = operation.quotaBytes.getD (device % dep.width donor.1) 0 :=
    held_idle retired idle here
  have before : held dep s donor.1 device = donorActive.getD (device % dep.width donor.1) 0 := by
    simp only [held, CapacityPolicy.pendingQuota, here, shrink.initialized, shrink.pending]
    exact max_eq_left (shrink.shrinks _ (Nat.mod_lt _ positive))
  have total := sum_replace (f := fun index => held dep s index device)
    (g := fun index => if index = donor.1 then held dep u index device else held dep s index device)
    (mem_capacityGroups.mp member).1 fun _ _ apart => if_neg apart
  have less : ∑ index ∈ Finset.range dep.instanceCount, held dep u index device ≤
      ∑ index ∈ Finset.range dep.instanceCount,
        if index = donor.1 then held dep u index device else held dep s index device := by
    refine Finset.sum_le_sum fun index listed => ?_
    split
    · exact le_refl _
    · exact settled.held_le accounted (Finset.mem_range.mp listed) small
  simp only [if_true] at total
  rw [after, before] at total
  unfold freeOn
  omega

/-- Once its donor is retired, an attempt may go on to the next one. -/
theorem Underway.fundable (underway : Underway dep profiles capacity s attempt active donor)
    (settled : Settled dep readings s groups u) (forward : NeverRegress readings s)
    (opened : Open dep profiles capacity s attempt active donor operation donorActive)
    (accounted : Accounted dep profiles capacity s) (idle : u.operations donor = none)
    (retired : u.activeQuotas donor = some operation.quotaBytes) :
    Fundable dep profiles capacity u
      { attempt with donor := none, attemptedDonors := donor :: attempt.attemptedDonors } active := by
  have lender : Lender dep attempt donor := opened.lenders donor (by rw [opened.released_donors]; exact List.mem_cons_self)
  have distinct := opened.distinct
  rw [opened.released_donors] at distinct
  have more : ∀ device, dep.Uses attempt.borrower device → freeOn dep capacity s device ≤ freeOn dep capacity u device := by
    intro device uses
    exact settled.free_le accounted (uses.small opened.known)
  refine ⟨?_, ?_, ?_⟩
  · rintro group ⟨member, apart, shares⟩
    by_cases here : group = donor
    · exact here ▸ idle
    · have quiet := underway.idle group ⟨member, apart, shares⟩ here
      exact (settled.kept (settled.idle quiet)).1.trans quiet
  · rintro group ⟨member, apart, shares⟩ untried
    obtain ⟨here, absent⟩ := not_or.mp (mt List.mem_cons.mpr untried)
    exact settled.ready forward (underway.idle group ⟨member, apart, shares⟩ here)
      (underway.ready group ⟨member, apart, shares⟩ here absent)
  · intro group listed
    rcases List.mem_cons.mp listed with rfl | earlier
    · intro device used borrowed short limits found
      obtain rfl := Option.some.inj (retired.symm.trans found)
      rcases opened.gives device used borrowed with floor | enough
      · exact floor
      · -- The shrink would have covered the device.
        have freed := settled.free_retired accounted opened.shrink lender.member idle retired used
        rw [shortageOn_uses borrowed] at short
        simp only at short
        omega
    · have here : group ≠ donor := fun same => (List.nodup_cons.mp distinct).1 (same ▸ earlier)
      have listed : group ∈ attempt.donors := by
        rw [opened.released_donors]
        exact List.mem_cons_of_mem _ earlier
      have quiet := underway.idle group (opened.lenders group listed) here
      exact (underway.spent group earlier).mono more (settled.kept (settled.idle quiet)).2.1

/-- The next donor of a fundable attempt. -/
theorem Fundable.donated (fundable : Fundable dep profiles capacity u attempt active)
    (accounted : Accounted dep profiles capacity u) (current : Current u attempt)
    (able : Donor dep u attempt donor donorActive) :
    Underway dep profiles capacity
      { u.issue donor (donorQuota dep profiles capacity u attempt active donor donorActive) with
        fundingAttempt := some { attempt with donor := some donor } }
      { attempt with donor := some donor } active donor := by
  obtain ⟨member, -⟩ := current.member accounted
  refine ⟨?_, ?_, ?_, ?_⟩
  · unfold Current at current ⊢
    rw [← current]
    exact eligibleDemand_congr rfl rfl (Function.update_of_ne able.apart.symm ..) rfl rfl
  · rintro group ⟨member, apart, shares⟩ here
    exact (Function.update_of_ne here ..).trans (fundable.idle group ⟨member, apart, shares⟩)
  · rintro group ⟨member, apart, shares⟩ here untried
    exact fundable.ready group ⟨member, apart, shares⟩ untried
  · intro group tried device used borrowed short limits found
    refine fundable.spent group tried device used borrowed ?_ limits found
    rw [shortageOn_uses borrowed] at short ⊢
    have same : freeOn dep capacity
        { u.issue donor (donorQuota dep profiles capacity u attempt active donor donorActive) with
          fundingAttempt := some { attempt with donor := some donor } } device = freeOn dep capacity u device :=
      (freeOn_congr rfl rfl).trans (freeOn_issue_shrink (borrowed.small member) able.idle able.initialized
        fun rank below => (donorQuota_bounds accounted able below).2)
    rwa [same] at short

/-- A waiting attempt goes on waiting over a step that neither retires its donor nor
changes its witness. -/
theorem Underway.keep (underway : Underway dep profiles capacity s attempt active donor)
    (opened : Open dep profiles capacity s attempt active donor operation donorActive)
    (settled : Settled dep readings s groups u) (forward : NeverRegress readings s)
    (accounted : Accounted dep profiles capacity s) (unchanged : u.demands attempt.borrower = s.demands attempt.borrower) :
    Underway dep profiles capacity u attempt active donor := by
  refine ⟨settled.current opened underway.current unchanged, ?_, ?_, ?_⟩
  · intro group lender here
    have quiet := underway.idle group lender here
    exact (settled.kept (settled.idle quiet)).1.trans quiet
  · intro group lender here untried
    exact settled.ready forward (underway.idle group lender here) (underway.ready group lender here untried)
  · intro group tried
    have distinct := opened.distinct
    have lenders := opened.lenders
    rw [opened.released_donors] at distinct lenders
    have here : group ≠ donor := fun same => (List.nodup_cons.mp distinct).1 (same ▸ tried)
    have quiet := underway.idle group (lenders group (List.mem_cons_of_mem _ tried)) here
    refine (underway.spent group tried).mono ?_ (settled.kept (settled.idle quiet)).2.1
    intro device uses
    exact settled.free_le accounted (uses.small opened.known)

/-- Funding an unrelated group changes nothing for a waiting attempt. -/
theorem Underway.unrelated (underway : Underway dep profiles capacity u attempt active donor) {group : Group}
    (known : attempt.borrower ∈ dep.capacityGroups) (apart : ¬ dep.Shares group attempt.borrower)
    (positive : 0 < dep.width attempt.borrower.1) (quota : List Int) :
    Underway dep profiles capacity (u.issue group quota) attempt active donor := by
  have uses : dep.Uses attempt.borrower (attempt.borrower.2 * dep.width attempt.borrower.1 + 0) :=
    uses_iff.mpr ⟨0, positive, rfl⟩
  have other : attempt.borrower ≠ group := by
    rintro rfl
    exact apart ⟨_, uses, uses⟩
  refine ⟨?_, ?_, underway.ready, ?_⟩
  · have current := underway.current
    unfold Current at current ⊢
    rw [← current]
    exact eligibleDemand_congr rfl rfl (Function.update_of_ne other ..) rfl rfl
  · intro lender lends here
    refine (Function.update_of_ne ?_ ..).trans (underway.idle lender lends here)
    rintro rfl
    exact apart lends.shares
  · intro lender tried
    refine (underway.spent lender tried).mono ?_ rfl
    intro device borrowed
    rw [freeOn_issue_unused (borrowed.small known) fun used => apart ⟨device, used, borrowed⟩]

/-- The donors' sequence number of an attempt's witness is stored while it is current. -/
theorem Current.demanded (current : Current s attempt) : s.demands attempt.borrower =
    some ⟨attempt.evaluatedSequence, some attempt.targetQuotaBytes, some attempt.deadlineMonotonicNs⟩ := by
  obtain ⟨_, _, _, borrower⟩ := eligibleDemand_eq_ok current
  exact borrower.demanded

end Waiting

/-- An attempt whose other groups were ready when it opened, in a state of a run. -/
structure Promised (dep : Deployment) (profiles : Nat → Nat → PartitionProfile) (s : CapacityPolicy)
    (attempt : FundingAttempt) : Prop where
  noted : s.fundingAttempt = some attempt
  underway : ∀ capacity active donor operation donorActive, s.poolCapacityBytes = some capacity →
    Open dep profiles capacity s attempt active donor operation donorActive →
      Underway dep profiles capacity s attempt active donor

/-- The witness of an attempt is what it was. -/
def Unchanged (policy : CapacityPolicy) (attempt : FundingAttempt) : Prop :=
  policy.demands attempt.borrower =
    some ⟨attempt.evaluatedSequence, some attempt.targetQuotaBytes, some attempt.deadlineMonotonicNs⟩

/-- A promised attempt stays open or is granted. -/
theorem Promised.step (promised : Promised dep profiles s attempt) (stepped : Stepped dep profiles readings s t)
    (inv : RunInvariant dep profiles s) (forward : NeverRegress readings s)
    (unchanged : Unchanged t attempt) :
    (Continues s t ∧ ∃ next, Promised dep profiles t next ∧ next.borrower = attempt.borrower ∧
      next.evaluatedSequence = attempt.evaluatedSequence ∧ next.targetQuotaBytes = attempt.targetQuotaBytes ∧
        next.deadlineMonotonicNs = attempt.deadlineMonotonicNs) ∨ Grants s t attempt := by
  have noted := promised.noted
  obtain ⟨capacity, active, donor, operation, donorActive, frozen, opened⟩ := inv.disciplined attempt noted
  have underway := promised.underway capacity active donor operation donorActive frozen opened
  have named := opened.named
  rcases stepped.funds inv noted with rfl | ⟨capacity', groups, u, frozen', settled, before, serving, outcome⟩
  · exact Or.inl ⟨⟨attempt, donor, noted, named, Or.inl ⟨noted, rfl⟩⟩, attempt, promised, rfl, rfl, rfl, rfl⟩
  obtain rfl := Option.some.inj (frozen.symm.trans frozen')
  have same : u.demands attempt.borrower = s.demands attempt.borrower := by
    rw [underway.current.demanded, ← outcome.demands]
    exact unchanged
  have current := settled.current opened underway.current same
  have promise {next : FundingAttempt} {active' : List Int} {donor' : Group} (noted' : t.fundingAttempt = some next)
      (pool : t.poolCapacityBytes = some capacity) (holds : Underway dep profiles capacity t next active' donor')
      (named' : next.donor = some donor') (borrower' : t.activeQuotas next.borrower = some active') :
      Promised dep profiles t next := by
    refine ⟨noted', fun capacity'' active'' donor'' operation'' donorActive'' frozen'' opened'' => ?_⟩
    obtain rfl := Option.some.inj (pool.symm.trans frozen'')
    obtain rfl := Option.some.inj (named'.symm.trans opened''.named)
    obtain rfl := Option.some.inj (borrower'.symm.trans opened''.borrower)
    exact holds
  have pool := settled.pool.trans frozen
  have borrower := (settled.borrower opened).2.1
  rcases settled.resumed noted named with ⟨waiting, kept, -⟩ | ⟨operation', released, pending, idle, retired, -⟩
  · -- The donor is still pending: the step may only fund an unrelated group.
    have still := underway.keep opened settled forward before same
    have closed (quits : ∀ old, u.fundingAttempt = some old → Quits dep profiles capacity u old) : False := by
      exact absurd (named.symm.trans (quits attempt waiting).free) (by simp)
    cases outcome with
    | waits old donor' noted' named' =>
      exact Or.inl ⟨⟨attempt, donor, noted, named, Or.inl ⟨waiting, kept⟩⟩, attempt,
        promise waiting pool still named borrower, rfl, rfl, rfl, rfl⟩
    | unrelated old donor' group demand quota noted' named' apart eligible wanted =>
      obtain rfl := Option.some.inj (waiting.symm.trans noted')
      obtain ⟨_, _, _, eligibleFacts⟩ := eligibleDemand_eq_ok eligible
      have busy : donor ≠ group := by
        rintro rfl
        exact absurd (eligibleFacts.idle.symm.trans (kept.trans opened.shrink.pending)) (by simp)
      refine Or.inl ⟨⟨attempt, donor, noted, named, Or.inl ⟨waiting, ?_⟩⟩, attempt,
        promise waiting pool (still.unrelated opened.known apart opened.positive quota) named borrower, rfl, rfl, rfl, rfl⟩
      exact (Function.update_of_ne busy ..).trans kept
    | advanced old tried advance =>
      cases tried with
      | noted noted' =>
        obtain rfl := Option.some.inj (waiting.symm.trans noted')
        cases advance with
        | granted _ free => exact absurd (named.symm.trans free) (by simp)
        | donated _ _ _ free => exact absurd (named.symm.trans free) (by simp)
      | fresh quits empty => exact absurd quits closed
    | quits quits => exact absurd quits closed
  · -- The donor was retired, so the attempt is granted or shrinks the next donor.
    obtain rfl := Option.some.inj (opened.shrink.pending.symm.trans pending)
    have fundable := underway.fundable settled forward opened before idle retired
    have closed (quits : ∀ old, u.fundingAttempt = some old → Quits dep profiles capacity u old) : False := by
      cases quits _ released with
      | lapsed free stale => exact stale current
      | starved active' free now initialized short unable =>
        obtain rfl := Option.some.inj (borrower.symm.trans initialized)
        obtain ⟨next, nextActive, able, changed⟩ :=
          fundable.not_starved serving.accounted serving.issued serving.started current initialized short
        exact changed (unable next nextActive able)
    cases outcome with
    | waits old donor' noted' named' =>
      obtain rfl := Option.some.inj (released.symm.trans noted')
      cases named'
    | unrelated old donor' group demand quota noted' named' =>
      obtain rfl := Option.some.inj (released.symm.trans noted')
      cases named'
    | advanced old tried advance =>
      cases tried with
      | noted noted' =>
        obtain rfl := Option.some.inj (released.symm.trans noted')
        cases advance with
        | granted active' free now initialized fits =>
          refine Or.inr ⟨rfl, ?_⟩
          have applied := (settled.borrower opened).2.2
          show Function.update u.commands attempt.borrower
            (⟨u.appliedSequences attempt.borrower + 1, attempt.targetQuotaBytes⟩ :: u.commands attempt.borrower) = _
          rw [settled.commands, applied]
        | donated active' next nextActive free now initialized short able changed =>
          obtain rfl := Option.some.inj (borrower.symm.trans initialized)
          refine Or.inl ⟨⟨attempt, donor, noted, named, Or.inr ⟨next, rfl⟩⟩, _,
            promise rfl pool (fundable.donated serving.accounted now able) rfl initialized, rfl, rfl, rfl, rfl⟩
      | fresh quits empty => exact absurd quits closed
    | quits quits => exact absurd quits closed

/-- An attempt that has tried no donor before, with its witness as it was and every
other group ready, is promised. -/
theorem Promised.opened {donor : Group} (noted : s.fundingAttempt = some attempt)
    (named : attempt.donor = some donor) (first : attempt.attemptedDonors = []) (unchanged : Unchanged s attempt)
    (ready : ∀ group, Lender dep attempt group → group ≠ donor → s.operations group = none ∧
      ∃ demand, s.demands group = some demand ∧ demand.evaluatedSequence = s.appliedSequences group) :
    Promised dep profiles s attempt := by
  refine ⟨noted, fun capacity active donor' operation donorActive frozen opened => ?_⟩
  obtain rfl := Option.some.inj (named.symm.trans opened.named)
  refine ⟨?_, fun group lender here => (ready group lender here).1, fun group lender here _ => (ready group lender here).2, ?_⟩
  · have eligible := opened.eligible
    unfold Current at eligible ⊢
    rw [← eligible]
    exact eligibleDemand_congr (unchanged.trans (witnessing_demands s attempt).symm) rfl rfl rfl rfl
  · rw [first]
    intro group listed
    cases listed

/-- Returning steps over which the attempt stays open with its witness unchanged. -/
def Waits (dep : Deployment) (profiles : Nat → Nat → PartitionProfile) (attempt : FundingAttempt) :
    CapacityPolicy → CapacityPolicy → Prop :=
  Relation.ReflTransGen fun s t =>
    (∃ book readings, Returns dep profiles book readings s t ∧ NeverRegress readings s) ∧ Continues s t ∧ Unchanged t attempt

/-- Two attempts for one witness. -/
structure SameWitness (attempt next : FundingAttempt) : Prop where
  borrower : next.borrower = attempt.borrower
  evaluated : next.evaluatedSequence = attempt.evaluatedSequence
  target : next.targetQuotaBytes = attempt.targetQuotaBytes
  deadline : next.deadlineMonotonicNs = attempt.deadlineMonotonicNs

theorem SameWitness.unchanged {next : FundingAttempt} (same : SameWitness attempt next) (unchanged : Unchanged t attempt) :
    Unchanged t next := by
  unfold Unchanged at *
  rwa [same.borrower, same.evaluated, same.target, same.deadline]

theorem SameWitness.grants {next : FundingAttempt} (same : SameWitness attempt next) (grants : Grants s t next) :
    Grants s t attempt := by
  unfold Grants at *
  rwa [same.borrower, same.target] at grants

/-- A promised attempt stays promised until it is granted. -/
theorem Waits.promised (waits : Waits dep profiles attempt s t) (inv : RunInvariant dep profiles s)
    (promised : Promised dep profiles s attempt) :
    RunInvariant dep profiles t ∧ ∃ next, Promised dep profiles t next ∧ SameWitness attempt next := by
  induction waits with
  | refl => exact ⟨inv, attempt, promised, rfl, rfl, rfl, rfl⟩
  | tail _ step ih =>
    obtain ⟨invThere, next, promisedThere, same⟩ := ih
    obtain ⟨⟨book, readings, returned, forward⟩, continues, unchanged⟩ := step
    have stepped := returned.stepped invThere.policy invThere.issued
    refine ⟨returned.runInvariant invThere, ?_⟩
    rcases promisedThere.step stepped invThere forward (same.unchanged unchanged) with ⟨-, last, promise, more⟩ | ⟨closed, -⟩
    · obtain ⟨borrower, evaluated, target, deadline⟩ := more
      exact ⟨last, promise, borrower.trans same.borrower, evaluated.trans same.evaluated, target.trans same.target,
        deadline.trans same.deadline⟩
    · obtain ⟨_, _, -, -, ⟨opened, -⟩ | ⟨_, opened⟩⟩ := continues
      · exact absurd (closed.symm.trans opened) (by simp)
      · exact absurd (closed.symm.trans opened) (by simp)

/-- A new attempt with all other groups ready is granted or shrinks a donor. -/
theorem Advance.opened {advanced : Bool} (advance : Advance dep profiles capacity u attempt advanced t)
    (serving : Serving dep profiles capacity u) (free : attempt.donor = none) (first : attempt.attemptedDonors = [])
    (current : Current u attempt) (ready : OthersReady dep u attempt) :
    Grants u t attempt ∨ ∃ donor, t.fundingAttempt = some { attempt with donor := some donor } := by
  cases advance with
  | waits donor named => exact absurd (free.symm.trans named) (by simp)
  | lapsed _ stale => exact absurd current stale
  | granted => exact Or.inl ⟨rfl, rfl⟩
  | starved active _ _ initialized short unable =>
    have fundable : Fundable dep profiles capacity u attempt active := by
      refine ⟨fun group lender => (ready group lender).1, fun group lender _ => (ready group lender).2, ?_⟩
      rw [first]
      intro group listed
      cases listed
    obtain ⟨donor, donorActive, able, changed⟩ :=
      fundable.not_starved serving.accounted serving.issued serving.started current initialized short
    exact absurd (unable donor donorActive able) changed
  | donated active donor => exact Or.inr ⟨donor, rfl⟩

end Completeness

/-! ## What a command is published for -/

section Publication

variable (dep : Deployment) (profiles : Nat → Nat → PartitionProfile)

/-- A group's first command, the shrink of an open attempt's donor, or the exact
vector of the group's current witness. -/
inductive Publication (policy : CapacityPolicy) (group : Group) (command : QuotaCommand) : Prop where
  | first : command.sequence = 1 → Publication policy group command
  | shrink (attempt : FundingAttempt) (active : List Int) : policy.fundingAttempt = some attempt →
      attempt.donor = some group → PendingShrink dep profiles policy group command active → Publication policy group command
  | grant (deadline : Nat) : policy.demands group =
        some ⟨policy.appliedSequences group, some command.quotaBytes, some deadline⟩ →
      command.sequence = policy.appliedSequences group + 1 → Publication policy group command

variable {dep profiles}
variable {capacity : Nat → Int} {readings : Readings} {s t u : CapacityPolicy} {group : Group} {command : QuotaCommand}

/-- A command published by `issue` is the one it was called for. -/
theorem issue_commands {other : Group} {quota : List Int}
    (sent : (u.issue other quota).commands group = command :: u.commands group) :
    group = other ∧ command = ⟨u.appliedSequences group + 1, quota⟩ := by
  by_cases here : group = other
  · subst here
    have head : (u.issue group quota).commands group = ⟨u.appliedSequences group + 1, quota⟩ :: u.commands group :=
      Function.update_self ..
    exact ⟨rfl, (List.cons.inj (sent.symm.trans head)).1⟩
  · have same : (u.issue other quota).commands group = u.commands group := Function.update_of_ne here ..
    exact absurd (congrArg List.length (same.symm.trans sent)) (by simp)

theorem Outcome.publication (outcome : Outcome dep profiles capacity u t) (accounted : Accounted dep profiles capacity u)
    (sent : t.commands group = command :: u.commands group) : Publication dep profiles t group command := by
  cases outcome with
  | waits => exact absurd (congrArg List.length sent) (by simp)
  | unrelated attempt donor other demand quota opened named apart eligible wanted =>
    obtain ⟨rfl, rfl⟩ := issue_commands sent
    obtain ⟨_, _, _, borrower⟩ := eligibleDemand_eq_ok eligible
    obtain ⟨deadline, timed⟩ := borrower.timed
    refine .grant deadline ?_ rfl
    show u.demands group = _
    obtain ⟨evaluated, required, time⟩ := demand
    rw [borrower.demanded, show evaluated = u.appliedSequences group from borrower.current,
      show required = some quota from wanted, show time = some deadline from timed]
    rfl
  | advanced attempt tried advance =>
    cases advance with
    | granted active free current initialized fits =>
      obtain ⟨rfl, rfl⟩ := issue_commands sent
      obtain ⟨_, _, _, borrower⟩ := eligibleDemand_eq_ok current
      refine .grant attempt.deadlineMonotonicNs ?_ rfl
      show u.demands attempt.borrower = _
      rw [borrower.demanded, show attempt.evaluatedSequence = _ from borrower.current]
      rfl
    | donated active donor donorActive free current initialized short able changed =>
      obtain ⟨rfl, rfl⟩ := issue_commands sent
      refine .shrink _ donorActive rfl rfl ⟨Function.update_self .., able.initialized, ?_, ?_, changed⟩
      · intro rank small
        exact (donorQuota_bounds accounted able small).1
      · intro rank small
        exact (donorQuota_bounds accounted able small).2
  | quits => exact absurd (congrArg List.length sent) (by simp)

theorem Stepped.publication (stepped : Stepped dep profiles readings s t)
    (sent : t.commands group = command :: s.commands group) : Publication dep profiles t group command := by
  cases stepped with
  | unready => exact absurd (congrArg List.length sent) (by simp)
  | progress capacity commands noted same frozen policy issued progress =>
    rw [← commands] at sent
    cases progress with
    | waits groups retired =>
      rw [← retired.commands] at sent
      exact absurd (congrArg List.length sent) (by simp)
    | starts groups other quota retired starting unapplied =>
      rw [← retired.commands] at sent
      obtain ⟨rfl, rfl⟩ := issue_commands sent
      exact .first (by rw [unapplied])
    | funds groups settled serving outcome =>
      rw [← settled.commands] at sent
      exact outcome.publication serving.accounted sent

end Publication

/-! ## The discipline of funding -/

/-- What the policy keeps to when it funds, from a state `s` of a run. -/
structure FundingDiscipline (dep : Deployment) (profiles : Nat → Nat → PartitionProfile) (s : CapacityPolicy) : Prop where
  /-- A step publishes at most one command, whether it returns or raises. -/
  single : ∀ book readings, Retains profiles book → AtMostOne s (s.after dep book readings)
  /-- After a step an open attempt names a donor whose shrink is pending. -/
  donor : ∀ book readings t, Returns dep profiles book readings s t → ∀ attempt, t.fundingAttempt = some attempt →
    ∃ donor operation active, attempt.donor = some donor ∧ PendingShrink dep profiles t donor operation active
  /-- A command is a group's first, a donor's shrink, or the exact vector of the group's current witness. -/
  published : ∀ book readings t, Returns dep profiles book readings s t → ∀ group command,
    t.commands group = command :: s.commands group → Publication dep profiles t group command
  /-- An attempt publishes for its borrower its own vector only, while its witness is the one stored. -/
  granted : ∀ capacity u book readings attempt advanced v, Serving dep profiles capacity u → Retains profiles book →
    CapacityPolicy.advanceAttempt dep book readings attempt u = .ok advanced v →
    v.commands attempt.borrower ≠ u.commands attempt.borrower → Unchanged u attempt ∧
      v.commands attempt.borrower =
        ⟨u.appliedSequences attempt.borrower + 1, attempt.targetQuotaBytes⟩ :: u.commands attempt.borrower
  /-- While an attempt stays open, no donor is shrunk twice or below its floor, and the borrower's devices lose no
  free bytes. -/
  stays : ∀ attempt t, s.fundingAttempt = some attempt → Stays dep profiles s t →
    ∃ last, t.fundingAttempt = some last ∧ last.donors.Nodup ∧ ShrunkOnce dep profiles s attempt t last ∧
      ∀ book before after, Retains profiles book → s.poolFreeBytes dep book = .ok before →
        t.poolFreeBytes dep book = .ok after → ∀ device, dep.Uses attempt.borrower device → before device ≤ after device
  /-- A new attempt with every other group ready is granted at once or shrinks its first donor. -/
  opens : ∀ capacity u book readings attempt advanced v, Serving dep profiles capacity u → Retains profiles book →
    attempt.donor = none → attempt.attemptedDonors = [] → Current u attempt → OthersReady dep u attempt →
    CapacityPolicy.advanceAttempt dep book readings attempt u = .ok advanced v →
      Grants u v attempt ∨ ∃ donor, v.fundingAttempt = some { attempt with donor := some donor }
  /-- Such an attempt is open until it is granted, as long as its witness is unchanged. -/
  completes : ∀ attempt donor, s.fundingAttempt = some attempt → attempt.donor = some donor →
    attempt.attemptedDonors = [] → Unchanged s attempt →
    (∀ group, Lender dep attempt group → group ≠ donor → s.operations group = none ∧
      ∃ demand, s.demands group = some demand ∧ demand.evaluatedSequence = s.appliedSequences group) →
    ∀ r t book readings, Waits dep profiles attempt s r → Returns dep profiles book readings r t →
      NeverRegress readings r → Unchanged t attempt → Continues r t ∨ Grants r t attempt

section Discipline

variable {dep : Deployment} {profiles : Nat → Nat → PartitionProfile} {capacity : Nat → Int} {book : RegistrationBook}
variable {readings : Readings} {s t u : CapacityPolicy} {attempt : FundingAttempt}

theorem after_atMostOne (retains : Retains profiles book) (inv : RunInvariant dep profiles s) :
    AtMostOne s (s.after dep book readings) := by
  have spec : wp (CapacityPolicy.step dep book readings) (fun _ t => Stepped dep profiles readings s t)
      (fun t => t.commands = s.commands) s := step_spec retains inv.policy inv.issued
  unfold wp at spec
  unfold CapacityPolicy.after
  split at spec
  · rename_i call
    rw [call]
    exact spec.atMostOne
  · rename_i call
    rw [call]
    exact Or.inl spec

theorem advanceAttempt_advance (serving : Serving dep profiles capacity u) (retains : Retains profiles book) {advanced : Bool}
    (returned : CapacityPolicy.advanceAttempt dep book readings attempt u = .ok advanced t) :
    Advance dep profiles capacity u attempt advanced t := by
  have spec : wp (CapacityPolicy.advanceAttempt dep book readings attempt)
      (fun advanced t => Advance dep profiles capacity u attempt advanced t) (fun t => t = u) u :=
    advanceAttempt_spec retains serving.frozen serving.accounted serving.issued attempt
  unfold wp at spec
  rwa [returned] at spec

theorem Advance.grant {advanced : Bool} (advance : Advance dep profiles capacity u attempt advanced t)
    (sent : t.commands attempt.borrower ≠ u.commands attempt.borrower) : Unchanged u attempt ∧
      t.commands attempt.borrower =
        ⟨u.appliedSequences attempt.borrower + 1, attempt.targetQuotaBytes⟩ :: u.commands attempt.borrower := by
  cases advance with
  | waits => exact absurd rfl sent
  | lapsed => exact absurd rfl sent
  | granted active free current => exact ⟨current.demanded, Function.update_self ..⟩
  | starved => exact absurd rfl sent
  | donated active donor donorActive free current initialized short able changed =>
    exact absurd (Function.update_of_ne able.apart.symm ..) sent

/-- A step publishes at most one command. An open attempt names a donor with a
pending shrink; while it stays open it shrinks each donor at most once and not below
its floor, and the free bytes of its borrower's devices do not decrease; it is
granted exactly its unchanged witness. If the other groups on the borrower's devices
were idle with current demands when it opened, it closes only by that grant. -/
theorem funding_discipline (reached : (fundingRuns dep profiles).Reachable s) : FundingDiscipline dep profiles s := by
  have inv := reachable_runInvariant reached
  refine ⟨?_, ?_, ?_, ?_, ?_, ?_, ?_⟩
  · intro book readings retains
    exact after_atMostOne retains inv
  · intro book readings t returned attempt noted
    obtain ⟨_, _, donor, operation, active, -, opened⟩ := (returned.runInvariant inv).disciplined attempt noted
    exact ⟨donor, operation, active, opened.named, opened.shrink⟩
  · intro book readings t returned group command sent
    exact (returned.stepped inv.policy inv.issued).publication sent
  · intro capacity u book readings attempt advanced v serving retains returned sent
    exact (advanceAttempt_advance serving retains returned).grant sent
  · intro attempt t noted stays
    obtain ⟨invThere, last, same⟩ := stays.sameAttempt inv noted
    obtain ⟨_, _, _, _, _, -, openedThere⟩ := invThere.disciplined last same.noted
    obtain ⟨capacity, _, _, _, _, frozen, opened⟩ := inv.disciplined attempt noted
    refine ⟨last, same.noted, openedThere.distinct, same.once, ?_⟩
    intro book before after retains countedBefore countedAfter device uses
    have small := uses.small opened.known
    rw [poolFreeBytes_eq_ok retains frozen countedBefore small,
      poolFreeBytes_eq_ok retains (same.capacity.trans frozen) countedAfter small]
    exact same.free capacity frozen device uses
  · intro capacity u book readings attempt advanced v serving retains free first current ready returned
    exact (advanceAttempt_advance serving retains returned).opened serving free first current ready
  · intro attempt donor noted named first unchanged ready r t book readings waits returned forward stillThere
    obtain ⟨invThere, next, promised, same⟩ := waits.promised inv (.opened noted named first unchanged ready)
    have stepped := returned.stepped invThere.policy invThere.issued
    rcases promised.step stepped invThere forward (same.unchanged stillThere) with ⟨continues, -⟩ | grants
    · exact Or.inl continues
    · exact Or.inr (same.grants grants)

end Discipline

/-- Two Instances on one attention device. -/
def oneDevice : Deployment where
  instancePlans := [⟨"left", 1, 1⟩, ⟨"right", 1, 1⟩]
  atnWorldSize := 1
  devices := id
  utilizedBytes := fun total => total * 9 / 10
  covers := by simp

/-- The readings of a device with 820 bytes for two partitions of floor 10. -/
def sharedReadings (completion : Option QuotaCompletion) (demands : Group → Option QuotaDemand) : Readings :=
  ⟨fun _ => some 10, fun _ => some ⟨1000, 900⟩, fun _ => completion, demands, fun _ => completion, 0⟩

/-- After startup the left Instance asks for 450 of the 820 bytes, of which both
have 410: the right one is shrunk to 370. -/
def contendedRun : List Readings :=
  [sharedReadings none fun _ => none, sharedReadings (some ⟨1, 10⟩) fun _ => none,
    sharedReadings (some ⟨1, 10⟩) fun group => some (if group.1 = 0 then ⟨1, some [450], some 5⟩ else ⟨1, none, none⟩)]

/-- The policy after some steps. -/
def policyAfter (run : List Readings) : CapacityPolicy :=
  run.foldl (fun policy readings => policy.after oneDevice (fun _ _ => some ⟨evenProfile, 0⟩) readings) CapacityPolicy.create

theorem returns_after {dep : Deployment} {profiles : Nat → Nat → PartitionProfile} {book : RegistrationBook}
    {readings : Readings} {s : CapacityPolicy} (retains : Retains profiles book)
    (returned : (match CapacityPolicy.step dep book readings s with | .ok _ _ => true | .error _ _ => false) = true) :
    Returns dep profiles book readings s (s.after dep book readings) := by
  refine ⟨retains, ?_⟩
  unfold CapacityPolicy.after
  split at returned
  · rename_i call
    rw [call]
  · cases returned

theorem contended_reachable : (fundingRuns oneDevice fun _ _ => evenProfile).Reachable (policyAfter contendedRun) := by
  have retains : Retains (fun _ _ => evenProfile) fun _ _ => some ⟨evenProfile, 0⟩ := by
    rintro index rank registration ⟨⟩
    rfl
  have start : (fundingRuns oneDevice fun _ _ => evenProfile).Reachable CapacityPolicy.create := .start rfl
  have first := start.step (a := (fun _ _ => some ⟨evenProfile, 0⟩, sharedReadings none fun _ => none))
    (returns_after retains (by decide +kernel))
  have second := first.step (a := (fun _ _ => some ⟨evenProfile, 0⟩, sharedReadings (some ⟨1, 10⟩) fun _ => none))
    (returns_after retains (by decide +kernel))
  exact second.step (a := (fun _ _ => some ⟨evenProfile, 0⟩, sharedReadings (some ⟨1, 10⟩) fun group =>
    some (if group.1 = 0 then ⟨1, some [450], some 5⟩ else ⟨1, none, none⟩))) (returns_after retains (by decide +kernel))

theorem funding_discipline_contended :
    (policyAfter contendedRun).fundingAttempt = some ⟨(0, 0), 1, [450], 5, [], some (1, 0)⟩ ∧
      (policyAfter contendedRun).operations (1, 0) = some ⟨2, [370]⟩ ∧
        FundingDiscipline oneDevice (fun _ _ => evenProfile) (policyAfter contendedRun) :=
  ⟨by decide +kernel, by decide +kernel, funding_discipline contended_reachable⟩

end CrossPool.Ecs
