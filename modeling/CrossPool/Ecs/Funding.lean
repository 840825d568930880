import CrossPool.Ecs.Step

/-!
# Funding attempts of the quota policy

An attempt funds one borrower's exact witness by shrinking one donor after the
other, each over several steps. `Outcome` lists what the funding part of one
returning `step` does; the discipline of an attempt over a run follows from it.

On a device that is still short after some donors have been retired, each of them
was left at its floor: a donor that kept more has given all the bytes the device
was short of, and the free bytes of the borrower's devices never decrease while
the attempt is open. When no donor is left, all other partitions of a short device
are at their floors, and then the service ceiling bounds the borrower's growth by
the free bytes. So the last donor suffices.
-/

namespace CrossPool.Ecs

open CrossPool.Lib

/-! ## Commands issued -/

/-- Commands numbered from one, newest first. -/
def Sequenced : List QuotaCommand → Prop
  | [] => True
  | command :: rest => command.sequence = rest.length + 1 ∧ Sequenced rest

/-- What the policy knows of each group is what it published. -/
structure Issued (policy : CapacityPolicy) : Prop where
  sequenced : ∀ group, Sequenced (policy.commands group)
  count : ∀ group, (policy.commands group).length = policy.lastIssuedSequence group
  pending : ∀ group operation, policy.operations group = some operation →
    (policy.commands group).head? = some operation ∧ operation.sequence = policy.appliedSequences group + 1
  applied : ∀ group, 0 < policy.appliedSequences group →
    ∃ command ∈ policy.commands group, command.sequence = policy.appliedSequences group ∧
      policy.activeQuotas group = some command.quotaBytes

section Issued

variable {dep : Deployment} {profiles : Nat → Nat → PartitionProfile} {readings : Readings} {s t : CapacityPolicy}

theorem Sequenced.head {commands : List QuotaCommand} (sequenced : Sequenced commands) {command : QuotaCommand}
    (head : commands.head? = some command) : command.sequence = commands.length := by
  cases commands with
  | nil => cases head
  | cons first rest =>
    obtain rfl := Option.some.inj head
    exact sequenced.1

theorem lastIssued_idle {group : Group} (idle : s.operations group = none) :
    s.lastIssuedSequence group = s.appliedSequences group := by
  simp [CapacityPolicy.lastIssuedSequence, idle]

theorem lastIssued_pending {group : Group} {operation : QuotaCommand} (pending : s.operations group = some operation) :
    s.lastIssuedSequence group = operation.sequence := by
  simp [CapacityPolicy.lastIssuedSequence, pending]

/-- An idle group's newest command is the applied one. -/
theorem Issued.head_idle (issued : Issued s) {group : Group} (idle : s.operations group = none) {command : QuotaCommand}
    (head : (s.commands group).head? = some command) : command.sequence = s.appliedSequences group := by
  rw [(issued.sequenced group).head head, issued.count group, lastIssued_idle idle]

/-- The invariant reads four fields. -/
theorem Issued.congr (issued : Issued s) (active : t.activeQuotas = s.activeQuotas) (operations : t.operations = s.operations)
    (applied : t.appliedSequences = s.appliedSequences) (commands : t.commands = s.commands) : Issued t := by
  refine ⟨?_, ?_, ?_, ?_⟩
  · rw [commands]; exact issued.sequenced
  · intro group
    have same : t.lastIssuedSequence group = s.lastIssuedSequence group := by
      simp only [CapacityPolicy.lastIssuedSequence, operations, applied]
    rw [commands, same]
    exact issued.count group
  · rw [operations, commands, applied]; exact issued.pending
  · rw [applied, commands, active]; exact issued.applied

theorem Issued.floor (issued : Issued s) {group : Group} {floors : List Int} (unapplied : s.appliedSequences group = 0)
    (active : t.activeQuotas = Function.update s.activeQuotas group (some floors)) (operations : t.operations = s.operations)
    (applied : t.appliedSequences = s.appliedSequences) (commands : t.commands = s.commands) : Issued t := by
  have rest : Issued { t with activeQuotas := s.activeQuotas } := issued.congr rfl operations applied commands
  refine ⟨rest.sequenced, rest.count, rest.pending, ?_⟩
  intro other positive
  have apart : other ≠ group := by
    rintro rfl
    rw [applied] at positive
    omega
  rw [active, Function.update_of_ne apart]
  exact rest.applied other positive

theorem Issued.retire (issued : Issued s) {group : Group} {operation : QuotaCommand}
    (pending : s.operations group = some operation)
    (active : t.activeQuotas = Function.update s.activeQuotas group (some operation.quotaBytes))
    (applied : t.appliedSequences = Function.update s.appliedSequences group operation.sequence)
    (operations : t.operations = Function.update s.operations group none) (commands : t.commands = s.commands) :
    Issued t := by
  obtain ⟨head, -⟩ := issued.pending group operation pending
  refine ⟨?_, ?_, ?_, ?_⟩
  · rw [commands]; exact issued.sequenced
  · intro other
    rw [commands, issued.count other]
    by_cases here : other = group
    · subst here
      rw [lastIssued_pending pending, lastIssued_idle (by rw [operations, Function.update_self]), applied,
        Function.update_self]
    · simp only [CapacityPolicy.lastIssuedSequence, operations, applied, Function.update_of_ne here]
  · intro other next found
    have apart : other ≠ group := by
      rintro rfl
      rw [operations, Function.update_self] at found
      cases found
    rw [operations, Function.update_of_ne apart] at found
    rw [commands, applied, Function.update_of_ne apart]
    exact issued.pending other next found
  · intro other positive
    rw [commands, applied, active]
    by_cases here : other = group
    · subst here
      refine ⟨operation, List.mem_of_mem_head? head, ?_, ?_⟩
      · rw [Function.update_self]
      · rw [Function.update_self]
    · rw [Function.update_of_ne here, Function.update_of_ne here]
      rw [applied, Function.update_of_ne here] at positive
      exact issued.applied other positive

theorem Issued.publish (issued : Issued s) {group : Group} {target : List Int} (idle : s.operations group = none)
    (operations : t.operations = Function.update s.operations group (some ⟨s.appliedSequences group + 1, target⟩))
    (commands : t.commands = Function.update s.commands group
      (⟨s.appliedSequences group + 1, target⟩ :: s.commands group))
    (active : t.activeQuotas = s.activeQuotas) (applied : t.appliedSequences = s.appliedSequences) : Issued t := by
  have length : (s.commands group).length = s.appliedSequences group := by
    rw [issued.count group, lastIssued_idle idle]
  refine ⟨?_, ?_, ?_, ?_⟩
  · intro other
    rw [commands]
    by_cases here : other = group
    · subst here
      rw [Function.update_self]
      exact ⟨by rw [length], issued.sequenced other⟩
    · rw [Function.update_of_ne here]
      exact issued.sequenced other
  · intro other
    rw [commands]
    by_cases here : other = group
    · subst here
      have found : t.operations other = some ⟨s.appliedSequences other + 1, target⟩ := by
        rw [operations, Function.update_self]
      rw [Function.update_self, List.length_cons, length, lastIssued_pending found]
    · rw [Function.update_of_ne here, issued.count other]
      simp only [CapacityPolicy.lastIssuedSequence, operations, applied, Function.update_of_ne here]
  · intro other operation found
    rw [operations] at found
    rw [commands, applied]
    by_cases here : other = group
    · subst here
      rw [Function.update_self] at found
      obtain rfl := Option.some.inj found
      rw [Function.update_self]
      exact ⟨rfl, rfl⟩
    · rw [Function.update_of_ne here] at found
      rw [Function.update_of_ne here]
      exact issued.pending other operation found
  · intro other positive
    rw [applied] at positive
    obtain ⟨command, listed, numbered, adopted⟩ := issued.applied other positive
    rw [commands, applied, active]
    refine ⟨command, ?_, numbered, adopted⟩
    by_cases here : other = group
    · subst here
      rw [Function.update_self]
      exact List.mem_cons_of_mem _ listed
    · rwa [Function.update_of_ne here]

theorem Move.issued (issued : Issued s) (move : Move dep profiles readings s t) : Issued t := by
  cases move with
  | freeze capacity created floors => exact issued.congr rfl rfl rfl rfl
  | floor group member live idle unapplied active operations applied ceilings pool commands =>
    exact issued.floor unapplied active operations applied commands
  | ceiling group capacity frozen ceilings active operations applied pool commands =>
    exact issued.congr active operations applied commands
  | retire group operation member live pending replies active applied operations ceilings pool commands =>
    exact issued.retire pending active applied operations commands
  | publish group capacity active target member frozen idle initialized publishable operations commands kept applied =>
    rcases commands with sent | ⟨-, head⟩
    · exact issued.publish idle operations sent kept applied
    · have := issued.head_idle idle head
      have : s.appliedSequences group + 1 = s.appliedSequences group := this
      omega
  | other live active operations applied ceilings pool commands => exact issued.congr active operations applied commands

theorem Along.issued (along : Along dep profiles readings s t) (issued : Issued s) : Issued t := by
  induction along with
  | refl => exact issued
  | tail _ move ih => exact move.issued ih

theorem create_issued : Issued CapacityPolicy.create := by
  refine ⟨fun _ => trivial, fun _ => rfl, ?_, ?_⟩
  · rintro group operation ⟨⟩
  · intro group positive
    exact absurd positive (Nat.lt_irrefl 0)

end Issued

/-! ## Devices and free bytes -/

section Devices

variable (dep : Deployment)

/-- The device carries one of the group's ranks. -/
def Deployment.Uses (group : Group) (device : Nat) : Prop :=
  device ∈ dep.groupRanks group

/-- Two groups have ranks on one device. -/
def Deployment.Shares (group other : Group) : Prop :=
  ∃ device, dep.Uses group device ∧ dep.Uses other device

/-- What the partitions of a device leave of its capacity. -/
def freeOn (capacity : Nat → Int) (policy : CapacityPolicy) (device : Nat) : Int :=
  capacity device - ∑ index ∈ Finset.range dep.instanceCount, held dep policy index device

/-- What a grant lacks on a device. -/
def shortageOn (capacity : Nat → Int) (policy : CapacityPolicy) (borrower : Group) (active target : List Int)
    (device : Nat) : Int :=
  if device / dep.width borrower.1 = borrower.2 then
    max 0 (target.getD (device % dep.width borrower.1) 0 - active.getD (device % dep.width borrower.1) 0 -
      freeOn dep capacity policy device)
  else 0

variable {dep}
variable {capacity : Nat → Int} {s t : CapacityPolicy} {group borrower : Group} {device : Nat}

theorem uses_iff : dep.Uses group device ↔ ∃ rank < dep.width group.1, group.2 * dep.width group.1 + rank = device := by
  simp only [Deployment.Uses, Deployment.groupRanks, List.mem_map, List.mem_range]
  rfl

/-- The rank of a used device. -/
theorem Deployment.Uses.place (uses : dep.Uses group device) :
    0 < dep.width group.1 ∧ device / dep.width group.1 = group.2 ∧
      group.2 * dep.width group.1 + device % dep.width group.1 = device := by
  obtain ⟨rank, small, rfl⟩ := uses_iff.mp uses
  obtain ⟨quotient, remainder⟩ : (group.2 * dep.width group.1 + rank) / dep.width group.1 = group.2 ∧
      (group.2 * dep.width group.1 + rank) % dep.width group.1 = rank := rank_div_mod small
  rw [quotient, remainder]
  exact ⟨Nat.zero_lt_of_lt small, rfl, rfl⟩

theorem uses_of_div (positive : 0 < dep.width group.1) (here : device / dep.width group.1 = group.2) :
    dep.Uses group device := by
  refine uses_iff.mpr ⟨device % dep.width group.1, Nat.mod_lt _ positive, ?_⟩
  rw [← here, Nat.mul_comm]
  exact Nat.div_add_mod device _

theorem Deployment.Uses.small (uses : dep.Uses group device) (member : group ∈ dep.capacityGroups) :
    device < dep.atnWorldSize := by
  obtain ⟨rank, small, rfl⟩ := uses_iff.mp uses
  exact rank_lt_world member small

/-- What a partition holds depends on its group only. -/
theorem held_congr {index : Nat}
    (active : t.activeQuotas (index, device / dep.width index) = s.activeQuotas (index, device / dep.width index))
    (operations : t.operations (index, device / dep.width index) = s.operations (index, device / dep.width index)) :
    held dep t index device = held dep s index device := by
  simp only [held, CapacityPolicy.pendingQuota, active, operations]

/-- The free bytes grow when no partition of the device holds more. -/
theorem freeOn_mono (less : ∀ index < dep.instanceCount, held dep t index device ≤ held dep s index device) :
    freeOn dep capacity s device ≤ freeOn dep capacity t device := by
  have sums := Finset.sum_le_sum fun index member => less index (Finset.mem_range.mp member)
  unfold freeOn
  omega

theorem freeOn_congr (active : t.activeQuotas = s.activeQuotas) (operations : t.operations = s.operations) :
    freeOn dep capacity t device = freeOn dep capacity s device := by
  simp only [freeOn, held, CapacityPolicy.pendingQuota, active, operations]

theorem shortageOn_nonneg {active target : List Int} : 0 ≤ shortageOn dep capacity s borrower active target device := by
  unfold shortageOn
  split
  · exact le_max_left 0 _
  · exact le_refl 0

/-- The entry of a short device in the dictionary of shortages. -/
theorem lookup_shortages (ranks : List Nat) (base : Nat) (growth : Nat → Int) (free : Nat → Int) (device : Nat) :
    ((((ranks.map fun rank => (base + rank, growth rank)).filter fun entry => decide (free entry.1 < entry.2)).map
      fun entry => (entry.1, entry.2 - free entry.1)).lookup device).getD 0 =
      if base ≤ device ∧ device - base ∈ ranks then max 0 (growth (device - base) - free device) else 0 := by
  induction ranks with
  | nil => simp
  | cons rank rest ih =>
    rw [List.map_cons, List.filter_cons]
    by_cases here : device = base + rank
    · subst here
      have found : base ≤ base + rank ∧ base + rank - base ∈ rank :: rest := ⟨by omega, by simp⟩
      rw [if_pos found]
      have back : base + rank - base = rank := by omega
      rw [back] at ih ⊢
      by_cases short : free (base + rank) < growth rank
      · rw [if_pos (decide_eq_true short), List.map_cons, List.lookup_cons, beq_self_eq_true]
        show growth rank - free (base + rank) = _
        omega
      · rw [if_neg (by simpa using short), ih]
        split
        · rfl
        · omega
    · have same : (base ≤ device ∧ device - base ∈ rank :: rest) ↔ (base ≤ device ∧ device - base ∈ rest) := by
        rw [List.mem_cons]
        constructor
        · rintro ⟨above, equal | later⟩
          · omega
          · exact ⟨above, later⟩
        · rintro ⟨above, later⟩
          exact ⟨above, Or.inr later⟩
      simp only [same]
      rw [← ih]
      split
      · rw [List.map_cons, List.lookup_cons]
        have apart : (device == base + rank) = false := by simpa using here
        rw [apart]
      · rfl

end Devices

/-! ## One advance of an attempt -/

/-- The policy with one more operation published. -/
def CapacityPolicy.issue (policy : CapacityPolicy) (group : Group) (quota : List Int) : CapacityPolicy := { policy with
  operations := Function.update policy.operations group (some ⟨policy.appliedSequences group + 1, quota⟩)
  commands := Function.update policy.commands group (⟨policy.appliedSequences group + 1, quota⟩ :: policy.commands group) }

/-- The attempt's original sequence, vector and deadline are the borrower's
current witness. -/
def Current (policy : CapacityPolicy) (attempt : FundingAttempt) : Prop :=
  policy.eligibleDemand attempt.borrower =
    .ok (some ⟨attempt.evaluatedSequence, some attempt.targetQuotaBytes, some attempt.deadlineMonotonicNs⟩)

section Advance

variable (dep : Deployment) (profiles : Nat → Nat → PartitionProfile) (capacity : Nat → Int)

/-- The free bytes hold the attempt's grant. -/
def Fits (policy : CapacityPolicy) (attempt : FundingAttempt) (active : List Int) : Prop :=
  ∀ rank < dep.width attempt.borrower.1, attempt.targetQuotaBytes.getD rank 0 - active.getD rank 0 ≤
    freeOn dep capacity policy (attempt.borrower.2 * dep.width attempt.borrower.1 + rank)

/-- What a donor is left with: on each short device, no less than its floor. -/
def donorQuota (policy : CapacityPolicy) (attempt : FundingAttempt) (active : List Int) (donor : Group)
    (donorActive : List Int) : List Int :=
  (List.range (dep.width donor.1)).map fun rank =>
    max (floorOf profiles donor.1 (donor.2 * dep.width donor.1 + rank))
      (donorActive.getD rank 0 - shortageOn dep capacity policy attempt.borrower active attempt.targetQuotaBytes
        (donor.2 * dep.width donor.1 + rank))

/-- What `advance_attempt` does when it returns. -/
inductive Advance (policy : CapacityPolicy) (attempt : FundingAttempt) : Bool → CapacityPolicy → Prop where
  | waits (donor : Group) : attempt.donor = some donor → Advance policy attempt false policy
  | lapsed : attempt.donor = none → ¬ Current policy attempt →
      Advance policy attempt false { policy with fundingAttempt := none }
  | granted (active : List Int) : attempt.donor = none → Current policy attempt →
      policy.activeQuotas attempt.borrower = some active → Fits dep capacity policy attempt active →
      Advance policy attempt true { policy.issue attempt.borrower attempt.targetQuotaBytes with fundingAttempt := none }
  | starved (active : List Int) : attempt.donor = none → Current policy attempt →
      policy.activeQuotas attempt.borrower = some active → ¬ Fits dep capacity policy attempt active →
      (∀ donor donorActive, Donor dep policy attempt donor donorActive →
        donorQuota dep profiles capacity policy attempt active donor donorActive = donorActive) →
      Advance policy attempt false { policy with fundingAttempt := none }
  | donated (active : List Int) (donor : Group) (donorActive : List Int) : attempt.donor = none → Current policy attempt →
      policy.activeQuotas attempt.borrower = some active → ¬ Fits dep capacity policy attempt active →
      Donor dep policy attempt donor donorActive →
      donorQuota dep profiles capacity policy attempt active donor donorActive ≠ donorActive →
      Advance policy attempt true
        { policy.issue donor (donorQuota dep profiles capacity policy attempt active donor donorActive) with
          fundingAttempt := some { attempt with donor := some donor } }

variable {dep profiles capacity}
variable {book : RegistrationBook} {readings : Readings} {s : CapacityPolicy} {group : Group} {attempt : FundingAttempt}

/-- Publishing for an idle group issues the next command; a raise leaves the
policy. -/
theorem publishOperation_issue (issued : Issued s) (quota : List Int) :
    wp (CapacityPolicy.publishOperation dep readings group quota)
      (fun _ t => t = s.issue group quota ∧ s.operations group = none ∧ s.activeQuotas group ≠ none) (fun t => t = s) s := by
  unfold CapacityPolicy.publishOperation
  simp only [wp_bind, wp_get]
  split
  · rfl
  rename_i ready
  have idle : s.operations group = none := not_not.mp fun busy => ready (Or.inr busy)
  have initialized : s.activeQuotas group ≠ none := fun absent => ready (Or.inl absent)
  simp only [wp_bind]
  refine wp_query_of ?_ rfl
  intro command constructed
  obtain rfl := construct_eq_ok constructed
  refine wp_mono (publishCommand_wp group _) ?_ (fun _ h => h)
  rintro _ t (rfl | ⟨rfl, head⟩)
  · exact ⟨rfl, idle, initialized⟩
  · have again : t.appliedSequences group + 1 = t.appliedSequences group := issued.head_idle idle head
    omega

theorem attemptIsCurrent_eq_ok {answer : Bool} (returned : s.attemptIsCurrent attempt = .ok answer) :
    answer = true ↔ Current s attempt := by
  obtain ⟨demand, found, rfl⟩ := map_eq_ok.mp returned
  unfold Current
  rw [found]
  cases demand with
  | none => simp
  | some demand =>
    obtain ⟨evaluated, required, deadline⟩ := demand
    simp

theorem growth_all_iff (retains : Retains profiles book) (frozen : s.poolCapacityBytes = some capacity)
    (member : attempt.borrower ∈ dep.capacityGroups) {free : Nat → Int} (counted : s.poolFreeBytes dep book = .ok free)
    {active : List Int} {growth : List (Nat × Int)}
    (grown : CapacityPolicy.growthBytes dep book attempt.borrower active attempt.targetQuotaBytes = .ok growth) :
    (growth.all fun entry => entry.2 ≤ free entry.1) = true ↔ Fits dep capacity s attempt active := by
  obtain rfl := growthBytes_eq_ok retains grown
  simp only [List.all_map, List.all_eq_true, List.mem_range, Function.comp, decide_eq_true_eq]
  refine forall₂_congr fun rank small => ?_
  rw [poolFreeBytes_eq_ok retains frozen counted (rank_lt_world member small)]
  rfl

/-- The dictionary of shortages holds what the grant lacks on each device. -/
theorem shortages_lookup (retains : Retains profiles book) (frozen : s.poolCapacityBytes = some capacity)
    (member : attempt.borrower ∈ dep.capacityGroups) {free : Nat → Int} (counted : s.poolFreeBytes dep book = .ok free)
    {active : List Int} {growth : List (Nat × Int)}
    (grown : CapacityPolicy.growthBytes dep book attempt.borrower active attempt.targetQuotaBytes = .ok growth)
    (positive : 0 < dep.width attempt.borrower.1) (device : Nat) :
    ((((growth.filter fun entry => decide (free entry.1 < entry.2)).map fun entry => (entry.1, entry.2 - free entry.1)).lookup
      device).getD 0) = shortageOn dep capacity s attempt.borrower active attempt.targetQuotaBytes device := by
  obtain rfl := growthBytes_eq_ok retains grown
  rw [lookup_shortages]
  unfold shortageOn
  by_cases here : device / dep.width attempt.borrower.1 = attempt.borrower.2
  · obtain ⟨-, -, place⟩ := (uses_of_div positive here).place
    have small := (uses_of_div positive here).small member
    have offset : device - attempt.borrower.2 * dep.width attempt.borrower.1 = device % dep.width attempt.borrower.1 := by
      omega
    rw [if_pos here, offset, if_pos, poolFreeBytes_eq_ok retains frozen counted small]
    · rfl
    · exact ⟨by omega, List.mem_range.mpr (Nat.mod_lt _ positive)⟩
  · rw [if_neg here, if_neg]
    rintro ⟨above, listed⟩
    have uses : dep.Uses attempt.borrower device := by
      refine uses_iff.mpr ⟨_, List.mem_range.mp listed, ?_⟩
      omega
    exact here uses.place.2.1

theorem donorTarget_eq_quota (retains : Retains profiles book) (frozen : s.poolCapacityBytes = some capacity)
    (member : attempt.borrower ∈ dep.capacityGroups) {free : Nat → Int} (counted : s.poolFreeBytes dep book = .ok free)
    {active : List Int} {growth : List (Nat × Int)}
    (grown : CapacityPolicy.growthBytes dep book attempt.borrower active attempt.targetQuotaBytes = .ok growth)
    (positive : 0 < dep.width attempt.borrower.1) {donor : Group} {donorActive target : List Int}
    (shrunk : CapacityPolicy.donorTarget dep book ((growth.filter fun entry => decide (free entry.1 < entry.2)).map
      fun entry => (entry.1, entry.2 - free entry.1)) donor donorActive = .ok target) :
    target = donorQuota dep profiles capacity s attempt active donor donorActive := by
  obtain rfl := donorTarget_eq_ok retains shrunk
  unfold donorQuota
  refine List.map_congr_left fun rank _ => ?_
  rw [shortages_lookup retains frozen member counted grown positive]

/-- A current attempt's borrower has ranks: its target differs from its limits. -/
theorem Current.member (current : Current s attempt) (accounted : Accounted dep profiles capacity s) :
    attempt.borrower ∈ dep.capacityGroups ∧ 0 < dep.width attempt.borrower.1 := by
  obtain ⟨active, required, ceiling, borrower⟩ := eligibleDemand_eq_ok current
  have member := accounted.known attempt.borrower (by simp [borrower.initialized])
  have width := (accounted.active attempt.borrower member active borrower.initialized).width
  refine ⟨member, Nat.pos_of_ne_zero fun zero => borrower.changed ?_⟩
  rw [List.eq_nil_of_length_eq_zero (width.trans zero),
    List.eq_nil_of_length_eq_zero (borrower.activeWidth.symm.trans (width.trans zero))]

theorem advanceAttempt_spec (retains : Retains profiles book) (frozen : s.poolCapacityBytes = some capacity)
    (accounted : Accounted dep profiles capacity s) (issued : Issued s) (attempt : FundingAttempt) :
    wp (CapacityPolicy.advanceAttempt dep book readings attempt)
      (fun advanced t => Advance dep profiles capacity s attempt advanced t) (fun t => t = s) s := by
  unfold CapacityPolicy.advanceAttempt
  split
  · rename_i waiting
    obtain ⟨donor, named⟩ := Option.isSome_iff_exists.mp waiting
    exact .waits donor named
  rename_i free
  have idle : attempt.donor = none := by simpa using free
  simp only [wp_bind]
  refine wp_query_of ?_ rfl
  intro current answer
  have means := attemptIsCurrent_eq_ok answer
  split
  · rename_i stale
    exact .lapsed idle fun holds => stale (means.mpr holds)
  rename_i fresh
  have now : Current s attempt := means.mp (not_not.mp fresh)
  obtain ⟨member, positive⟩ := now.member accounted
  simp only [wp_bind]
  refine wp_query_of ?_ rfl
  intro free counted
  simp only [wp_get]
  split
  · rfl
  rename_i active initialized
  simp only [wp_bind]
  refine wp_query_of ?_ rfl
  intro growth grown
  have fits := growth_all_iff retains frozen member counted grown
  split
  · rename_i all
    simp only [wp_bind, wp_modify, wp_pure]
    refine wp_mono (publishOperation_issue issued _) ?_ (fun _ h => h)
    rintro _ t ⟨rfl, -, -⟩
    exact .granted active idle now initialized (fits.mp all)
  · rename_i notAll
    have short : ¬ Fits dep capacity s attempt active := fun holds => notAll (fits.mpr holds)
    simp only [wp_bind]
    refine wp_query_of ?_ rfl
    intro selected answered
    split
    · refine .starved active idle now initialized short fun donor donorActive able => ?_
      exact (donorTarget_eq_quota retains frozen member counted grown positive (selectDonor_eq_none answered able)).symm
    · rename_i donor target
      obtain ⟨donorActive, able, changed, shrunk⟩ := selectDonor_eq_ok answered
      obtain rfl := donorTarget_eq_quota retains frozen member counted grown positive shrunk
      simp only [wp_bind, wp_modify, wp_pure]
      refine wp_mono (publishOperation_issue issued _) ?_ (fun _ h => h)
      rintro _ t ⟨rfl, -, -⟩
      exact .donated active donor donorActive idle now initialized short able changed

end Advance

/-! ## Retirement and demands -/

/-- `u` is `s` after some groups' operations were retired. -/
structure Retired (dep : Deployment) (readings : Readings) (s : CapacityPolicy) (groups : List Group) (u : CapacityPolicy) :
    Prop where
  done : ∀ group ∈ groups, ∃ operation, s.operations group = some operation ∧ u.operations group = none ∧
    u.activeQuotas group = some operation.quotaBytes ∧ u.appliedSequences group = operation.sequence
  replied : ∀ group ∈ groups, ∀ slot ∈ dep.groupPartitions group,
    (readings.completions slot).map (·.sequence) = some (u.appliedSequences group)
  kept : ∀ group, group ∉ groups → u.operations group = s.operations group ∧
    u.activeQuotas group = s.activeQuotas group ∧ u.appliedSequences group = s.appliedSequences group
  demands : u.demands = s.demands
  ceilings : u.serviceCeilings = s.serviceCeilings
  capacity : u.poolCapacityBytes = s.poolCapacityBytes
  commands : u.commands = s.commands
  attempt : u.fundingAttempt = s.fundingAttempt

/-- The donor slot after some groups were retired. -/
def FundingAttempt.note (attempt : FundingAttempt) (groups : List Group) : FundingAttempt :=
  match attempt.donor with
  | some donor =>
    if groups.contains donor then { attempt with donor := none, attemptedDonors := donor :: attempt.attemptedDonors }
    else attempt
  | none => attempt

/-- `u` is `s` after coherent demands were taken over. -/
structure Consumed (readings : Readings) (s u : CapacityPolicy) : Prop where
  same : u = { s with demands := u.demands }
  demands : ∀ group, u.demands group = s.demands group ∨ ∃ demand, readings.demands group = some demand ∧
    u.demands group = some demand ∧ demand.evaluatedSequence ≤ s.lastIssuedSequence group

section Phases

variable {dep : Deployment} {book : RegistrationBook} {readings : Readings} {s t u : CapacityPolicy}

theorem Retired.refl (s : CapacityPolicy) : Retired dep readings s [] s :=
  ⟨by simp, by simp, fun _ _ => ⟨rfl, rfl, rfl⟩, rfl, rfl, rfl, rfl, rfl⟩

theorem retireOperation_spec (group : Group) {groups : List Group} (before : Retired dep readings s groups t) :
    wp (CapacityPolicy.retireOperation dep book readings group)
      (fun accepted u => Retired dep readings s (cond accepted (group :: groups) groups) u) (fun u => u.commands = s.commands) t := by
  unfold CapacityPolicy.retireOperation
  simp only [wp_bind, wp_get]
  split
  · rename_i operation old pending initialized
    split
    · rename_i answered
      simp only [wp_bind]
      refine wp_query_of ?_ before.commands
      intro entries _
      split
      · simp only [wp_bind, wp_modify, wp_pure]
        -- A group already retired is idle, so this one is new.
        have fresh : group ∉ groups := by
          intro listed
          obtain ⟨_, -, idle, -⟩ := before.done group listed
          exact absurd (idle.symm.trans pending) (by simp)
        obtain ⟨operations, -, -⟩ := before.kept group fresh
        refine ⟨?_, ?_, ?_, before.demands, before.ceilings, before.capacity, before.commands, before.attempt⟩
        · intro other listed
          by_cases here : other = group
          · subst here
            refine ⟨operation, operations.symm.trans pending, ?_, ?_, ?_⟩ <;> exact Function.update_self ..
          · obtain ⟨done, was, idle, active, applied⟩ := before.done other (List.mem_of_ne_of_mem here listed)
            refine ⟨done, was, ?_, ?_, ?_⟩
            · exact (Function.update_of_ne here ..).trans idle
            · exact (Function.update_of_ne here ..).trans active
            · exact (Function.update_of_ne here ..).trans applied
        · intro other listed slot member
          by_cases here : other = group
          · subst here
            have reply := List.all_eq_true.mp answered _ (List.mem_map.mpr ⟨slot, member, rfl⟩)
            have applied : Function.update t.appliedSequences other operation.sequence other = operation.sequence :=
              Function.update_self ..
            exact (of_decide_eq_true reply).trans (congrArg some applied.symm)
          · have reply := before.replied other (List.mem_of_ne_of_mem here listed) slot member
            have applied : Function.update t.appliedSequences group operation.sequence other = t.appliedSequences other :=
              Function.update_of_ne here ..
            exact reply.trans (congrArg some applied.symm)
        · intro other unlisted
          obtain ⟨here, absent⟩ := not_or.mp (mt List.mem_cons.mpr unlisted)
          obtain ⟨operations, active, applied⟩ := before.kept other absent
          refine ⟨?_, ?_, ?_⟩
          · exact (Function.update_of_ne here ..).trans operations
          · exact (Function.update_of_ne here ..).trans active
          · exact (Function.update_of_ne here ..).trans applied
      · exact before.commands
    · exact before
  · exact before

theorem retireOperations_spec : wp (CapacityPolicy.retireOperations dep book readings)
    (fun groups u => Retired dep readings s groups u) (fun u => u.commands = s.commands) s := by
  refine wp_mono (wp_filterM_collect (fun groups u => Retired dep readings s groups u) ?_ (Retired.refl s)) ?_ (fun _ h => h)
  · intro group _ groups t before
    exact retireOperation_spec group before
  · intro found u after
    refine ⟨fun group listed => after.done group (by simpa using listed),
      fun group listed => after.replied group (by simpa using listed), fun group absent => after.kept group (by simpa using absent), after.demands, after.ceilings, after.capacity,
      after.commands, after.attempt⟩

theorem note_cons (attempt : FundingAttempt) (group : Group) (groups : List Group) :
    (if attempt.donor = some group then
      { attempt with donor := none, attemptedDonors := group :: attempt.attemptedDonors } else attempt).note groups =
      attempt.note (group :: groups) := by
  unfold FundingAttempt.note
  cases named : attempt.donor with
  | none => simp [named]
  | some donor =>
    by_cases here : donor = group
    · subst here
      simp
    · have apart : ¬ (some donor = some group) := fun same => here (Option.some.inj same)
      simp [apart, here, named]

theorem noteRetiredDonors_spec (groups : List Group) {raised : CapacityPolicy → Prop} :
    wp (groups.forM CapacityPolicy.noteRetiredDonor)
      (fun _ u => u = { s with fundingAttempt := s.fundingAttempt.map (·.note groups) }) raised s := by
  induction groups generalizing s with
  | nil =>
    have kept : s.fundingAttempt.map (·.note []) = s.fundingAttempt := by
      cases s.fundingAttempt with
      | none => rfl
      | some attempt =>
        simp only [Option.map_some, FundingAttempt.note]
        cases attempt.donor <;> simp
    show s = { s with fundingAttempt := s.fundingAttempt.map (·.note []) }
    rw [kept]
  | cons group rest ih =>
    show wp (CapacityPolicy.noteRetiredDonor group >>= fun _ => rest.forM CapacityPolicy.noteRetiredDonor) _ _ s
    rw [wp_bind]
    unfold CapacityPolicy.noteRetiredDonor
    rw [wp_modify]
    refine wp_mono ih ?_ (fun _ h => h)
    rintro _ u rfl
    congr 1
    cases s.fundingAttempt with
    | none => rfl
    | some attempt => exact congrArg some (note_cons attempt group rest)

theorem consumeDemand_spec (group : Group) (before : Consumed readings s t) :
    wp (CapacityPolicy.consumeDemand readings group) (fun _ u => Consumed readings s u) (fun u => u.commands = s.commands) t := by
  have commands : t.commands = s.commands := by rw [before.same]
  have issued : t.lastIssuedSequence group = s.lastIssuedSequence group := by
    rw [before.same]
    rfl
  unfold CapacityPolicy.consumeDemand
  split
  · exact before
  rename_i demand read
  simp only [wp_bind, wp_get]
  split
  · exact commands
  rename_i unpublished
  have bound : demand.evaluatedSequence ≤ s.lastIssuedSequence group := issued ▸ not_lt.mp unpublished
  have stored : Consumed readings s { t with demands := Function.update t.demands group (some demand) } := by
    refine ⟨by rw [before.same], fun other => ?_⟩
    by_cases here : other = group
    · subst here
      exact Or.inr ⟨demand, read, Function.update_self .., bound⟩
    · have kept : Function.update t.demands group (some demand) other = t.demands other := Function.update_of_ne here ..
      simpa only [kept] using before.demands other
  split
  · split
    · exact commands
    split
    · exact commands
    · exact stored
  · exact stored

theorem consumeDemands_spec :
    wp (CapacityPolicy.consumeDemands dep readings) (fun _ u => Consumed readings s u) (fun u => u.commands = s.commands) s := by
  refine wp_forM (Consumed readings s) ?_ ⟨rfl, fun _ => Or.inl rfl⟩
  intro group _ t before
  exact consumeDemand_spec group before

end Phases

/-! ## The funding part of a step -/

section Outcome

variable (dep : Deployment) (profiles : Nat → Nat → PartitionProfile) (capacity : Nat → Int)

/-- An attempt that is closed without a grant: its witness changed, or no group is
left to shrink. -/
inductive Quits (policy : CapacityPolicy) (attempt : FundingAttempt) : Prop where
  | lapsed : attempt.donor = none → ¬ Current policy attempt → Quits policy attempt
  | starved (active : List Int) : attempt.donor = none → Current policy attempt →
      policy.activeQuotas attempt.borrower = some active → ¬ Fits dep capacity policy attempt active →
      (∀ donor donorActive, Donor dep policy attempt donor donorActive →
        donorQuota dep profiles capacity policy attempt active donor donorActive = donorActive) → Quits policy attempt

/-- The attempt a step advances: the open one, or a new one for an eligible
borrower after the open one was closed. -/
inductive Tried (policy : CapacityPolicy) (attempt : FundingAttempt) : Prop where
  | noted : policy.fundingAttempt = some attempt → Tried policy attempt
  | fresh : (∀ old, policy.fundingAttempt = some old → Quits dep profiles capacity policy old) →
      attempt.attemptedDonors = [] → Tried policy attempt

/-- What the funding part of a returning step does. -/
inductive Outcome (policy : CapacityPolicy) : CapacityPolicy → Prop where
  | waits (attempt : FundingAttempt) (donor : Group) : policy.fundingAttempt = some attempt → attempt.donor = some donor →
      Outcome policy policy
  | unrelated (attempt : FundingAttempt) (donor group : Group) (demand : QuotaDemand) (quota : List Int) :
      policy.fundingAttempt = some attempt → attempt.donor = some donor → ¬ dep.Shares group attempt.borrower →
      policy.eligibleDemand group = .ok (some demand) → demand.requiredBytes = some quota →
      Outcome policy (policy.issue group quota)
  | advanced (attempt : FundingAttempt) {next : CapacityPolicy} : Tried dep profiles capacity policy attempt →
      Advance dep profiles capacity policy attempt true next → Outcome policy next
  | quits : (∀ attempt, policy.fundingAttempt = some attempt → Quits dep profiles capacity policy attempt) →
      Outcome policy { policy with fundingAttempt := none }

variable {dep profiles capacity}
variable {book : RegistrationBook} {readings : Readings} {s t : CapacityPolicy} {attempt : FundingAttempt} {advanced : Bool}

theorem Donor.congr {donor : Group} {active : List Int} (able : Donor dep t attempt donor active)
    (quotas : t.activeQuotas = s.activeQuotas) (operations : t.operations = s.operations) (demands : t.demands = s.demands)
    (applied : t.appliedSequences = s.appliedSequences) : Donor dep s attempt donor active :=
  ⟨able.member, able.apart, able.untried, quotas ▸ able.initialized, operations ▸ able.idle, by
    simpa only [demands, applied] using able.current⟩

/-- An advance does not read which attempt is noted as open. -/
theorem Advance.of_noted {noted : Option FundingAttempt} (idle : attempt.donor = none)
    (advance : Advance dep profiles capacity { s with fundingAttempt := noted } attempt advanced t) :
    Advance dep profiles capacity s attempt advanced t := by
  cases advance with
  | waits donor named => exact absurd (idle.symm.trans named) (by simp)
  | lapsed idle stale => exact .lapsed idle stale
  | granted active idle current initialized fits => exact .granted active idle current initialized fits
  | starved active idle current initialized short unable =>
    refine .starved active idle current initialized short fun donor donorActive able => ?_
    exact unable donor donorActive (able.congr rfl rfl rfl rfl)
  | donated active donor donorActive idle current initialized short able changed =>
    exact .donated active donor donorActive idle current initialized short (able.congr rfl rfl rfl rfl) changed

/-- An attempt that does not advance is closed, unless it waits for its donor. -/
theorem Advance.quits (advance : Advance dep profiles capacity s attempt false t) (idle : attempt.donor = none) :
    t = { s with fundingAttempt := none } ∧ Quits dep profiles capacity s attempt := by
  cases advance with
  | waits donor named => exact absurd (idle.symm.trans named) (by simp)
  | lapsed idle stale => exact ⟨rfl, .lapsed idle stale⟩
  | starved active idle current initialized short unable =>
    exact ⟨rfl, .starved active idle current initialized short unable⟩

theorem Quits.free (quits : Quits dep profiles capacity s attempt) : attempt.donor = none := by
  cases quits with
  | lapsed free => exact free
  | starved _ free => exact free

theorem fundUnrelated_spec (capacity : Nat → Int) (retains : Retains profiles book) (issued : Issued s) {donor : Group}
    (opened : s.fundingAttempt = some attempt) (named : attempt.donor = some donor) :
    wp (CapacityPolicy.fundUnrelated dep book readings attempt donor) (fun _ t => Outcome dep profiles capacity s t)
      (fun t => t = s) s := by
  have waits : Outcome dep profiles capacity s s := .waits attempt donor opened named
  unfold CapacityPolicy.fundUnrelated
  simp only [wp_bind]
  refine wp_query_of ?_ rfl
  intro reserved reservedAnswer
  refine wp_query_of ?_ rfl
  intro free _
  refine wp_query_of ?_ rfl
  intro borrowers _
  refine wp_mono (wp_anyM (· = s) (Outcome dep profiles capacity s) ?_ rfl) ?_ (fun _ h => h)
  · intro group _ t same
    obtain rfl : s = t := same.symm
    simp only [wp_bind]
    refine wp_query_of ?_ rfl
    intro devices listed
    split
    · simp
    rename_i apart
    simp only [wp_bind]
    refine wp_query_of ?_ rfl
    intro demand eligible
    simp only [wp_get]
    split
    · rename_i evaluated quota deadline active initialized
      simp only [wp_bind]
      refine wp_query_of ?_ rfl
      intro growth grown
      split
      · simp only [wp_bind, wp_pure]
        refine wp_mono (publishOperation_issue issued _) ?_ (fun _ h => h)
        rintro _ t ⟨rfl, -, -⟩
        refine .unrelated attempt donor group _ quota opened named ?_ eligible rfl
        rintro ⟨device, used, borrowed⟩
        -- The reserved devices include the borrower's.
        refine apart (List.any_eq_true.mpr ⟨device, ?_, decide_eq_true ?_⟩)
        · obtain ⟨found, profiled, rfl⟩ := map_eq_ok.mp listed
          rw [groupProfiles_eq_ok retains profiled, List.map_map]
          exact used
        · simp only [bind_eq_ok] at reservedAnswer
          obtain ⟨found, profiled, others, -, last⟩ := reservedAnswer
          obtain rfl := Except.ok.inj last
          refine List.mem_append_left _ ?_
          rw [groupProfiles_eq_ok retains profiled, List.map_map]
          exact borrowed
      · simp
    · simp
  · intro found t after
    cases found with
    | true => exact after
    | false =>
      obtain rfl : t = s := after
      exact waits

theorem fundNext_spec (retains : Retains profiles book) (frozen : s.poolCapacityBytes = some capacity)
    (accounted : Accounted dep profiles capacity s) (issued : Issued s)
    (closed : ∀ old, s.fundingAttempt = some old → Quits dep profiles capacity s old) {noted : CapacityPolicy}
    (quit : noted = { s with fundingAttempt := none }) :
    wp (CapacityPolicy.fundNext dep book readings) (fun _ t => Outcome dep profiles capacity s t)
      (fun t => t.commands = s.commands) noted := by
  have commands : noted.commands = s.commands := by rw [quit]
  unfold CapacityPolicy.fundNext
  simp only [wp_bind]
  refine wp_query_of ?_ commands
  intro borrowers _
  refine wp_mono (wp_anyM (· = noted) (Outcome dep profiles capacity s) ?_ rfl) ?_ (fun _ h => h)
  · intro group _ t same
    obtain rfl : noted = t := same.symm
    simp only [wp_bind]
    refine wp_query_of ?_ commands
    intro demand eligible
    split
    · rename_i evaluated target deadline
      simp only [wp_bind, wp_modify]
      have frozenThere : noted.poolCapacityBytes = some capacity := by rw [quit]; exact frozen
      have accountedThere : Accounted dep profiles capacity noted := by rw [quit]; exact accounted.congr rfl rfl rfl rfl
      have issuedThere : Issued noted := by rw [quit]; exact issued.congr rfl rfl rfl rfl
      refine wp_mono (advanceAttempt_spec (s := { noted with fundingAttempt := some ⟨group, evaluated, target, deadline, [], none⟩ })
        retains frozenThere (accountedThere.congr rfl rfl rfl rfl) (issuedThere.congr rfl rfl rfl rfl)
        ⟨group, evaluated, target, deadline, [], none⟩) ?_ ?_
      · intro advanced u advance
        subst quit
        have advance' : Advance dep profiles capacity s ⟨group, evaluated, target, deadline, [], none⟩ advanced u :=
          advance.of_noted rfl
        cases advanced with
        | true => exact .advanced _ (.fresh closed rfl) advance'
        | false => exact (advance'.quits rfl).1
      · rintro u rfl
        exact commands
    · simp
  · intro found t after
    cases found with
    | true => exact after
    | false =>
      obtain rfl : t = noted := after
      rw [quit]
      exact .quits closed

/-- The part of a step before the funding: some operations are retired, the donor
slot is released and demands are taken over. -/
structure Settled (dep : Deployment) (readings : Readings) (s : CapacityPolicy) (groups : List Group) (u : CapacityPolicy) : Prop where
  phases : ∃ v, Retired dep readings s groups v ∧
    Consumed readings { v with fundingAttempt := s.fundingAttempt.map (·.note groups) } u

/-- The state in which a step funds: the budgets are frozen and every group has
started. -/
structure Serving (dep : Deployment) (profiles : Nat → Nat → PartitionProfile) (capacity : Nat → Int) (policy : CapacityPolicy) :
    Prop where
  frozen : policy.poolCapacityBytes = some capacity
  accounted : Accounted dep profiles capacity policy
  issued : Issued policy
  started : ¬ Starting dep policy

/-- What a returning step with frozen budgets does. -/
inductive Progress (dep : Deployment) (profiles : Nat → Nat → PartitionProfile) (capacity : Nat → Int) (readings : Readings)
    (s : CapacityPolicy) : CapacityPolicy → Prop where
  | waits (groups : List Group) {u : CapacityPolicy} : Retired dep readings s groups u → Starting dep u →
      Progress dep profiles capacity readings s { u with fundingAttempt := s.fundingAttempt.map (·.note groups) }
  | starts (groups : List Group) {u : CapacityPolicy} (group : Group) (quota : List Int) : Retired dep readings s groups u →
      Starting dep u → u.appliedSequences group = 0 → Progress dep profiles capacity readings s
        { u.issue group quota with fundingAttempt := s.fundingAttempt.map (·.note groups) }
  | funds (groups : List Group) {u t : CapacityPolicy} : Settled dep readings s groups u → Serving dep profiles capacity u →
      Outcome dep profiles capacity u t → Progress dep profiles capacity readings s t

theorem progress_spec (retains : Retains profiles book) (frozen : s.poolCapacityBytes = some capacity)
    (inv : PolicyInvariant dep profiles s) (issued : Issued s) :
    wp (CapacityPolicy.progress dep book readings) (fun _ t => Progress dep profiles capacity readings s t)
      (fun t => t.commands = s.commands) s := by
  have live : Live dep profiles s := ⟨inv, by simp [frozen]⟩
  unfold CapacityPolicy.progress
  simp only [wp_bind]
  have retires : Moves dep profiles readings (CapacityPolicy.retireOperations dep book readings) s := by
    refine wp_filterM (Along dep profiles readings s) ?_ Along.refl
    intro group member t along
    exact (retireOperation_moves (along.live live) member).after along
  refine wp_mono (wp_and retireOperations_spec retires) ?_ (fun _ h => h.1)
  rintro groups v ⟨retired, along⟩
  refine wp_mono (noteRetiredDonors_spec groups) ?_ (fun _ h => h)
  rintro _ w noted
  rw [retired.attempt] at noted
  have alongNoted : Along dep profiles readings s w := noted ▸ along.other (along.live live).frozen _
  have liveThere := alongNoted.live live
  have commands : w.commands = s.commands := by rw [noted]; exact retired.commands
  simp only [wp_get]
  split
  · rename_i some
    obtain ⟨group, member, zero⟩ := List.any_eq_true.mp some
    have starting : Starting dep v := ⟨group, member, by rw [noted] at zero; exact of_decide_eq_true zero⟩
    simp only [wp_bind]
    unfold CapacityPolicy.publishNextInitialOperation
    simp only [wp_bind, wp_get]
    have quiet : Progress dep profiles capacity readings s w := noted ▸ .waits groups retired starting
    split
    · exact quiet
    split
    · rename_i group found
      have unapplied : v.appliedSequences group = 0 := by
        have zero : w.appliedSequences group = 0 := by simpa using List.find?_some found
        rwa [noted] at zero
      simp only [wp_bind]
      refine wp_query_of ?_ commands
      intro target _
      refine wp_mono (publishOperation_issue (alongNoted.issued issued) target) ?_ ?_
      · rintro _ t ⟨rfl, -, -⟩
        rw [noted]
        exact .starts groups _ target retired starting unapplied
      · rintro t rfl
        exact commands
    · exact quiet
  rename_i startedAll
  have started : ¬ Starting dep w := by
    rintro ⟨group, member, zero⟩
    exact startedAll (List.any_eq_true.mpr ⟨group, member, decide_eq_true zero⟩)
  simp only [wp_bind]
  have consumes : Moves dep profiles readings (CapacityPolicy.consumeDemands dep readings) w := by
    refine wp_forM (Along dep profiles readings w) ?_ Along.refl
    intro group _ t next
    exact (consumeDemand_moves (next.live liveThere) group).after next
  refine wp_mono (wp_and consumeDemands_spec consumes) ?_ (fun _ h => h.1.trans commands)
  rintro _ u ⟨consumed, next⟩
  have reached := alongNoted.trans next
  have frozenHere : u.poolCapacityBytes = some capacity := (reached.capacity live.frozen).trans frozen
  have accounted := (reached.invariant inv).frozen capacity frozenHere
  have issuedHere := reached.issued issued
  have startedHere := next.started liveThere started
  have settled : Settled dep readings s groups u := ⟨v, retired, noted ▸ consumed⟩
  have serving : Serving dep profiles capacity u := ⟨frozenHere, accounted, issuedHere, startedHere⟩
  have commandsHere : u.commands = s.commands := by rw [consumed.same]; exact commands
  simp only [wp_get]
  split
  · rename_i closed
    refine wp_mono (fundNext_spec retains frozenHere accounted issuedHere ?_ ?_) ?_ (fun _ h => h.trans commandsHere)
    · intro old opened
      exact absurd (closed.symm.trans opened) (by simp)
    · rw [← closed]
    · intro _ t outcome
      exact .funds groups settled serving outcome
  · rename_i attempt opened
    simp only [wp_bind]
    refine wp_mono (advanceAttempt_spec retains frozenHere accounted issuedHere attempt) ?_ ?_
    · intro advanced t advance
      cases advanced with
      | true => exact .funds groups settled serving (.advanced attempt (.noted opened) advance)
      | false =>
        cases named : attempt.donor with
        | some donor =>
          obtain rfl : t = u := by
            cases advance with
            | waits => rfl
            | lapsed idle => exact absurd (named.symm.trans idle) (by simp)
            | starved _ idle => exact absurd (named.symm.trans idle) (by simp)
          refine wp_mono (fundUnrelated_spec capacity retains issuedHere opened named) ?_ ?_
          · intro _ next outcome
            exact .funds groups settled serving outcome
          · rintro next rfl
            exact commandsHere
        | none =>
          obtain ⟨quit, closed⟩ := advance.quits named
          refine wp_mono (fundNext_spec retains frozenHere accounted issuedHere ?_ quit) ?_ (fun _ h => h.trans commandsHere)
          · intro old opened'
            obtain rfl := Option.some.inj (opened.symm.trans opened')
            exact closed
          · intro _ next outcome
            exact .funds groups settled serving outcome
    · rintro t rfl
      exact commandsHere

end Outcome

end CrossPool.Ecs
