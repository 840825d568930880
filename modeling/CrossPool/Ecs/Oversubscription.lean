import CrossPool.Ecs.Step

/-!
# No oversubscription end to end

The policy composed with the ranks of every group. A rank learns of a command at
any later moment, adopts its limit once its charge fits, and only then publishes
the completion; between these it maps and unmaps backing under the limit it has.
The daemon reads completions at any later moment too.

`Linked` ties a rank to its group's part of the policy: the rank's limit is the
active one until it adopts the pending operation, and is the pending one from
then until the operation is retired, which the policy does only after every rank
of the group has completed it. A rank's charge is therefore never more than the
permission the policy accounts for it.
-/

namespace CrossPool.Ecs

open CrossPool.Lib

/-! ## Ranks -/

/-- Native byte counts are unsigned 64-bit. -/
def ensureUint64 (value : Int) : Except String Unit :=
  if 0 ≤ value ∧ value < 2 ^ 64 then .ok () else .error "value is not an unsigned 64-bit integer"

/-- Shared permission ledger for all managed backings of one Instance rank. -/
structure MemoryQuota where
  limitBytes : Int
  chargedBytes : Int
  deriving DecidableEq, Repr

namespace MemoryQuota

/-- Charge physical growth, leaving the ledger unchanged on quota shortage. -/
def tryReserve (quota : MemoryQuota) (byteCount : Int) : Except String (Bool × MemoryQuota) := do
  ensureUint64 byteCount
  if quota.limitBytes - quota.chargedBytes < byteCount then return (false, quota)
  return (true, { quota with chargedBytes := quota.chargedBytes + byteCount })

/-- Refund confirmed physical releases; reject an excessive refund. -/
def release (quota : MemoryQuota) (byteCount : Int) : Except String MemoryQuota := do
  ensureUint64 byteCount
  if quota.chargedBytes < byteCount then throw "elastic context state quota release exceeds its retained charge"
  return { quota with chargedBytes := quota.chargedBytes - byteCount }

/-- Adopt a grant only after retained charges fit it. -/
def setLimit (quota : MemoryQuota) (limitBytes : Int) : Except String MemoryQuota := do
  ensureUint64 limitBytes
  if limitBytes < quota.chargedBytes then throw "elastic context state quota limit is below its retained charge"
  return { quota with limitBytes := limitBytes }

end MemoryQuota

/-- One rank's quota adoption: its ledger, the command it retains, the sequence it
completed, and the one it has adopted without having published that yet. -/
structure CapacityReconciler where
  quota : MemoryQuota
  command : Option QuotaCommand
  completedSequence : Nat
  adopted : Option Nat

/-- Retain the next immutable command without replacing unfinished retirement. -/
def CapacityReconciler.acceptCommand (rank : CapacityReconciler) (command : QuotaCommand) :
    Except String CapacityReconciler :=
  if command.sequence ≤ rank.completedSequence then .ok rank
  else
    match rank.command with
    | none => .ok { rank with command := some command }
    | some current =>
      if command.sequence < current.sequence then .ok rank
      else if command.sequence = current.sequence then
        if command.quotaBytes ≠ current.quotaBytes then
          .error "xpool elastic context state quota changed without advancing its sequence"
        else .ok rank
      else if rank.completedSequence < current.sequence then
        .error "xpool elastic context state command supersedes an unfinished operation"
      else .ok { rank with command := some command }

/-- The policy, every partition's rank, and the completions each has published. -/
structure EcsState where
  policy : CapacityPolicy
  ranks : Partition → CapacityReconciler
  completions : Partition → List QuotaCompletion

/-- One rank's state replaced. -/
def EcsState.setRank (s : EcsState) (slot : Partition) (rank : CapacityReconciler) : EcsState :=
  { s with ranks := Function.update s.ranks slot rank }

/-- What can happen next: a daemon step, or a step of one rank. -/
inductive EcsStep where
  | daemon (book : RegistrationBook) (readings : Readings)
  | accept (slot : Partition) (command : QuotaCommand)
  | adopt (slot : Partition)
  | complete (slot : Partition)
  | map (slot : Partition) (byteCount : Int)
  | unmap (slot : Partition) (byteCount : Int)

/-- The daemon reads no completion that was not published. -/
def Honest (readings : Readings) (completions : Partition → List QuotaCompletion) : Prop :=
  ∀ slot completion, readings.completions slot = some completion → completion ∈ completions slot

section System

variable (dep : Deployment) (profiles : Nat → Nat → PartitionProfile)

/-- The group a partition belongs to. -/
def Deployment.groupOf (slot : Partition) : Group :=
  (slot.1, slot.2 / dep.width slot.1)

/-- The limit a command gives a partition. -/
def Deployment.limitOf (slot : Partition) (quota : List Int) : Int :=
  quota.getD (slot.2 % dep.width slot.1) 0

/-- Steps of the composed system. A rank accepts any command its group was ever
sent, adopts the retained one when its charge fits, and completes it after. -/
inductive EcsState.Step : EcsState → EcsStep → EcsState → Prop where
  | daemon {s : EcsState} (book : RegistrationBook) (readings : Readings) : Retains profiles book →
      Honest readings s.completions →
      Step s (.daemon book readings) { s with policy := s.policy.after dep book readings }
  | accept {s : EcsState} (slot : Partition) (command : QuotaCommand) (rank : CapacityReconciler) :
      command ∈ s.policy.commands (dep.groupOf slot) → (s.ranks slot).acceptCommand command = .ok rank →
      Step s (.accept slot command) (s.setRank slot rank)
  | adopt {s : EcsState} (slot : Partition) (command : QuotaCommand) (quota : MemoryQuota) :
      (s.ranks slot).command = some command → (s.ranks slot).completedSequence < command.sequence →
      (s.ranks slot).adopted = none → (s.ranks slot).quota.setLimit (dep.limitOf slot command.quotaBytes) = .ok quota →
      Step s (.adopt slot) (s.setRank slot { s.ranks slot with quota := quota, adopted := some command.sequence })
  | complete {s : EcsState} (slot : Partition) (sequence : Nat) : (s.ranks slot).adopted = some sequence →
      Step s (.complete slot)
        { s.setRank slot { s.ranks slot with completedSequence := sequence, adopted := none } with
          completions := Function.update s.completions slot
            (⟨sequence, (s.ranks slot).quota.chargedBytes⟩ :: s.completions slot) }
  | map {s : EcsState} (slot : Partition) (byteCount : Int) (mapped : Bool) (quota : MemoryQuota) :
      (s.ranks slot).quota.tryReserve byteCount = .ok (mapped, quota) →
      Step s (.map slot byteCount) (s.setRank slot { s.ranks slot with quota := quota })
  | unmap {s : EcsState} (slot : Partition) (byteCount : Int) (quota : MemoryQuota) :
      (s.ranks slot).quota.release byteCount = .ok quota →
      Step s (.unmap slot byteCount) (s.setRank slot { s.ranks slot with quota := quota })

/-- A created policy and ranks that may map up to their floor. -/
def ecs : System EcsState EcsStep where
  init s := s.policy = CapacityPolicy.create ∧ (∀ slot, s.completions slot = []) ∧
    ∀ slot, s.ranks slot = ⟨⟨floorOf profiles slot.1 slot.2, 0⟩, none, 0, none⟩
  step := EcsState.Step dep profiles

end System

/-! ## Ranks and the policy -/

/-- A group's part of the policy. -/
structure GroupView where
  applied : Nat
  active : Option (List Int)
  operation : Option QuotaCommand
  commands : List QuotaCommand

/-- The part of the policy a group reads. -/
def CapacityPolicy.view (policy : CapacityPolicy) (group : Group) : GroupView :=
  ⟨policy.appliedSequences group, policy.activeQuotas group, policy.operations group, policy.commands group⟩

/-- Where a rank is with its group's operation, and which limit it has there. -/
inductive Adoption (limitOf : List Int → Int) (floor : Int) (view : GroupView) (rank : CapacityReconciler) : Prop where
  | settled : rank.adopted = none → rank.completedSequence = view.applied →
      (view.applied = 0 → rank.quota.limitBytes ≤ floor) →
      (∀ active, view.active = some active → rank.quota.limitBytes ≤ limitOf active) → Adoption limitOf floor view rank
  | adopted (operation : QuotaCommand) : view.operation = some operation → rank.adopted = some operation.sequence →
      rank.completedSequence = view.applied → rank.quota.limitBytes ≤ limitOf operation.quotaBytes →
      Adoption limitOf floor view rank
  | completed (operation : QuotaCommand) : view.operation = some operation → rank.adopted = none →
      rank.completedSequence = operation.sequence → rank.quota.limitBytes ≤ limitOf operation.quotaBytes →
      Adoption limitOf floor view rank

/-- A rank and its group's part of the policy agree. -/
structure Linked (limitOf : List Int → Int) (floor : Int) (view : GroupView) (rank : CapacityReconciler)
    (published : List QuotaCompletion) : Prop where
  charged : rank.quota.chargedBytes ≤ rank.quota.limitBytes
  numbered : ∀ operation, view.operation = some operation → operation.sequence = view.applied + 1
  uninitialized : view.active = none → view.applied = 0 ∧ view.operation = none
  history : ∀ command ∈ view.commands, command.sequence ≤ view.applied ∨ view.operation = some command
  retained : ∀ command, rank.command = some command → rank.completedSequence < command.sequence →
    view.operation = some command
  published : ∀ completion ∈ published, completion.sequence ≤ rank.completedSequence
  adoption : Adoption limitOf floor view rank

section Links

variable {limitOf : List Int → Int} {floor : Int} {view : GroupView} {rank : CapacityReconciler}
variable {published : List QuotaCompletion}

/-- A rank's completed sequence is the applied one or the pending one. -/
theorem Linked.applied_le (linked : Linked limitOf floor view rank published) : view.applied ≤ rank.completedSequence := by
  cases linked.adoption with
  | settled _ completed => omega
  | adopted operation _ _ completed => omega
  | completed operation pending _ completed =>
    have := linked.numbered operation pending
    omega

/-- The charge is at most the larger of the active and the pending limit. -/
theorem Linked.charge_le (linked : Linked limitOf floor view rank published) {active : List Int}
    (initialized : view.active = some active) :
    rank.quota.chargedBytes ≤ limitOf active ∨
      ∃ operation, view.operation = some operation ∧ rank.quota.chargedBytes ≤ limitOf operation.quotaBytes := by
  have charged := linked.charged
  cases linked.adoption with
  | settled _ _ _ bound => exact Or.inl (charged.trans (bound active initialized))
  | adopted operation pending _ _ bound => exact Or.inr ⟨operation, pending, charged.trans bound⟩
  | completed operation pending _ _ bound => exact Or.inr ⟨operation, pending, charged.trans bound⟩

/-- Without active limits the charge is at most the floor. -/
theorem Linked.charge_le_floor (linked : Linked limitOf floor view rank published) (uninitialized : view.active = none) :
    rank.quota.chargedBytes ≤ floor := by
  obtain ⟨unapplied, idle⟩ := linked.uninitialized uninitialized
  have charged := linked.charged
  cases linked.adoption with
  | settled _ _ bound => exact charged.trans (bound unapplied)
  | adopted operation pending => exact absurd (idle.symm.trans pending) (by simp)
  | completed operation pending => exact absurd (idle.symm.trans pending) (by simp)

/-! ### The policy moves -/

/-- Startup gives a group its floors. -/
theorem Linked.floored (linked : Linked limitOf floor view rank published) (idle : view.operation = none)
    (unapplied : view.applied = 0) {floors : List Int} (same : limitOf floors = floor) :
    Linked limitOf floor { view with active := some floors } rank published := by
  refine ⟨linked.charged, linked.numbered, ?_, linked.history, linked.retained, linked.published, ?_⟩
  · rintro ⟨⟩
  cases linked.adoption with
  | settled fresh completed bound _ =>
    refine .settled fresh completed bound ?_
    rintro _ ⟨⟩
    exact (bound unapplied).trans same.ge
  | adopted operation pending => exact absurd (idle.symm.trans pending) (by simp)
  | completed operation pending => exact absurd (idle.symm.trans pending) (by simp)

/-- Publishing an operation for an idle group changes no limit. -/
theorem Linked.publish (linked : Linked limitOf floor view rank published) (idle : view.operation = none)
    (initialized : view.active ≠ none) {target : List Int} {commands : List QuotaCommand}
    (sent : ∀ command ∈ commands, command ∈ view.commands ∨ command = ⟨view.applied + 1, target⟩) :
    Linked limitOf floor { view with operation := some ⟨view.applied + 1, target⟩, commands := commands } rank published := by
  refine ⟨linked.charged, ?_, fun absent => absurd absent initialized, ?_, ?_, linked.published, ?_⟩
  · rintro operation ⟨⟩
    rfl
  · intro command listed
    rcases sent command listed with old | rfl
    · refine (linked.history command old).imp id fun pending => ?_
      exact absurd (idle.symm.trans pending) (by simp)
    · exact Or.inr rfl
  · intro command held newer
    exact absurd (idle.symm.trans (linked.retained command held newer)) (by simp)
  · cases linked.adoption with
    | settled fresh completed bound limits => exact .settled fresh completed bound limits
    | adopted operation pending => exact absurd (idle.symm.trans pending) (by simp)
    | completed operation pending => exact absurd (idle.symm.trans pending) (by simp)

/-- An operation is retired after this rank has completed it. -/
theorem Linked.retire (linked : Linked limitOf floor view rank published) {operation : QuotaCommand}
    (pending : view.operation = some operation) {completion : QuotaCompletion} (reported : completion ∈ published)
    (same : completion.sequence = operation.sequence) :
    Linked limitOf floor { view with applied := operation.sequence, active := some operation.quotaBytes, operation := none }
      rank published := by
  have numbered := linked.numbered operation pending
  have reached := linked.published completion reported
  refine ⟨linked.charged, ?_, ?_, ?_, ?_, linked.published, ?_⟩
  · rintro other ⟨⟩
  · rintro ⟨⟩
  · intro command listed
    refine Or.inl ?_
    rcases linked.history command listed with old | now
    · show command.sequence ≤ operation.sequence
      omega
    · obtain rfl := Option.some.inj (pending.symm.trans now)
      exact le_refl _
  · intro command held newer
    obtain rfl := Option.some.inj (pending.symm.trans (linked.retained command held newer))
    omega
  · cases linked.adoption with
    | settled _ completed => omega
    | adopted _ _ _ completed => omega
    | completed other found fresh completed bound =>
      obtain rfl := Option.some.inj (pending.symm.trans found)
      refine .settled fresh completed ?_ ?_
      · intro zero
        have : operation.sequence = 0 := zero
        omega
      · rintro _ ⟨⟩
        exact bound

/-! ### The rank moves -/

theorem acceptCommand_eq_ok {command : QuotaCommand} {next : CapacityReconciler}
    (accepted : rank.acceptCommand command = .ok next) :
    next = rank ∨ next = { rank with command := some command } ∧ rank.completedSequence < command.sequence := by
  unfold CapacityReconciler.acceptCommand at accepted
  split at accepted
  · exact Or.inl (Except.ok.inj accepted).symm
  rename_i newer
  have later : rank.completedSequence < command.sequence := not_le.mp newer
  split at accepted
  · exact Or.inr ⟨(Except.ok.inj accepted).symm, later⟩
  split at accepted
  · exact Or.inl (Except.ok.inj accepted).symm
  split at accepted
  · split at accepted
    · cases accepted
    · exact Or.inl (Except.ok.inj accepted).symm
  split at accepted
  · cases accepted
  · exact Or.inr ⟨(Except.ok.inj accepted).symm, later⟩

theorem Linked.accept (linked : Linked limitOf floor view rank published) {command : QuotaCommand} {next : CapacityReconciler}
    (sent : command ∈ view.commands) (accepted : rank.acceptCommand command = .ok next) :
    Linked limitOf floor view next published := by
  rcases acceptCommand_eq_ok accepted with rfl | ⟨rfl, newer⟩
  · exact linked
  have applied := linked.applied_le
  refine ⟨linked.charged, linked.numbered, linked.uninitialized, linked.history, ?_, linked.published, ?_⟩
  · rintro _ ⟨⟩ _
    rcases linked.history command sent with old | now
    · omega
    · exact now
  · cases linked.adoption with
    | settled fresh completed bound limits => exact .settled fresh completed bound limits
    | adopted operation pending adopted completed bound => exact .adopted operation pending adopted completed bound
    | completed operation pending fresh completed bound => exact .completed operation pending fresh completed bound

theorem setLimit_eq_ok {quota next : MemoryQuota} {limit : Int} (set : quota.setLimit limit = .ok next) :
    next = { quota with limitBytes := limit } ∧ quota.chargedBytes ≤ limit := by
  simp only [MemoryQuota.setLimit, bind_eq_ok] at set
  obtain ⟨-, -, last⟩ := set
  split at last
  · cases last
  · rename_i fits
    exact ⟨(Except.ok.inj last).symm, not_lt.mp fits⟩

theorem Linked.adopt (linked : Linked limitOf floor view rank published) {command : QuotaCommand} {quota : MemoryQuota}
    (held : rank.command = some command) (newer : rank.completedSequence < command.sequence) (fresh : rank.adopted = none)
    (set : rank.quota.setLimit (limitOf command.quotaBytes) = .ok quota) :
    Linked limitOf floor view { rank with quota := quota, adopted := some command.sequence } published := by
  obtain ⟨rfl, fits⟩ := setLimit_eq_ok set
  have pending := linked.retained command held newer
  refine ⟨fits, linked.numbered, linked.uninitialized, linked.history, linked.retained, linked.published, ?_⟩
  cases linked.adoption with
  | settled _ completed => exact .adopted command pending rfl completed (le_refl _)
  | adopted operation _ adopted => exact absurd (fresh.symm.trans adopted) (by simp)
  | completed operation found _ completed =>
    obtain rfl := Option.some.inj (pending.symm.trans found)
    omega

theorem Linked.complete (linked : Linked limitOf floor view rank published) {sequence : Nat}
    (adopted : rank.adopted = some sequence) :
    Linked limitOf floor view { rank with completedSequence := sequence, adopted := none }
      (⟨sequence, rank.quota.chargedBytes⟩ :: published) := by
  cases linked.adoption with
  | settled fresh => exact absurd (fresh.symm.trans adopted) (by simp)
  | completed _ _ fresh => exact absurd (fresh.symm.trans adopted) (by simp)
  | adopted operation pending found completed bound =>
    obtain rfl := Option.some.inj (adopted.symm.trans found)
    have numbered := linked.numbered operation pending
    refine ⟨linked.charged, linked.numbered, linked.uninitialized, linked.history, ?_, ?_, ?_⟩
    · intro command held newer
      have newer : operation.sequence < command.sequence := newer
      exact linked.retained command held (by omega)
    · intro completion listed
      rcases List.mem_cons.mp listed with rfl | old
      · exact le_refl _
      · have := linked.published completion old
        show completion.sequence ≤ operation.sequence
        omega
    · exact .completed operation pending rfl rfl bound

/-- Mapping and unmapping change the charge only, and keep it within the limit. -/
theorem Linked.charge (linked : Linked limitOf floor view rank published) {quota : MemoryQuota}
    (limit : quota.limitBytes = rank.quota.limitBytes) (fits : quota.chargedBytes ≤ quota.limitBytes) :
    Linked limitOf floor view { rank with quota := quota } published := by
  refine ⟨fits, linked.numbered, linked.uninitialized, linked.history, linked.retained, linked.published, ?_⟩
  cases linked.adoption with
  | settled fresh completed bound limits =>
    exact .settled fresh completed (fun zero => limit.le.trans (bound zero)) fun active found => limit.le.trans (limits active found)
  | adopted operation pending adopted completed bound => exact .adopted operation pending adopted completed (limit.le.trans bound)
  | completed operation pending fresh completed bound => exact .completed operation pending fresh completed (limit.le.trans bound)

theorem tryReserve_eq_ok {quota next : MemoryQuota} {count : Int} {mapped : Bool}
    (reserved : quota.tryReserve count = .ok (mapped, next)) (fits : quota.chargedBytes ≤ quota.limitBytes) :
    next.limitBytes = quota.limitBytes ∧ next.chargedBytes ≤ next.limitBytes := by
  simp only [MemoryQuota.tryReserve, bind_eq_ok] at reserved
  obtain ⟨-, -, last⟩ := reserved
  split at last
  · obtain ⟨-, rfl⟩ := Prod.mk.inj (Except.ok.inj last)
    exact ⟨rfl, fits⟩
  · rename_i room
    obtain ⟨-, rfl⟩ := Prod.mk.inj (Except.ok.inj last)
    refine ⟨rfl, ?_⟩
    show quota.chargedBytes + count ≤ quota.limitBytes
    omega

theorem release_eq_ok {quota next : MemoryQuota} {count : Int} (released : quota.release count = .ok next)
    (fits : quota.chargedBytes ≤ quota.limitBytes) :
    next.limitBytes = quota.limitBytes ∧ next.chargedBytes ≤ next.limitBytes := by
  simp only [MemoryQuota.release, bind_eq_ok] at released
  obtain ⟨⟨⟩, checked, last⟩ := released
  split at last
  · cases last
  · obtain rfl := Except.ok.inj last
    refine ⟨rfl, ?_⟩
    have counted : 0 ≤ count := by
      unfold ensureUint64 at checked
      split at checked
      · rename_i valid
        exact valid.1
      · cases checked
    show quota.chargedBytes - count ≤ quota.limitBytes
    omega

end Links

/-! ## The composed invariant -/

section Composed

variable {dep : Deployment} {profiles : Nat → Nat → PartitionProfile}

/-- Every rank is linked to its group's part of the policy. -/
def AllLinked (dep : Deployment) (profiles : Nat → Nat → PartitionProfile) (s : EcsState) : Prop :=
  ∀ slot : Partition, slot.1 < dep.instanceCount → slot.2 < dep.atnWorldSize →
    Linked (dep.limitOf slot) (floorOf profiles slot.1 slot.2) (s.policy.view (dep.groupOf slot)) (s.ranks slot)
      (s.completions slot)

theorem slot_rank {slot : Partition} (known : slot.1 < dep.instanceCount) (small : slot.2 < dep.atnWorldSize) :
    0 < dep.width slot.1 ∧ slot ∈ dep.groupPartitions (dep.groupOf slot) := by
  obtain ⟨positive, -⟩ := device_group known small
  refine ⟨positive, List.mem_map.mpr ⟨slot.2, List.mem_map.mpr ⟨slot.2 % dep.width slot.1, ?_, ?_⟩, rfl⟩⟩
  · exact List.mem_range.mpr (Nat.mod_lt _ positive)
  · show slot.2 / dep.width slot.1 * dep.width slot.1 + slot.2 % dep.width slot.1 = slot.2
    rw [Nat.mul_comm]
    exact Nat.div_add_mod _ _

theorem limitOf_floorVector {slot : Partition} (known : slot.1 < dep.instanceCount) (small : slot.2 < dep.atnWorldSize) :
    dep.limitOf slot (floorVector dep profiles (dep.groupOf slot)) = floorOf profiles slot.1 slot.2 := by
  obtain ⟨positive, -⟩ := device_group known small
  unfold Deployment.limitOf floorVector Deployment.groupOf
  rw [getD_map_range _ (Nat.mod_lt _ positive), Nat.mul_comm, Nat.div_add_mod]

/-- A move of the policy keeps every link, given honest readings. -/
theorem Move.allLinked {readings : Readings} {policy policy' : CapacityPolicy} {ranks : Partition → CapacityReconciler}
    {completions : Partition → List QuotaCompletion} (honest : Honest readings completions)
    (move : Move dep profiles readings policy policy') (linked : AllLinked dep profiles ⟨policy, ranks, completions⟩) :
    AllLinked dep profiles ⟨policy', ranks, completions⟩ := by
  intro slot known small
  have before := linked slot known small
  cases move with
  | freeze => exact before
  | floor group member live idle unapplied active operations applied ceilings pool commands =>
    by_cases here : dep.groupOf slot = group
    · subst here
      have after := before.floored idle unapplied (limitOf_floorVector known small)
      simpa [CapacityPolicy.view, active, operations, applied, commands] using after
    · simpa [CapacityPolicy.view, active, operations, applied, commands, here] using before
  | ceiling group capacity frozen ceilings active operations applied pool commands =>
    simpa [CapacityPolicy.view, active, operations, applied, commands] using before
  | retire group operation member live pending replies active applied operations ceilings pool commands =>
    by_cases here : dep.groupOf slot = group
    · subst here
      obtain ⟨completion, reply, same⟩ := Option.map_eq_some_iff.mp (replies slot (slot_rank known small).2)
      have after := before.retire pending (honest slot completion reply) same
      simpa [CapacityPolicy.view, active, operations, applied, commands] using after
    · simpa [CapacityPolicy.view, active, operations, applied, commands, here] using before
  | publish group capacity active target member frozen idle initialized publishable operations commands kept applied =>
    by_cases here : dep.groupOf slot = group
    · subst here
      have sent : ∀ command ∈ policy'.commands (dep.groupOf slot), command ∈ policy.commands (dep.groupOf slot) ∨
          command = ⟨policy.appliedSequences (dep.groupOf slot) + 1, target⟩ := by
        intro command listed
        rcases commands with added | ⟨same, -⟩
        · rw [added, Function.update_self] at listed
          exact (List.mem_cons.mp listed).symm
        · exact Or.inl (same ▸ listed)
      have after := before.publish idle (by simp [CapacityPolicy.view, initialized]) sent
      simpa [CapacityPolicy.view, kept, operations, applied] using after
    · have same : policy'.commands (dep.groupOf slot) = policy.commands (dep.groupOf slot) := by
        rcases commands with added | ⟨same, -⟩
        · rw [added, Function.update_of_ne here]
        · rw [same]
      simpa [CapacityPolicy.view, kept, operations, applied, same, here] using before
  | other live active operations applied ceilings pool commands =>
    simpa [CapacityPolicy.view, active, operations, applied, commands] using before

theorem Along.allLinked {readings : Readings} {policy policy' : CapacityPolicy} {ranks : Partition → CapacityReconciler}
    {completions : Partition → List QuotaCompletion} (honest : Honest readings completions)
    (along : Along dep profiles readings policy policy') (linked : AllLinked dep profiles ⟨policy, ranks, completions⟩) :
    AllLinked dep profiles ⟨policy', ranks, completions⟩ := by
  induction along with
  | refl => exact linked
  | tail _ move ih => exact move.allLinked honest ih

/-- A step of one rank keeps the other ranks' links. -/
theorem AllLinked.setRank {s : EcsState} (linked : AllLinked dep profiles s) (slot : Partition) (rank : CapacityReconciler)
    (published : List QuotaCompletion)
    (own : slot.1 < dep.instanceCount → slot.2 < dep.atnWorldSize →
      Linked (dep.limitOf slot) (floorOf profiles slot.1 slot.2) (s.policy.view (dep.groupOf slot)) rank published) :
    AllLinked dep profiles ⟨s.policy, Function.update s.ranks slot rank, Function.update s.completions slot published⟩ := by
  intro other known small
  by_cases here : other = slot
  · subst here
    simpa using own known small
  · simpa [here] using linked other known small

/-- The policy's invariant and every link. -/
structure EcsInvariant (dep : Deployment) (profiles : Nat → Nat → PartitionProfile) (s : EcsState) : Prop where
  policy : PolicyInvariant dep profiles s.policy
  linked : AllLinked dep profiles s

theorem step_ecsInvariant {s t : EcsState} {label : EcsStep} (inv : EcsInvariant dep profiles s)
    (step : EcsState.Step dep profiles s label t) : EcsInvariant dep profiles t := by
  have rankStep (slot : Partition) (rank : CapacityReconciler)
      (own : slot.1 < dep.instanceCount → slot.2 < dep.atnWorldSize →
        Linked (dep.limitOf slot) (floorOf profiles slot.1 slot.2) (s.policy.view (dep.groupOf slot)) rank
          (s.completions slot)) : EcsInvariant dep profiles (s.setRank slot rank) := by
    refine ⟨inv.policy, ?_⟩
    have after := inv.linked.setRank slot rank (s.completions slot) own
    rwa [Function.update_eq_self] at after
  cases step with
  | daemon book readings retains honest =>
    have along : Along dep profiles readings s.policy (s.policy.after dep book readings) := after_along retains inv.policy
    exact ⟨along.invariant inv.policy, along.allLinked honest inv.linked⟩
  | accept slot command rank sent accepted =>
    exact rankStep slot rank fun known small => (inv.linked slot known small).accept sent accepted
  | adopt slot command quota held newer fresh set =>
    exact rankStep slot _ fun known small => (inv.linked slot known small).adopt held newer fresh set
  | complete slot sequence adopted =>
    exact ⟨inv.policy, inv.linked.setRank slot _ _ fun known small => (inv.linked slot known small).complete adopted⟩
  | map slot byteCount mapped quota reserved =>
    refine rankStep slot _ fun known small => ?_
    have before := inv.linked slot known small
    obtain ⟨limit, fits⟩ := tryReserve_eq_ok reserved before.charged
    exact before.charge limit fits
  | unmap slot byteCount quota released =>
    refine rankStep slot _ fun known small => ?_
    have before := inv.linked slot known small
    obtain ⟨limit, fits⟩ := release_eq_ok released before.charged
    exact before.charge limit fits

theorem init_ecsInvariant {s : EcsState} (start : (ecs dep profiles).init s) : EcsInvariant dep profiles s := by
  obtain ⟨created, unpublished, fresh⟩ := start
  refine ⟨created ▸ create_invariant dep profiles, fun slot known small => ?_⟩
  have floor : 0 ≤ floorOf profiles slot.1 slot.2 := floorOf_nonneg _ _
  rw [created, fresh slot, unpublished slot]
  refine ⟨floor, ?_, fun _ => ⟨rfl, rfl⟩, ?_, ?_, ?_, .settled rfl rfl (fun _ => le_refl _) ?_⟩
  · rintro operation ⟨⟩
  · rintro command ⟨⟩
  · rintro command ⟨⟩
  · rintro completion ⟨⟩
  · rintro active ⟨⟩

theorem reachable_ecsInvariant {s : EcsState} (reached : (ecs dep profiles).Reachable s) : EcsInvariant dep profiles s := by
  refine System.ReachableUnder.invariant ?_ ?_ reached
  · intro s start
    exact init_ecsInvariant start
  · intro _ _ _ _ inv _ step
    exact step_ecsInvariant inv step

/-- A partition's charge is at most the permission the policy accounts for it,
or its floor while its group has no limits yet. -/
theorem charge_le_held {s : EcsState} (inv : EcsInvariant dep profiles s) {index device : Nat}
    (known : index < dep.instanceCount) (small : device < dep.atnWorldSize) :
    (s.ranks (index, device)).quota.chargedBytes ≤ held dep s.policy index device ∨
      s.policy.activeQuotas (index, device / dep.width index) = none ∧
        (s.ranks (index, device)).quota.chargedBytes ≤ floorOf profiles index device := by
  have linked := inv.linked (index, device) known small
  cases initialized : s.policy.activeQuotas (index, device / dep.width index) with
  | none => exact Or.inr ⟨rfl, linked.charge_le_floor initialized⟩
  | some active =>
    refine Or.inl ?_
    unfold held
    rw [initialized]
    rcases linked.charge_le initialized with activeBound | ⟨operation, pending, bound⟩
    · exact le_max_of_le_left activeBound
    · refine le_max_of_le_right ?_
      have found : s.policy.operations (index, device / dep.width index) = some operation := pending
      simp only [CapacityPolicy.pendingQuota, found]
      exact bound

/-- In every state the composed system reaches after the capacities are frozen,
the partitions hosted on a device are charged at most its pool capacity. -/
theorem no_oversubscription {s : EcsState} (reached : (ecs dep profiles).Reachable s) {capacity : Nat → Int}
    (frozen : s.policy.poolCapacityBytes = some capacity) {device : Nat} (small : device < dep.atnWorldSize) :
    ∑ index ∈ Finset.range dep.instanceCount, (s.ranks (index, device)).quota.chargedBytes ≤ capacity device := by
  have inv := reachable_ecsInvariant reached
  have accounted := inv.policy.frozen capacity frozen
  have fits := accounted.floors device small
  by_cases starting : Starting dep s.policy
  · -- While a group is starting, every charge is within its floor and one share.
    refine (Finset.sum_le_sum fun index member => ?_).trans (sum_shares_le fits)
    have known := Finset.mem_range.mp member
    rcases charge_le_held inv known small with permitted | ⟨-, floored⟩
    · exact permitted.trans (accounted.startup starting index known device small)
    · have := share_nonneg fits
      omega
  · refine (Finset.sum_le_sum fun index member => ?_).trans (accounted.budget device small)
    have known := Finset.mem_range.mp member
    rcases charge_le_held inv known small with permitted | ⟨uninitialized, -⟩
    · exact permitted
    · have linked := inv.linked (index, device) known small
      exact absurd ⟨_, (device_group known small).2, (linked.uninitialized uninitialized).1⟩ starting

end Composed

/-- Two Instances before the capacities are frozen. -/
def unfrozenTwo : EcsState :=
  ⟨CapacityPolicy.create, fun _ => ⟨⟨10, 0⟩, none, 0, none⟩, fun _ => []⟩

/-- The wide Instance's first operation is published; its second rank has adopted
it and mapped 300 bytes, while the first has not seen it. -/
def grownTwo : EcsState :=
  ⟨frozenTwo, Function.update unfrozenTwo.ranks (0, 1) ⟨⟨410, 300⟩, some ⟨1, [410, 410]⟩, 0, some 1⟩, fun _ => []⟩

theorem grownTwo_reachable : (ecs twoInstances fun _ _ => evenProfile).Reachable grownTwo := by
  have start : (ecs twoInstances fun _ _ => evenProfile).Reachable unfrozenTwo :=
    .start ⟨rfl, fun _ => rfl, fun _ => rfl⟩
  have retains : Retains (fun _ _ => evenProfile) fun _ _ => some ⟨evenProfile, 0⟩ := by
    rintro index rank registration ⟨⟩
    rfl
  have frozen := start.step (EcsState.Step.daemon (fun _ _ => some ⟨evenProfile, 0⟩)
    ⟨fun _ => some 10, fun _ => some ⟨1000, 900⟩, fun _ => none, fun _ => none, fun _ => none, 0⟩ retains
    (by rintro slot completion ⟨⟩))
  have accepted := frozen.step (EcsState.Step.accept (0, 1) ⟨1, [410, 410]⟩ ⟨⟨10, 0⟩, some ⟨1, [410, 410]⟩, 0, none⟩
    List.mem_cons_self rfl)
  have adopted := accepted.step (EcsState.Step.adopt (0, 1) ⟨1, [410, 410]⟩ ⟨410, 0⟩ rfl (by decide) rfl rfl)
  have mapped := adopted.step (EcsState.Step.map (0, 1) 300 true ⟨410, 300⟩ rfl)
  simpa [EcsState.setRank, grownTwo, unfrozenTwo, frozenTwo] using mapped

theorem no_oversubscription_grownTwo :
    grownTwo.policy.poolCapacityBytes = some (fun device => [(820 : Int), 820].getD device 0) ∧
      ∑ index ∈ Finset.range 2, (grownTwo.ranks (index, 1)).quota.chargedBytes ≤ 820 := by
  have frozen : grownTwo.policy.poolCapacityBytes = some (fun device => [(820 : Int), 820].getD device 0) := rfl
  exact ⟨frozen, no_oversubscription grownTwo_reachable frozen (by decide)⟩

end CrossPool.Ecs
