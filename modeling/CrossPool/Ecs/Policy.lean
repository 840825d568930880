import Mathlib.Data.List.Lex
import Mathlib.Algebra.Order.Ring.Int
import CrossPool.Lib.Procedure
import Mathlib.Data.Finset.Basic
import Mathlib.Logic.Function.Basic

/-!
# The daemon's elastic context state quota policy

`CapacityPolicy` is the daemon's owner of one generation's byte permission. Its
`step` consumes rank completions and publishes at most one operation. Every
lookup of a partition goes through the registration book and may raise, and a
raise keeps what `step` had already written, so the stateful parts are
procedures over the policy.

A capacity group is named by its instance index and DP rank, a partition by its
instance index and attention device. Both are the source's flat slots: a group's
TP ranks are the devices `dp * tp, …, dp * tp + tp - 1` of its instance's row.
-/

namespace CrossPool.Ecs

open CrossPool.Lib

/-- Immutable backing bounds of one Instance rank, as the wire model accepts them. -/
structure PartitionProfile where
  floorBytes : Nat
  reservationBytes : Nat
  bounds : floorBytes ≤ reservationBytes ∧ reservationBytes < 2 ^ 64

/-- The registered facts of one Instance rank that the policy reads. -/
structure InstanceRankRegistration where
  contextStateProfile : PartitionProfile
  atnRuntimeHeadroomBytes : Nat

/-- Attention topology of one Instance. -/
structure InstancePlan where
  modelId : String
  atnTpSize : Nat
  atnDpSize : Nat

/-- The generation's Instances and the attention configuration. Each Instance
covers the attention world once, which the configuration validates. Truncating
the product with the configured utilization is a parameter. -/
structure Deployment where
  instancePlans : List InstancePlan
  atnWorldSize : Nat
  devices : Nat → Nat
  utilizedBytes : Nat → Int
  covers : ∀ plan ∈ instancePlans, plan.atnTpSize * plan.atnDpSize = atnWorldSize

/-- A capacity group: instance index and DP rank. -/
abbrev Group := Nat × Nat

/-- A partition: instance index and attention device index. -/
abbrev Partition := Nat × Nat

/-- The registration book, by instance index and rank. -/
abbrev RegistrationBook := Nat → Nat → Option InstanceRankRegistration

/-- One immutable group operation. -/
structure QuotaCommand where
  sequence : Nat
  quotaBytes : List Int
  deriving DecidableEq, Repr

/-- The native constructor takes an unsigned 32-bit sequence and unsigned 64-bit
limits. -/
def QuotaCommand.construct (sequence : Nat) (quotaBytes : List Int) : Except String QuotaCommand :=
  if 2 ^ 32 ≤ sequence ∨ ¬ quotaBytes.all (fun limit => 0 ≤ limit ∧ limit < 2 ^ 64) then
    .error "QuotaCommand: incompatible constructor arguments"
  else if sequence = 0 ∨ quotaBytes = [] then .error "xpool elastic context state command values are invalid"
  else .ok ⟨sequence, quotaBytes⟩

/-- One rank's adoption of an operation. -/
structure QuotaCompletion where
  sequence : Nat
  backedBytes : Int
  deriving DecidableEq, Repr

/-- A group's unresolved requirement, evaluated under a grant. -/
structure QuotaDemand where
  evaluatedSequence : Nat
  requiredBytes : Option (List Int)
  deadlineMonotonicNs : Option Nat
  deriving DecidableEq, Repr

/-- One device's post-capture memory observation. -/
structure DeviceMemoryReport where
  totalBytes : Nat
  freeBytes : Nat
  deriving DecidableEq, Repr

/-- One borrower's exact persistent witness and serialized donor negotiation. -/
structure FundingAttempt where
  borrower : Group
  evaluatedSequence : Nat
  targetQuotaBytes : List Int
  deadlineMonotonicNs : Nat
  attemptedDonors : List Group
  donor : Option Group
  deriving DecidableEq, Repr

/-- What one `step` reads from the native channel and the clock. The completions
`publish_command` checks are read again at publication. -/
structure Readings where
  initialBacking : Partition → Option Int
  deviceMemory : Nat → Option DeviceMemoryReport
  completions : Partition → Option QuotaCompletion
  demands : Group → Option QuotaDemand
  publicationCompletions : Partition → Option QuotaCompletion
  nowNs : Nat

/-- One generation's physical permission across its devices, with the commands
and ceilings it has published, newest first. -/
structure CapacityPolicy where
  appliedSequences : Group → Nat
  activeQuotas : Group → Option (List Int)
  operations : Group → Option QuotaCommand
  demands : Group → Option QuotaDemand
  completedGrantOrders : Group → Option Nat
  serviceCeilings : Group → Option (List Int)
  nextGrantOrder : Nat
  fundingAttempt : Option FundingAttempt
  poolCapacityBytes : Option (Nat → Int)
  commands : Group → List QuotaCommand

/-- A policy as plan formation creates it. -/
def CapacityPolicy.create : CapacityPolicy where
  appliedSequences := fun _ => 0
  activeQuotas := fun _ => none
  operations := fun _ => none
  demands := fun _ => none
  completedGrantOrders := fun _ => none
  serviceCeilings := fun _ => none
  nextGrantOrder := 0
  fundingAttempt := none
  poolCapacityBytes := none
  commands := fun _ => []

/-- Three sequences side by side; unequal lengths raise. -/
def zipStrict {α β γ : Type} : List α → List β → List γ → Except String (List (α × β × γ))
  | [], [], [] => .ok []
  | a :: as, b :: bs, c :: cs => (zipStrict as bs cs).map ((a, b, c) :: ·)
  | _, _, _ => .error "zip() arguments differ in length"

namespace Deployment

variable (dep : Deployment)

/-- Number of Instances. -/
def instanceCount : Nat :=
  dep.instancePlans.length

/-- The plan of one Instance. -/
def plan (index : Nat) : InstancePlan :=
  dep.instancePlans.getD index ⟨"", 0, 0⟩

/-- Every capacity group in directory order. -/
def capacityGroups : List Group :=
  (List.range dep.instanceCount).flatMap fun index =>
    (List.range (dep.plan index).atnDpSize).map fun dpRank => (index, dpRank)

/-- A group's ranks, which are its devices, in TP-rank order. -/
def groupRanks (group : Group) : List Nat :=
  (List.range (dep.plan group.1).atnTpSize).map (group.2 * (dep.plan group.1).atnTpSize + ·)

/-- A group's partition slots in TP-rank order. -/
def groupPartitions (group : Group) : List Partition :=
  (dep.groupRanks group).map fun rank => (group.1, rank)

/-- A retained partition registration. -/
def partition (book : RegistrationBook) (index rank : Nat) : Except String InstanceRankRegistration :=
  match book index rank with
  | some registration => .ok registration
  | none =>
    .error s!"elastic context state quota policy lost registration for instance {(dep.plan index).modelId} rank {rank}"

/-- Rank-local device indices and backing bounds, in TP-rank order. -/
def groupProfiles (book : RegistrationBook) (group : Group) : Except String (List (Nat × PartitionProfile)) :=
  (dep.groupRanks group).mapM fun rank =>
    (dep.partition book group.1 rank).map fun registration => (rank, registration.contextStateProfile)

end Deployment

namespace CapacityPolicy

variable (dep : Deployment) (book : RegistrationBook)

/-! ## Reading the policy -/

/-- A partition's registration, whose startup backing must be its floor. -/
def startupRegistration (readings : Readings) (device index : Nat) : Except String InstanceRankRegistration := do
  let registration ← dep.partition book index device
  if readings.initialBacking (index, device) ≠ some (registration.contextStateProfile.floorBytes : Int) then
    throw "elastic context state startup backing differs from its registered floor"
  return registration

/-- One device's budget; it must retain all backing floors. -/
def deviceBudget (readings : Readings) (device : Nat) : Except String Int := do
  let some report := readings.deviceMemory device
    | throw "elastic context state quota freezing requires every device report"
  let registrations ← (List.range dep.instanceCount).mapM (startupRegistration dep book readings device)
  let floors : Int := (registrations.map fun registration => (registration.contextStateProfile.floorBytes : Int)).sum
  let headroom : Int := (registrations.map fun registration => (registration.atnRuntimeHeadroomBytes : Int)).sum
  let utilizationReserve := report.totalBytes - dep.utilizedBytes report.totalBytes
  -- The bootstrap backing of every partition is its floor.
  let mapped := floors
  let budget := report.freeBytes + mapped - max utilizationReserve headroom
  if budget < floors then
    throw (s!"attention device {dep.devices device} cannot retain all backing floors: " ++
      s!"total_bytes={report.totalBytes} free_bytes={report.freeBytes} bootstrap_bytes={mapped} " ++
      s!"utilization_reserve_bytes={utilizationReserve} runtime_headroom_bytes={headroom} " ++
      s!"budget_bytes={budget} floor_bytes={floors}")
  return budget

/-- The sum of some Instances' floors on one device. -/
def floorsOn (indices : List Nat) (device : Nat) : Except String Int :=
  (indices.mapM fun index => dep.partition book index device).map fun registrations =>
    (registrations.map fun registration => (registration.contextStateProfile.floorBytes : Int)).sum

variable (self : CapacityPolicy)

/-- The frozen budgets. -/
def budgets : Except String (Nat → Int) :=
  match self.poolCapacityBytes with
  | some capacity => .ok capacity
  | none => .error "attention device budgets are not frozen"

/-- Add one equal byte increment per device, capped by each real reservation. -/
def initialTarget (group : Group) : Except String (List Int) := do
  let budgets ← self.budgets
  let profiles ← dep.groupProfiles book group
  profiles.mapM fun (device, profile) => do
    let floors ← floorsOn dep book (List.range dep.instanceCount) device
    let extra := (budgets device - floors) / dep.instanceCount
    return min (profile.reservationBytes : Int) (profile.floorBytes + extra)

/-- Independent device ceilings while every other partition retains its floor. -/
def serviceCeiling (group : Group) : Except String (List Int) := do
  let budgets ← self.budgets
  let profiles ← dep.groupProfiles book group
  profiles.mapM fun (device, profile) => do
    let otherFloors ← floorsOn dep book ((List.range dep.instanceCount).filter (· ≠ group.1)) device
    return min (profile.reservationBytes : Int) (budgets device - otherFloors)

/-- Take one group's permission from the free bytes. -/
def chargeGroup (free : Nat → Int) (group : Group) : Except String (Nat → Int) :=
  match self.activeQuotas group with
  | none => .ok free
  | some active => do
    let target := match self.operations group with
      | some operation => operation.quotaBytes
      | none => active
    let entries ← zipStrict (← dep.groupProfiles book group) active target
    return entries.foldl (fun free entry =>
      Function.update free entry.1.1 (free entry.1.1 - max entry.2.1 entry.2.2)) free

/-- Subtract permission, charging max(old, target) until whole-group completion. -/
def poolFreeBytes : Except String (Nat → Int) := do
  let capacity ← self.budgets
  let free ← dep.capacityGroups.foldlM (chargeGroup dep book self) capacity
  if (List.range dep.atnWorldSize).any fun device => free device < 0 then
    throw "elastic context state quota accounting exceeded a physical device budget"
  return free

/-- The requested permission increment on each participating device. -/
def growthBytes (group : Group) (start target : List Int) : Except String (List (Nat × Int)) := do
  let entries ← zipStrict (← dep.groupProfiles book group) start target
  return entries.map fun entry => (entry.1.1, entry.2.2 - entry.2.1)

/-- A current idle-group witness that fits every immutable ceiling. -/
def eligibleDemand (group : Group) : Except String (Option QuotaDemand) :=
  match self.demands group, self.activeQuotas group, self.serviceCeilings group with
  | some demand, some active, some ceiling =>
    if self.operations group ≠ none ∨ demand.evaluatedSequence ≠ self.appliedSequences group then .ok none
    else
      match demand.requiredBytes, demand.deadlineMonotonicNs with
      | some required, some _ => do
        let entries ← zipStrict active required ceiling
        if ¬ entries.all (fun entry => entry.1 ≤ entry.2.1 ∧ entry.2.1 ≤ entry.2.2) ∨ required = active then return none
        return some demand
      | _, _ => .ok none
  | _, _, _ => .ok none

/-- A borrower with its deadline and devices. -/
structure Candidate where
  group : Group
  deadline : Nat
  devices : List Nat

/-- Overdue candidates: never granted first, then by grant order, deadline, slot. -/
def overdueKey (candidate : Candidate) : List Nat :=
  let order := self.completedGrantOrders candidate.group
  [if order.isSome then 1 else 0, order.getD 0, candidate.deadline, candidate.group.1, candidate.group.2]

/-- Predeadline candidates: by deadline, then slot. -/
def predeadlineKey (candidate : Candidate) : List Nat :=
  [candidate.deadline, candidate.group.1, candidate.group.2]

/-- The groups that may borrow, with what orders them. -/
def candidates : Except String (List Candidate) :=
  dep.capacityGroups.foldlM (fun found group => do
    match ← self.eligibleDemand group with
    | some ⟨_, _, some deadline⟩ =>
      let profiles ← dep.groupProfiles book group
      return found ++ [⟨group, deadline, profiles.map (·.1)⟩]
    | _ => return found) []

/-- Preserve overdue grant ordering, then predeadline work on unrelated devices. -/
def orderedBorrowers (nowNs : Nat) : Except String (List Group) := do
  let candidates ← self.candidates dep book
  let overdue := candidates.filter (·.deadline ≤ nowNs)
  let protectedDevices := overdue.flatMap (·.devices)
  let predeadline := candidates.filter fun candidate =>
    nowNs < candidate.deadline ∧ candidate.devices.all (· ∉ protectedDevices)
  let orderedOverdue := overdue.mergeSort fun a b => decide (self.overdueKey a ≤ self.overdueKey b)
  let orderedPredeadline := predeadline.mergeSort fun a b => decide (predeadlineKey a ≤ predeadlineKey b)
  return (orderedOverdue ++ orderedPredeadline).map (·.group)

/-- Revalidate the original sequence, vector and deadline after each donor. -/
def attemptIsCurrent (attempt : FundingAttempt) : Except String Bool :=
  (self.eligibleDemand attempt.borrower).map fun demand =>
    match demand with
    | some demand => demand.evaluatedSequence = attempt.evaluatedSequence ∧
        demand.requiredBytes = some attempt.targetQuotaBytes ∧
          demand.deadlineMonotonicNs = some attempt.deadlineMonotonicNs
    | none => false

/-- One donor's shrink, on its short devices only. -/
def donorTarget (shortages : List (Nat × Int)) (donor : Group) (active : List Int) : Except String (List Int) := do
  let entries ← zipStrict (← dep.groupProfiles book donor) active active
  return entries.map fun entry => max (entry.1.2.floorBytes : Int) (entry.2.1 - (shortages.lookup entry.1.1).getD 0)

/-- A donor's priority: idle groups first, then the latest deadline, the latest
grant and the slot. -/
def donorKey (donor : Group) (demand : QuotaDemand) : List Int :=
  let deadline : Int := if demand.requiredBytes.isSome then -(demand.deadlineMonotonicNs.getD 0 : Nat) else 0
  let order : Int := match self.completedGrantOrders donor with
    | some order => order
    | none => -1
  [if demand.requiredBytes.isSome then 1 else 0, deadline, -order, donor.1, donor.2]

/-- A donor the attempt has not tried, idle and with a current demand, that can
give up some of the short bytes. -/
def donorCandidate (attempt : FundingAttempt) (shortages : List (Nat × Int)) (donor : Group) :
    Except String (Option (List Int × Group × List Int)) :=
  if donor = attempt.borrower ∨ donor ∈ attempt.attemptedDonors then .ok none
  else
    match self.activeQuotas donor, self.operations donor, self.demands donor with
    | some active, none, some demand =>
      if demand.evaluatedSequence ≠ self.appliedSequences donor then .ok none
      else do
        let target ← donorTarget dep book shortages donor active
        if target = active then return none
        return some (self.donorKey donor demand, donor, target)
    | _, _, _ => .ok none

/-- The candidate of the least key. -/
def leastCandidate : List (List Int × Group × List Int) → Option (List Int × Group × List Int)
  | [] => none
  | next :: rest =>
    match leastCandidate rest with
    | none => some next
    | some best => if best.1 < next.1 then some best else some next

/-- The first donor in priority order, with its shrunk quota. -/
def selectDonor (attempt : FundingAttempt) (shortages : List (Nat × Int)) : Except String (Option (Group × List Int)) := do
  let found ← dep.capacityGroups.mapM (self.donorCandidate dep book attempt shortages)
  return (leastCandidate (found.filterMap id)).map (·.2)

/-! ## Operations -/

/-- The native channel takes the next command of a group whose ranks have all
completed the previous one. -/
def publishCommand (readings : Readings) (group : Group) (command : QuotaCommand) : EStateM String CapacityPolicy Unit := do
  let self ← get
  if command.sequence = 0 then throw "xpool elastic context state command identity is invalid"
  else if command.quotaBytes.length ≠ (dep.plan group.1).atnTpSize then
    throw "xpool elastic context state command vector extent is invalid"
  else
    let previous := (self.commands group).head?
    if previous.map (·.sequence) = some command.sequence then
      if previous = some command then return ()
      else throw "xpool elastic context state command mutates an existing sequence"
    else
      let sequence := (previous.map (·.sequence)).getD 0
      if sequence = 2 ^ 32 - 1 ∨ command.sequence ≠ sequence + 1 then
        throw "xpool elastic context state command sequence is not the next publication"
      else if sequence ≠ 0 ∧ ¬ (dep.groupPartitions group).all (fun slot =>
          (readings.publicationCompletions slot).map (·.sequence) = some sequence) then
        throw "xpool elastic context state command supersedes an unfinished group operation"
      -- Every publication of a record advances its 64-bit revision by two.
      else if 2 ^ 64 - 3 < 2 * (self.commands group).length then
        throw "xpool elastic context state publication revision is invalid or exhausted"
      else modify fun self => { self with
        commands := Function.update self.commands group (command :: self.commands group) }

/-- Publish one immutable operation for an initialized idle group. -/
def publishOperation (readings : Readings) (group : Group) (quotaBytes : List Int) :
    EStateM String CapacityPolicy Unit := do
  let self ← get
  if self.activeQuotas group = none ∨ self.operations group ≠ none then
    throw "elastic context state quota operation requires one initialized idle group"
  else
    let command ← query fun _ => QuotaCommand.construct (self.appliedSequences group + 1) quotaBytes
    publishCommand dep readings group command
    modify fun self => { self with operations := Function.update self.operations group (some command) }

/-- Set one group's startup quota and its immutable ceiling. -/
def freezeGroup (group : Group) : EStateM String CapacityPolicy Unit := do
  let profiles ← query fun _ => dep.groupProfiles book group
  modify fun self => { self with
    activeQuotas := Function.update self.activeQuotas group (some (profiles.map fun entry => (entry.2.floorBytes : Int))) }
  let ceiling ← query fun self => self.serviceCeiling dep book group
  modify fun self => { self with serviceCeilings := Function.update self.serviceCeilings group (some ceiling) }

/-- Freeze post-capture device budgets, partition floors and immutable ceilings. -/
def freezePools (readings : Readings) : EStateM String CapacityPolicy Unit := do
  let budgets ← query fun _ => (List.range dep.atnWorldSize).mapM (deviceBudget dep book readings)
  modify fun self => { self with poolCapacityBytes := some fun device => budgets.getD device 0 }
  dep.capacityGroups.forM (freezeGroup dep book)

/-- Retire one group's operation once all its ranks adopted it and fit it
physically; a retired donor leaves the funding attempt. -/
def retireOperation (readings : Readings) (group : Group) : EStateM String CapacityPolicy Bool := do
  let self ← get
  match self.operations group, self.activeQuotas group with
  | some operation, some old =>
    let replies := (dep.groupPartitions group).map readings.completions
    if replies.all fun reply => reply.map (·.sequence) = some operation.sequence then
      let entries ← query fun _ => do
        zipStrict replies (← dep.groupProfiles book group) operation.quotaBytes
      if entries.all fun entry => match entry.1 with
          | some reply => (entry.2.1.2.floorBytes : Int) ≤ reply.backedBytes ∧ reply.backedBytes ≤ entry.2.2
          | none => false then
        let grows := operation.sequence ≠ 1 ∧ (old.zip operation.quotaBytes).any fun entry => entry.1 < entry.2
        modify fun self => { self with
          activeQuotas := Function.update self.activeQuotas group (some operation.quotaBytes)
          appliedSequences := Function.update self.appliedSequences group operation.sequence
          operations := Function.update self.operations group none
          completedGrantOrders := if grows then
            Function.update self.completedGrantOrders group (some self.nextGrantOrder) else self.completedGrantOrders
          nextGrantOrder := if grows then self.nextGrantOrder + 1 else self.nextGrantOrder }
        return true
      else throw "elastic context state quota completion is outside its floor and adopted grant"
    else return false
  | _, _ => return false

/-- Release the completed donor slot before exact-witness revalidation. -/
def noteRetiredDonor (group : Group) : EStateM String CapacityPolicy Unit :=
  modify fun self => { self with
    fundingAttempt := self.fundingAttempt.map fun attempt =>
      if attempt.donor = some group then
        { attempt with donor := none, attemptedDonors := group :: attempt.attemptedDonors }
      else attempt }

/-- Credit a shrink only after all ranks adopted the grant and fit it physically. -/
def retireOperations (readings : Readings) : EStateM String CapacityPolicy (List Group) :=
  dep.capacityGroups.filterM (retireOperation dep book readings)

/-- Publish one startup grant; allocation remains on demand inside each rank. -/
def publishNextInitialOperation (readings : Readings) : EStateM String CapacityPolicy Bool := do
  let self ← get
  if dep.capacityGroups.any fun group => (self.operations group).isSome then return false
  else
    match dep.capacityGroups.find? fun group => self.appliedSequences group = 0 with
    | some group =>
      let target ← query fun self => self.initialTarget dep book group
      publishOperation dep readings group target
      return true
    | none => return false

/-- The sequence of the newest operation a group was issued. -/
def lastIssuedSequence (group : Group) : Nat :=
  match self.operations group with
  | none => self.appliedSequences group
  | some operation => operation.sequence

/-- Validate one group's new coherent vector. -/
def consumeDemand (readings : Readings) (group : Group) : EStateM String CapacityPolicy Unit := do
  match readings.demands group with
  | none => return ()
  | some demand =>
    let self ← get
    if self.lastIssuedSequence group < demand.evaluatedSequence then
      throw "elastic context state demand refers to an unpublished operation"
    else
      match demand.requiredBytes, self.activeQuotas group with
      | some required, some active =>
        if required.length ≠ active.length then
          throw "elastic context state demand vector differs from group membership"
        else if demand.evaluatedSequence = self.appliedSequences group ∧
            (active.zip required).any (fun entry => entry.2 < entry.1) then
          throw "elastic context state demand requests an implicit partition shrink"
        else modify fun self => { self with demands := Function.update self.demands group (some demand) }
      | _, _ => modify fun self => { self with demands := Function.update self.demands group (some demand) }

/-- Validate new coherent vectors without discarding snapshots during a publication. -/
def consumeDemands (readings : Readings) : EStateM String CapacityPolicy Unit :=
  dep.capacityGroups.forM (consumeDemand readings)

/-- Use unassigned bytes first, then shrink one donor on its short devices only. -/
def advanceAttempt (readings : Readings) (attempt : FundingAttempt) : EStateM String CapacityPolicy Bool := do
  if attempt.donor.isSome then return false
  else if ¬ (← query fun self => self.attemptIsCurrent attempt) then
    modify fun self => { self with fundingAttempt := none }
    return false
  else
    let free ← query fun self => self.poolFreeBytes dep book
    let self ← get
    match self.activeQuotas attempt.borrower with
    | none => throw "elastic context state funding borrower is uninitialized"
    | some active =>
      let required ← query fun _ => growthBytes dep book attempt.borrower active attempt.targetQuotaBytes
      if required.all fun entry => entry.2 ≤ free entry.1 then
        publishOperation dep readings attempt.borrower attempt.targetQuotaBytes
        modify fun self => { self with fundingAttempt := none }
        return true
      else
        let shortages := (required.filter fun entry => free entry.1 < entry.2).map fun entry =>
          (entry.1, entry.2 - free entry.1)
        match ← query fun self => self.selectDonor dep book attempt shortages with
        | none =>
          modify fun self => { self with fundingAttempt := none }
          return false
        | some (donor, target) =>
          publishOperation dep readings donor target
          modify fun self => { self with fundingAttempt := some { attempt with donor := some donor } }
          return true

/-- Fund one borrower from unassigned bytes while the attempt waits for its
donor, on devices neither of them uses. -/
def fundUnrelated (readings : Readings) (attempt : FundingAttempt) (donor : Group) :
    EStateM String CapacityPolicy Unit := do
  let reserved ← query fun _ => do
    return (← dep.groupProfiles book attempt.borrower).map (·.1) ++ (← dep.groupProfiles book donor).map (·.1)
  let free ← query fun self => self.poolFreeBytes dep book
  let borrowers ← query fun self => self.orderedBorrowers dep book readings.nowNs
  let _ ← borrowers.anyM fun group => do
    let devices ← query fun _ => (dep.groupProfiles book group).map fun profiles => profiles.map (·.1)
    if devices.any (· ∈ reserved) then return false
    else
      let demand ← query fun self => self.eligibleDemand group
      let self ← get
      match demand, self.activeQuotas group with
      | some ⟨_, some target, _⟩, some active =>
        let required ← query fun _ => growthBytes dep book group active target
        if required.all fun entry => entry.2 ≤ free entry.1 then
          publishOperation dep readings group target
          return true
        else return false
      | _, _ => return false

/-- Start a funding attempt for the first borrower it can advance. -/
def fundNext (readings : Readings) : EStateM String CapacityPolicy Unit := do
  let borrowers ← query fun self => self.orderedBorrowers dep book readings.nowNs
  let _ ← borrowers.anyM fun group => do
    match ← query fun self => self.eligibleDemand group with
    | some ⟨evaluated, some target, some deadline⟩ =>
      let attempt : FundingAttempt := ⟨group, evaluated, target, deadline, [], none⟩
      modify fun self => { self with fundingAttempt := some attempt }
      advanceAttempt dep book readings attempt
    | _ => return false

/-- The part of a step with frozen budgets. -/
def progress (readings : Readings) : EStateM String CapacityPolicy Unit := do
  let retired ← retireOperations dep book readings
  retired.forM noteRetiredDonor
  let self ← get
  if dep.capacityGroups.any fun group => self.appliedSequences group = 0 then
    let _ ← publishNextInitialOperation dep book readings
  else
    consumeDemands dep readings
    let self ← get
    match self.fundingAttempt with
    | none => fundNext dep book readings
    | some attempt =>
      let advanced ← advanceAttempt dep book readings attempt
      if advanced then return ()
      else
        match attempt.donor with
        | some donor => fundUnrelated dep book readings attempt donor
        | none => fundNext dep book readings

/-- Consume completions and publish at most one new immutable group operation. -/
def step (readings : Readings) : EStateM String CapacityPolicy Unit := do
  let self ← get
  if dep.capacityGroups.any (fun group => (dep.groupPartitions group).any fun slot =>
        readings.initialBacking slot = none) ∨
      (List.range dep.atnWorldSize).any fun device => readings.deviceMemory device = none then return ()
  else if self.poolCapacityBytes = none then
    freezePools dep book readings
    progress dep book readings
  else progress dep book readings

end CapacityPolicy

end CrossPool.Ecs
