import Mathlib.Logic.Function.Basic
import CrossPool.Fabric.Protocol

/-!
# Coordinator-private scheduling

One entry per Instance moves from Idle over Ready to Active and back. Lane
occupancy is derived from the Active entries. Every operation returns `none`
where the source aborts.
-/

namespace CrossPool.Fabric

/-- `xpool::utils::random::SplitMix64`. -/
structure SplitMix64 where
  state : UInt64
deriving DecidableEq, Repr

def SplitMix64.next (generator : SplitMix64) : UInt64 × SplitMix64 :=
  let state := generator.state + 0x9e3779b97f4a7c15
  let value := (state ^^^ (state >>> 30)) * 0xbf58476d1ce4e5b9
  let value := (value ^^^ (value >>> 27)) * 0x94d049bb133111eb
  (value ^^^ (value >>> 31), ⟨state⟩)

inductive EntryState where
  | idle
  | ready
  | active
deriving DecidableEq, Repr

structure SchedulerEntry where
  invocation : Invocation
  completedSequence : Nat
  readyTicket : Nat
  executorLaneIndex : Nat
  state : EntryState
deriving DecidableEq, Repr

instance : Inhabited SchedulerEntry :=
  ⟨⟨default, 0, 0, 0, .idle⟩⟩

inductive PolicyState where
  | fifo (nextTicket : Nat)
  | random (generator : SplitMix64)
deriving DecidableEq, Repr

structure Decision where
  invocation : Invocation
  executorLaneIndex : Nat
deriving DecidableEq, Repr

structure Scheduler where
  policy : PolicyState
  entries : Nat → SchedulerEntry
  instanceCount : Nat
  executorLaneCount : Nat

namespace Scheduler

variable (s : Scheduler)

def setEntry (instanceIndex : Nat) (entry : SchedulerEntry) : Scheduler :=
  { s with entries := Function.update s.entries instanceIndex entry }

def hasUnresolvedInvocation (instanceIndex : Nat) : Bool :=
  (s.entries instanceIndex).state ≠ .idle

/-- The new scheduler and the ticket, which random scheduling leaves zero. -/
def enqueue (invocation : Invocation) : Option (Scheduler × Nat) :=
  let index := invocation.key.instanceIndex
  let entry := s.entries index
  if !invocation.valid ∨ s.instanceCount ≤ index ∨ entry.state ≠ .idle ∨ entry.completedSequence = maxSequence ∨
      invocation.key.invocationSequence ≠ entry.completedSequence + 1 then none
  else
    let ready (ticket : Nat) : SchedulerEntry :=
      { entry with
        invocation := invocation
        executorLaneIndex := 0
        readyTicket := ticket
        state := .ready }
    match s.policy with
    | .fifo nextTicket =>
      let ticket := (nextTicket + 1) % 2 ^ 64
      if ticket = 0 then none
      else some ({ s.setEntry index (ready ticket) with policy := .fifo ticket }, ticket)
    | .random _ => some (s.setEntry index (ready 0), 0)

/-- An Active entry occupies the lane. -/
def occupied (lane : Nat) : Bool :=
  (List.range s.instanceCount).any fun index =>
    (s.entries index).state = .active && (s.entries index).executorLaneIndex = lane

/-- The first lane that no Active entry occupies, or the lane count. -/
def findIdleLane : Nat :=
  ((List.range s.executorLaneCount).find? fun lane => !s.occupied lane).getD s.executorLaneCount

def isReady (index : Nat) : Bool :=
  (s.entries index).state = .ready

/-- The FIFO loop: strictly smaller tickets replace the selection. -/
def selectFifo : Nat × Nat :=
  (List.range s.instanceCount).foldl
    (fun (selected, selectedTicket) index =>
      if s.isReady index && (s.entries index).readyTicket < selectedTicket then (index, (s.entries index).readyTicket)
      else (selected, selectedTicket))
    (s.instanceCount, maxSequence)

/-- The random loop: one draw for each Ready entry, the smallest score wins. -/
def selectRandom (generator : SplitMix64) : Nat × Nat × SplitMix64 :=
  (List.range s.instanceCount).foldl
    (fun (selected, selectedScore, generator) index =>
      if s.isReady index then
        let (score, generator) := generator.next
        if selected = s.instanceCount ∨ score.toNat < selectedScore then (index, score.toNat, generator)
        else (selected, selectedScore, generator)
      else (selected, selectedScore, generator))
    (s.instanceCount, maxSequence, generator)

/-- The instance a policy selects, and the scheduler with its policy advanced. -/
def select : Nat × Scheduler :=
  match s.policy with
  | .fifo _ => (s.selectFifo.1, s)
  | .random generator =>
    let (selected, _, generator) := s.selectRandom generator
    (selected, { s with policy := .random generator })

def admitEntry (instanceIndex lane : Nat) : Option (Scheduler × Decision) :=
  let entry := s.entries instanceIndex
  if entry.state ≠ .ready ∨ s.executorLaneCount ≤ lane then none
  else
    some
      (s.setEntry instanceIndex
          { entry with
            executorLaneIndex := lane
            state := .active },
        ⟨entry.invocation, lane⟩)

def trySchedule : Option (Scheduler × Option Decision) :=
  if s.instanceCount = 0 ∨ s.executorLaneCount = 0 then none
  else if s.findIdleLane = s.executorLaneCount then some (s, none)
  else if (List.range s.instanceCount).any s.isReady then
    let (selected, advanced) := s.select
    if selected = s.instanceCount then none
    else (advanced.admitEntry selected s.findIdleLane).map fun (after, decision) => (after, some decision)
  else some (s, none)

def activeDecision (instanceIndex : Nat) : Option Decision :=
  let entry := s.entries instanceIndex
  if entry.state = .active then some ⟨entry.invocation, entry.executorLaneIndex⟩ else none

def release (key : InvocationKey) (lane : Nat) : Option Scheduler :=
  let entry := s.entries key.instanceIndex
  if !key.valid ∨ s.instanceCount ≤ key.instanceIndex ∨ s.executorLaneCount ≤ lane ∨ entry.state ≠ .active ∨
      entry.invocation.key ≠ key ∨ entry.executorLaneIndex ≠ lane then none
  else
    some
      (s.setEntry key.instanceIndex
        { invocation := default
          completedSequence := key.invocationSequence
          readyTicket := 0
          executorLaneIndex := 0
          state := .idle })

/-- `Scheduler::from`. -/
def create (policy : PolicyState) (instanceCount executorLaneCount : Nat) : Scheduler where
  policy := policy
  entries _ := default
  instanceCount := instanceCount
  executorLaneCount := executorLaneCount

/-! ## What the operations do -/

variable {s} {after : Scheduler}

@[simp] theorem setEntry_entries (index : Nat) (entry : SchedulerEntry) :
    (s.setEntry index entry).entries = Function.update s.entries index entry :=
  rfl

@[simp] theorem setEntry_instanceCount (index : Nat) (entry : SchedulerEntry) :
    (s.setEntry index entry).instanceCount = s.instanceCount :=
  rfl

@[simp] theorem setEntry_executorLaneCount (index : Nat) (entry : SchedulerEntry) :
    (s.setEntry index entry).executorLaneCount = s.executorLaneCount :=
  rfl

/-- The counts a scheduler is built over never change. -/
structure SameShape (s after : Scheduler) : Prop where
  instanceCount : after.instanceCount = s.instanceCount
  executorLaneCount : after.executorLaneCount = s.executorLaneCount

theorem enqueue_eq_some {invocation : Invocation} {ticket : Nat} (enqueued : s.enqueue invocation = some (after, ticket)) :
    SameShape s after ∧ invocation.valid ∧ invocation.key.instanceIndex < s.instanceCount ∧
      (s.entries invocation.key.instanceIndex).state = .idle ∧
      invocation.key.invocationSequence = (s.entries invocation.key.instanceIndex).completedSequence + 1 ∧
      after.entries =
        Function.update s.entries invocation.key.instanceIndex
          { invocation := invocation
            completedSequence := (s.entries invocation.key.instanceIndex).completedSequence
            readyTicket := ticket
            executorLaneIndex := 0
            state := .ready } := by
  simp only [enqueue] at enqueued
  split at enqueued
  · cases enqueued
  · next passed =>
    simp only [not_or, Bool.not_eq_true', Bool.not_eq_false, not_le, ne_eq, not_not] at passed
    obtain ⟨valid, bound, idle, -, sequence⟩ := passed
    split at enqueued
    · split at enqueued
      · cases enqueued
      · obtain ⟨rfl, rfl⟩ := Prod.mk.inj (Option.some.inj enqueued)
        exact ⟨⟨rfl, rfl⟩, valid, bound, idle, sequence, rfl⟩
    · obtain ⟨rfl, rfl⟩ := Prod.mk.inj (Option.some.inj enqueued)
      exact ⟨⟨rfl, rfl⟩, valid, bound, idle, sequence, rfl⟩

theorem findIdleLane_idle (found : s.findIdleLane ≠ s.executorLaneCount) :
    s.findIdleLane < s.executorLaneCount ∧ s.occupied s.findIdleLane = false := by
  simp only [findIdleLane] at found ⊢
  cases first : (List.range s.executorLaneCount).find? fun lane => !s.occupied lane with
  | none => simp [first] at found
  | some lane =>
    have idle := List.find?_some first
    have member := List.mem_of_find?_eq_some first
    simp only [Option.getD_some]
    exact ⟨List.mem_range.mp member, by simpa using idle⟩

theorem not_occupied_iff {lane : Nat} :
    s.occupied lane = false ↔
      ∀ index < s.instanceCount, (s.entries index).state = .active → (s.entries index).executorLaneIndex ≠ lane := by
  simp [occupied]

/-- A selection loop ends at its sentinel or at an index it went through. -/
theorem foldl_selected {α : Type*} (selected : α → Nat) (visit : α → Nat → α) {count : Nat}
    (moves : ∀ a index, selected (visit a index) = selected a ∨ selected (visit a index) = index) (indices : List Nat)
    (range : ∀ index ∈ indices, index < count) (start : α) (bounded : selected start ≤ count) :
    selected (indices.foldl visit start) ≤ count := by
  induction indices generalizing start with
  | nil => exact bounded
  | cons index rest ih =>
    apply ih (fun i member => range i (List.mem_cons_of_mem _ member))
    rcases moves start index with same | moved
    · omega
    · have := range index List.mem_cons_self
      omega

theorem select_le : s.select.1 ≤ s.instanceCount := by
  have range : ∀ index ∈ List.range s.instanceCount, index < s.instanceCount := fun index => List.mem_range.mp
  simp only [select]
  split
  · apply foldl_selected Prod.fst _ _ _ range _ (Nat.le_refl _)
    rintro ⟨selected, ticket⟩ index
    simp only
    split
    · exact .inr rfl
    · exact .inl rfl
  · apply foldl_selected Prod.fst _ _ _ range _ (Nat.le_refl _)
    rintro ⟨selected, score, generator⟩ index
    simp only
    split
    · split
      · exact .inr rfl
      · exact .inl rfl
    · exact .inl rfl

theorem select_entries : s.select.2.entries = s.entries ∧ SameShape s s.select.2 := by
  simp only [select]
  split
  · exact ⟨rfl, rfl, rfl⟩
  · exact ⟨rfl, rfl, rfl⟩

/-- A decision makes one Ready entry Active on a lane no Active entry occupies. -/
theorem trySchedule_eq_some {decision : Option Decision} (scheduled : s.trySchedule = some (after, decision)) :
    SameShape s after ∧
      ((decision = none ∧ after.entries = s.entries) ∨
        ∃ index < s.instanceCount, ∃ lane < s.executorLaneCount,
          (s.entries index).state = .ready ∧ s.occupied lane = false ∧
            decision = some ⟨(s.entries index).invocation, lane⟩ ∧
            after.entries =
              Function.update s.entries index
                { s.entries index with
                  executorLaneIndex := lane
                  state := .active }) := by
  simp only [trySchedule] at scheduled
  split at scheduled
  · cases scheduled
  split at scheduled
  · obtain ⟨rfl, rfl⟩ := Prod.mk.inj (Option.some.inj scheduled)
    exact ⟨⟨rfl, rfl⟩, .inl ⟨rfl, rfl⟩⟩
  next found =>
  split at scheduled
  · split at scheduled
    · cases scheduled
    · next unsentinel =>
      obtain ⟨⟨admitted, made⟩, admission, eq⟩ := Option.map_eq_some_iff.mp scheduled
      obtain ⟨rfl, rfl⟩ := Prod.mk.inj eq
      obtain ⟨sameEntries, sameCount, sameLanes⟩ := select_entries (s := s)
      simp only [admitEntry, sameEntries] at admission
      split at admission
      · cases admission
      · next checked =>
        simp only [ne_eq, not_or, not_not] at checked
        obtain ⟨rfl, rfl⟩ := Prod.mk.inj (Option.some.inj admission)
        obtain ⟨bound, idle⟩ := findIdleLane_idle found
        have le := select_le (s := s)
        refine ⟨⟨sameCount, sameLanes⟩, .inr ⟨s.select.1, by omega, s.findIdleLane, bound, checked.1, idle, rfl, ?_⟩⟩
        simp [sameEntries]
  · obtain ⟨rfl, rfl⟩ := Prod.mk.inj (Option.some.inj scheduled)
    exact ⟨⟨rfl, rfl⟩, .inl ⟨rfl, rfl⟩⟩

theorem trySchedule_eq_none (scheduled : s.trySchedule = some (after, none)) :
    SameShape s after ∧ after.entries = s.entries := by
  obtain ⟨shape, ⟨-, same⟩ | ⟨_, _, _, _, _, _, impossible, _⟩⟩ := trySchedule_eq_some scheduled
  · exact ⟨shape, same⟩
  · cases impossible

theorem activeDecision_eq_some {index : Nat} {decision : Decision} (active : s.activeDecision index = some decision) :
    (s.entries index).state = .active ∧ (s.entries index).invocation = decision.invocation ∧
      (s.entries index).executorLaneIndex = decision.executorLaneIndex := by
  simp only [activeDecision] at active
  split at active
  · next state =>
    obtain rfl := Option.some.inj active
    exact ⟨state, rfl, rfl⟩
  · cases active

theorem release_eq_some {key : InvocationKey} {lane : Nat} (released : s.release key lane = some after) :
    SameShape s after ∧ (s.entries key.instanceIndex).state = .active ∧
      (s.entries key.instanceIndex).invocation.key = key ∧
      (s.entries key.instanceIndex).executorLaneIndex = lane ∧
      after.entries =
        Function.update s.entries key.instanceIndex
          { invocation := default
            completedSequence := key.invocationSequence
            readyTicket := 0
            executorLaneIndex := 0
            state := .idle } := by
  simp only [release] at released
  split at released
  · cases released
  · next passed =>
    simp only [not_or, ne_eq, not_not] at passed
    obtain ⟨-, -, -, active, same, lane⟩ := passed
    obtain rfl := Option.some.inj released
    exact ⟨⟨rfl, rfl⟩, active, same, lane, rfl⟩

/-! ## When the operations do not abort -/

/-- The FIFO ticket moves by one with each enqueued invocation. -/
theorem enqueue_fifo {invocation : Invocation} {ticket nextTicket : Nat} (fifo : after.policy = .fifo nextTicket)
    (enqueued : s.enqueue invocation = some (after, ticket)) :
    ∃ before, s.policy = .fifo before ∧ ticket = nextTicket ∧ nextTicket = (before + 1) % 2 ^ 64 ∧ nextTicket ≠ 0 := by
  simp only [enqueue] at enqueued
  split at enqueued
  · cases enqueued
  split at enqueued
  · next before policy =>
    split at enqueued
    · cases enqueued
    · next unwrapped =>
      obtain ⟨rfl, rfl⟩ := Prod.mk.inj (Option.some.inj enqueued)
      cases fifo
      exact ⟨before, policy, rfl, rfl, unwrapped⟩
  · next generator policy =>
    obtain ⟨rfl, rfl⟩ := Prod.mk.inj (Option.some.inj enqueued)
    exact absurd (policy.symm.trans fifo) (by simp)

theorem enqueue_isSome {invocation : Invocation} (valid : invocation.valid)
    (bound : invocation.key.instanceIndex < s.instanceCount)
    (idle : (s.entries invocation.key.instanceIndex).state = .idle)
    (unwrapped : (s.entries invocation.key.instanceIndex).completedSequence ≠ maxSequence)
    (sequence :
      invocation.key.invocationSequence = (s.entries invocation.key.instanceIndex).completedSequence + 1)
    (tickets : ∀ nextTicket, s.policy = .fifo nextTicket → (nextTicket + 1) % 2 ^ 64 ≠ 0) :
    s.enqueue invocation ≠ none := by
  simp only [enqueue]
  split
  · next failed =>
    rcases failed with invalid | out | busy | wrapped | skipped
    · simp [valid] at invalid
    · omega
    · exact absurd idle busy
    · exact absurd wrapped unwrapped
    · exact absurd sequence skipped
  · split
    · next nextTicket fifo =>
      rw [if_neg (tickets nextTicket fifo)]
      simp
    · simp

theorem select_fifo {nextTicket : Nat} (fifo : s.select.2.policy = .fifo nextTicket) : s.policy = .fifo nextTicket := by
  simp only [select] at fifo
  split at fifo
  · exact fifo
  · cases fifo

/-- Scheduling takes no ticket. -/
theorem trySchedule_fifo {decision : Option Decision} {nextTicket : Nat} (fifo : after.policy = .fifo nextTicket)
    (scheduled : s.trySchedule = some (after, decision)) : s.policy = .fifo nextTicket := by
  simp only [trySchedule] at scheduled
  split at scheduled
  · cases scheduled
  split at scheduled
  · obtain ⟨rfl, -⟩ := Prod.mk.inj (Option.some.inj scheduled)
    exact fifo
  split at scheduled
  · split at scheduled
    · cases scheduled
    · obtain ⟨⟨admitted, made⟩, admission, eq⟩ := Option.map_eq_some_iff.mp scheduled
      obtain ⟨rfl, -⟩ := Prod.mk.inj eq
      simp only [admitEntry] at admission
      split at admission
      · cases admission
      · obtain ⟨rfl, -⟩ := Prod.mk.inj (Option.some.inj admission)
        exact select_fifo fifo
  · obtain ⟨rfl, -⟩ := Prod.mk.inj (Option.some.inj scheduled)
    exact fifo

theorem release_policy {key : InvocationKey} {lane : Nat} (released : s.release key lane = some after) :
    after.policy = s.policy := by
  simp only [release] at released
  split at released
  · cases released
  · obtain rfl := Option.some.inj released
    rfl

/-- A selection loop that starts at its sentinel and moves only to Ready entries
ends at a Ready entry if it moves at all. -/
theorem foldl_ready {α : Type*} (selected : α → Nat) (visit : α → Nat → α)
    (moves : ∀ a index, selected (visit a index) = selected a ∨ (selected (visit a index) = index ∧ s.isReady index))
    (indices : List Nat) (start : α) (ready : selected start ≠ s.instanceCount → s.isReady (selected start)) :
    selected (indices.foldl visit start) ≠ s.instanceCount → s.isReady (selected (indices.foldl visit start)) := by
  induction indices generalizing start with
  | nil => exact ready
  | cons index rest ih =>
    apply ih
    rcases moves start index with same | ⟨moved, isReady⟩
    · rw [same]
      exact ready
    · rw [moved]
      exact fun _ => isReady

/-- A selection loop leaves its sentinel at the first index that it accepts there. -/
theorem foldl_leaves {α : Type*} (selected : α → Nat) (visit : α → Nat → α) (sentinel : α → Prop) {target : Nat}
    (stays : ∀ a index, index ≠ s.instanceCount → selected a ≠ s.instanceCount → selected (visit a index) ≠ s.instanceCount)
    (keeps :
      ∀ a index, index ≠ s.instanceCount → sentinel a →
        sentinel (visit a index) ∨ selected (visit a index) ≠ s.instanceCount)
    (accepts : ∀ a, sentinel a → selected (visit a target) ≠ s.instanceCount) (indices : List Nat)
    (range : ∀ index ∈ indices, index ≠ s.instanceCount) (member : target ∈ indices) (start : α)
    (starts : sentinel start ∨ selected start ≠ s.instanceCount) : selected (indices.foldl visit start) ≠ s.instanceCount := by
  have left : ∀ (indices : List Nat) (start : α), (∀ index ∈ indices, index ≠ s.instanceCount) →
      selected start ≠ s.instanceCount → selected (indices.foldl visit start) ≠ s.instanceCount := by
    intro indices
    induction indices with
    | nil => exact fun _ _ left => left
    | cons index rest ih =>
      intro start range left
      exact ih _ (fun i member => range i (List.mem_cons_of_mem _ member)) (stays _ _ (range index List.mem_cons_self) left)
  induction indices generalizing start with
  | nil => cases member
  | cons index rest ih =>
    have rangeRest : ∀ i ∈ rest, i ≠ s.instanceCount := fun i member => range i (List.mem_cons_of_mem _ member)
    simp only [List.foldl_cons]
    rcases starts with atSentinel | away
    · by_cases here : index = target
      · subst here
        exact left rest _ rangeRest (accepts _ atSentinel)
      · have later : target ∈ rest := by simpa [Ne.symm here] using member
        exact ih rangeRest later _ (keeps _ _ (range index List.mem_cons_self) atSentinel)
    · exact left rest _ rangeRest (stays _ _ (range index List.mem_cons_self) away)

theorem select_ready (chosen : s.select.1 ≠ s.instanceCount) : s.isReady s.select.1 := by
  simp only [select] at chosen ⊢
  split at chosen
  · next fifo =>
    refine foldl_ready Prod.fst _ ?_ _ _ (fun away => absurd rfl away) chosen
    rintro ⟨selected, ticket⟩ index
    simp only
    split
    · next accepted =>
      simp only [Bool.and_eq_true] at accepted
      exact .inr ⟨rfl, accepted.1⟩
    · exact .inl rfl
  · next generator random =>
    refine foldl_ready Prod.fst _ ?_ _ _ (fun away => absurd rfl away) chosen
    rintro ⟨selected, score, generator⟩ index
    simp only
    split
    · next isReady =>
      split
      · exact .inr ⟨rfl, isReady⟩
      · exact .inl rfl
    · exact .inl rfl

theorem select_ne {target : Nat} (bound : target < s.instanceCount) (isReady : s.isReady target)
    (ticket : ∀ nextTicket, s.policy = .fifo nextTicket → (s.entries target).readyTicket < maxSequence) :
    s.select.1 ≠ s.instanceCount := by
  have range : ∀ index ∈ List.range s.instanceCount, index ≠ s.instanceCount := by
    intro index member
    have := List.mem_range.mp member
    omega
  have member : target ∈ List.range s.instanceCount := List.mem_range.mpr bound
  simp only [select]
  split
  · next nextTicket fifo =>
    have below := ticket nextTicket fifo
    refine foldl_leaves Prod.fst _ (fun a : Nat × Nat => a.2 = maxSequence) ?_ ?_ ?_ _ range member _ (.inl rfl)
    · rintro ⟨selected, ticket⟩ index inRange away
      simp only
      split
      · exact inRange
      · exact away
    · rintro ⟨selected, ticket⟩ index inRange rfl
      simp only
      split
      · exact .inr inRange
      · exact .inl rfl
    · rintro ⟨selected, ticket⟩ rfl
      simp only [isReady, below, decide_true, Bool.and_self, if_true]
      omega
  · next generator random =>
    refine foldl_leaves Prod.fst _ (fun a => a.1 = s.instanceCount) ?_ ?_ ?_ _ range member _ (.inl rfl)
    · rintro ⟨selected, score, generator⟩ index inRange away
      simp only
      split
      · split
        · exact inRange
        · exact away
      · exact away
    · rintro ⟨selected, score, generator⟩ index inRange rfl
      simp only
      split
      · rw [if_pos (Or.inl trivial)]
        exact .inr inRange
      · exact .inl rfl
    · rintro ⟨selected, score, generator⟩ rfl
      simp only [isReady, if_true, true_or]
      omega

theorem trySchedule_isSome (instances : s.instanceCount ≠ 0) (lanes : s.executorLaneCount ≠ 0)
    (tickets :
      ∀ nextTicket, s.policy = .fifo nextTicket →
        ∀ index, (s.entries index).state = .ready → (s.entries index).readyTicket < maxSequence) :
    s.trySchedule ≠ none := by
  simp only [trySchedule]
  rw [if_neg (by simp [instances, lanes])]
  split
  · simp
  next found =>
  split
  · next anyReady =>
    obtain ⟨target, member, isReady⟩ := List.any_eq_true.mp anyReady
    have chosen := select_ne (List.mem_range.mp member) isReady fun nextTicket fifo =>
      tickets nextTicket fifo target (by simpa [Scheduler.isReady] using isReady)
    rw [if_neg chosen]
    have isReady := select_ready chosen
    obtain ⟨same, shape⟩ := select_entries (s := s)
    have free := (findIdleLane_idle found).1
    simp only [ne_eq, Option.map_eq_none_iff, admitEntry, same, shape.executorLaneCount]
    rw [if_neg]
    · simp
    · simp only [Scheduler.isReady, decide_eq_true_eq] at isReady
      simp [isReady, free]
  · simp

end Scheduler

end CrossPool.Fabric
