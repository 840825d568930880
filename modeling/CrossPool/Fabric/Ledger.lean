import Mathlib.Data.List.GetD
import CrossPool.Fabric.Failure

/-!
# Ledgers of a Fabric generation

What each party has on record about its own progress: the home copies of its
publications, the submissions and acknowledgements of a rank, and the leases and
commits of the Coordinator. None of it depends on what other parties have seen.
-/

namespace CrossPool.Fabric

open CrossPool.Lib

/-! ## Group membership -/

namespace Topology

variable {T : Topology} {i r r' layer pe lane : Nat}

theorem instance_valid (i : Nat) :
    T.instanceEntry i = default ∨ (T.instanceEntry i).validate T.atnagentCount T.ffnagentCount := by
  by_cases bound : i < T.instances.length
  · right
    have valid := T.valid
    simp only [ArenaProjection.validate, Bool.and_eq_true, List.all_eq_true] at valid
    apply valid.2
    rw [instanceEntry, List.getD_eq_getElem _ _ bound]
    exact List.getElem_mem bound
  · left
    exact List.getD_eq_default _ _ (by omega)

theorem layer_validate {layer : Nat} (bound : layer < (T.instanceEntry i).layers.length) :
    (T.layerEntry i layer).validate (T.instanceEntry i).ffnTpSize T.ffnagentCount := by
  rcases instance_valid (T := T) i with missing | valid
  · have empty : (default : Instance).layers = [] := rfl
    simp [missing, empty] at bound
  · simp only [Instance.validate, Bool.and_eq_true, List.all_eq_true] at valid
    apply valid.2
    rw [layerEntry, List.getD_eq_getElem _ _ bound]
    exact List.getElem_mem bound

theorem layer_valid (i layer : Nat) :
    T.layerEntry i layer = default ∨ (T.layerEntry i layer).validate (T.instanceEntry i).ffnTpSize T.ffnagentCount := by
  by_cases bound : layer < (T.instanceEntry i).layers.length
  · exact .inr (layer_validate bound)
  · exact .inl (List.getD_eq_default _ _ (by omega))

theorem atnagentPes_nodup : (T.atnagentPes i).Nodup := by
  rcases instance_valid (T := T) i with missing | valid
  · have empty : (default : Instance).atnagentIndices = [] := rfl
    simp [atnagentPes, missing, empty]
  · simp only [Instance.validate, Bool.and_eq_true, decide_eq_true_eq] at valid
    exact valid.1.1.2

theorem atnagentPes_lt (member : pe ∈ T.atnagentPes i) : pe < T.atnagentCount := by
  rcases instance_valid (T := T) i with missing | valid
  · have empty : (default : Instance).atnagentIndices = [] := rfl
    simp [atnagentPes, missing, empty] at member
  · simp only [Instance.validate, Bool.and_eq_true, List.all_eq_true, decide_eq_true_eq] at valid
    exact valid.1.1.1.2 pe member

theorem atnagentPes_ne_nil (bound : i < T.instanceCount) : T.atnagentPes i ≠ [] := by
  have valid := T.valid
  simp only [ArenaProjection.validate, Bool.and_eq_true, List.all_eq_true] at valid
  have own := valid.2 _ (List.getElem_mem bound)
  simp only [Instance.validate, Bool.and_eq_true, decide_eq_true_eq] at own
  have entry : T.instanceEntry i = T.instances[i] := List.getD_eq_getElem _ _ bound
  intro empty
  rw [atnagentPes, entry] at empty
  have size := own.1.1.1.1.2
  rw [empty] at size
  rcases Nat.mul_eq_zero.mp size with zero | zero
  · exact absurd zero own.1.1.1.1.1.1.1.2
  · exact absurd zero own.1.1.1.1.1.1.2

theorem ffnagentPes_nodup : (T.ffnagentPes i layer).Nodup := by
  apply List.Nodup.map (fun a b same => by simpa using same)
  rcases layer_valid (T := T) i layer with missing | valid
  · have empty : (default : Layer).ffnagentIndices = [] := rfl
    simp [missing, empty]
  · simp only [Layer.validate, Bool.and_eq_true, decide_eq_true_eq] at valid
    exact valid.1.2

theorem ffnagentPes_range (member : pe ∈ T.ffnagentPes i layer) : T.atnagentCount ≤ pe ∧ pe < T.peCount := by
  obtain ⟨index, found, rfl⟩ := List.mem_map.mp member
  rcases layer_valid (T := T) i layer with missing | valid
  · have empty : (default : Layer).ffnagentIndices = [] := rfl
    simp [missing, empty] at found
  · simp only [Layer.validate, Bool.and_eq_true, List.all_eq_true, decide_eq_true_eq] at valid
    have := valid.1.1.2 index found
    simp only [peCount]
    omega

theorem isRank_iff : T.isRank i r ↔ i < T.instanceCount ∧ r < (T.atnagentPes i).length := by
  simp [isRank]

theorem isLane_iff : T.isLane pe lane ↔ T.atnagentCount ≤ pe ∧ pe < T.peCount ∧ lane < T.executorLaneCount := by
  simp [isLane, and_assoc]

theorem atnagentPe_mem (rank : T.isRank i r) : T.atnagentPe i r ∈ T.atnagentPes i := by
  have bound := (isRank_iff.mp rank).2
  rw [atnagentPe, List.getD_eq_getElem _ _ bound]
  exact List.getElem_mem bound

theorem exists_rank (bound : i < T.instanceCount) (member : pe ∈ T.atnagentPes i) :
    ∃ r, T.isRank i r ∧ T.atnagentPe i r = pe := by
  obtain ⟨r, lt, rfl⟩ := List.mem_iff_getElem.mp member
  exact ⟨r, isRank_iff.mpr ⟨bound, lt⟩, by rw [atnagentPe, List.getD_eq_getElem _ _ lt]⟩

theorem atnagentPe_ne (rank : T.isRank i r) : T.atnagentPe i r ≠ T.coordinatorPe := by
  have := atnagentPes_lt (atnagentPe_mem rank)
  rw [coordinatorPe]
  omega

theorem atnagentPe_inj (rank : T.isRank i r) (rank' : T.isRank i r') (same : T.atnagentPe i r = T.atnagentPe i r') :
    r = r' := by
  have bound := (isRank_iff.mp rank).2
  have bound' := (isRank_iff.mp rank').2
  rw [atnagentPe, atnagentPe, List.getD_eq_getElem _ _ bound, List.getD_eq_getElem _ _ bound'] at same
  exact (atnagentPes_nodup (T := T) (i := i)).getElem_inj_iff.mp same

theorem coordinatorPe_not_mem : T.coordinatorPe ∉ T.atnagentPes i := by
  intro member
  have := atnagentPes_lt member
  rw [coordinatorPe] at this
  omega

end Topology

/-! ## Slots -/

section Slots

variable {T : Topology} {k k' : Control} {pe pe' : Nat} {slot slot' : Slot}

@[simp] theorem Control.setSlot_same (channel : Channel slot.Record Empty) :
    (k.setSlot pe slot channel).slots pe slot = channel := by
  simp [Control.setSlot]

theorem Control.setSlot_of_pe_ne (channel : Channel slot.Record Empty) (other : pe' ≠ pe) :
    (k.setSlot pe slot channel).slots pe' = k.slots pe' := by
  simp [Control.setSlot, other]

theorem Control.setSlot_of_slot_ne (channel : Channel slot.Record Empty) (other : slot' ≠ slot) :
    (k.setSlot pe slot channel).slots pe' slot' = k.slots pe' slot' := by
  by_cases same : pe' = pe
  · subst same
    simp [Control.setSlot, other]
  · rw [Control.setSlot_of_pe_ne _ same]

/-- A put changes no record when it starts. -/
theorem Control.publish_record (source destination : Nat) :
    ((k.publish source destination slot).slots pe slot').record = (k.slots pe slot').record := by
  by_cases same : slot' = slot
  · subst same
    by_cases here : pe = destination
    · subst here
      rw [Control.publish, Control.setSlot_same]
      rfl
    · rw [Control.publish, Control.setSlot_of_pe_ne _ here]
  · rw [Control.publish, Control.setSlot_of_slot_ne _ same]

/-- The PE that writes a slot's record. -/
def Slot.home (T : Topology) : Slot → Nat
  | submission source _ => source
  | admission _ => T.coordinatorPe
  | laneExecution _ => T.coordinatorPe
  | ffnAgentCompletion source _ => source
  | outputCommit _ => T.coordinatorPe
  | outputAcknowledgement source _ => source

/-- What one event does to the publications. -/
inductive SlotStep (T : Topology) (k k' : Control) : Prop where
  | same (slots : k'.slots = k.slots)
  | deliver (destination : Nat) (slot : Slot) (delivery : Delivery slot.Record)
      (channel : Channel slot.Record Empty) (written : Option Empty)
      (delivered : (k.slots destination slot).deliver publicationSequence delivery = some (channel, written))
      (slots : k'.slots = (k.setSlot destination slot channel).slots)
  | store (slot : Slot) (record : slot.Record) (slots : k'.slots = (k.store (slot.home T) slot record).slots)
  | publish (slot : Slot) (destination : Nat) (slots : k'.slots = (k.publish (slot.home T) destination slot).slots)
  | put (slot : Slot) (record : slot.Record) (destination : Nat)
      (slots : k'.slots = ((k.store (slot.home T) slot record).publish (slot.home T) destination slot).slots)

theorem ControlStep.slots (step : ControlStep T k k') : SlotStep T k k' := by
  cases step with
  | same => exact .same rfl
  | deliver destination slot delivery channel written delivered =>
    exact .deliver destination slot delivery channel written delivered rfl
  | coordinator _ effect =>
    cases effect with
    | rest => exact .same rfl
    | reschedule => exact .same rfl
    | enqueue => exact .same rfl
    | completed => exact .same rfl
    | proceed => exact .same rfl
    | commit index => exact .store (.outputCommit index) _ rfl
    | publishCommit index destination => exact .publish (.outputCommit index) destination rfl
    | release => exact .same rfl
    | schedule => exact .same rfl
    | writeAdmission invocation => exact .store (.admission invocation.key.instanceIndex) _ rfl
    | publishAdmission invocation _ _ destination =>
      exact .publish (.admission invocation.key.instanceIndex) destination rfl
    | admitted => exact .same rfl
    | writeLaneExecution _ lane => exact .store (.laneExecution lane) _ rfl
    | publishLaneExecution _ lane destination => exact .publish (.laneExecution lane) destination rfl
  | atnagent i r _ _ effect =>
    cases effect with
    | stay => exact .same rfl
    | move => exact .same rfl
    | refuse => exact .same rfl
    | request => exact .same rfl
    | submit => exact .put (.submission (T.atnagentPe i r) i) _ T.coordinatorPe rfl
    | admitted => exact .same rfl
    | acknowledge => exact .put (.outputAcknowledgement (T.atnagentPe i r) i) _ T.coordinatorPe rfl
  | lane p ℓ _ _ effect =>
    cases effect with
    | stay => exact .same rfl
    | move => exact .same rfl
    | observe => exact .same rfl
    | stage => exact .store (.ffnAgentCompletion p ℓ) _ rfl
    | complete => exact .publish (.ffnAgentCompletion p ℓ) T.coordinatorPe rfl

/-- No put from elsewhere is on its way to a record's home. -/
def Homes (T : Topology) (k : Control) : Prop :=
  ∀ slot : Slot, (k.slots (slot.home T) slot).Home

theorem Homes.setSlot (homes : Homes T k) {channel : Channel slot.Record Empty} (home : pe = slot.home T → channel.Home)
    (slots : k'.slots = (k.setSlot pe slot channel).slots) : Homes T k' := by
  intro slot'
  rw [slots]
  by_cases same : slot' = slot
  · subst same
    by_cases here : slot'.home T = pe
    · subst here
      rw [Control.setSlot_same]
      exact home rfl
    · rw [Control.setSlot_of_pe_ne _ here]
      exact homes slot'
  · rw [Control.setSlot_of_slot_ne _ same]
    exact homes slot'

theorem Homes.store (homes : Homes T k) (slot : Slot) (record : slot.Record) :
    Homes T (k.store (slot.home T) slot record) := by
  have home : ((k.slots (slot.home T) slot).store record).Home := homes slot
  exact homes.setSlot (fun _ => home) rfl

theorem Homes.publish (homes : Homes T k) (slot : Slot) (destination : Nat) :
    Homes T (k.publish (slot.home T) destination slot) := by
  apply homes.setSlot _ rfl
  rintro rfl
  apply (homes slot).send
  simp

theorem SlotStep.homes (step : SlotStep T k k') (homes : Homes T k) : Homes T k' := by
  cases step with
  | same slots =>
    intro slot
    rw [slots]
    exact homes slot
  | deliver destination slot delivery channel written delivered slots =>
    apply homes.setSlot _ slots
    rintro rfl
    exact ((homes slot).deliver delivered).1
  | store slot record slots =>
    intro slot'
    rw [slots]
    exact homes.store slot record slot'
  | publish slot destination slots =>
    intro slot'
    rw [slots]
    exact homes.publish slot destination slot'
  | put slot record destination slots =>
    intro slot'
    rw [slots]
    exact (homes.store slot record).publish slot destination slot'

theorem reachable_homes {V : Type} {K : Kernels V} {policy : PolicyState} {s : State V}
    (reached : (T.fabric K policy).Reachable s) : Homes T s.control := by
  apply System.ReachableUnder.invariant ?_ ?_ reached
  · rintro s ⟨memory, rfl⟩ slot p member
    simp [Topology.create, Channel.create] at member
  · intro s event t _ homes _ taken
    exact (next_control taken).slots.homes homes

/-- What a delivery does to one channel. -/
theorem Control.setSlot_delivered {destination : Nat} {delivery : Delivery slot.Record}
    {channel : Channel slot.Record Empty} {written : Option Empty}
    (delivered : (k.slots destination slot).deliver publicationSequence delivery = some (channel, written)) (pe : Nat)
    (slot' : Slot) :
    (k.setSlot destination slot channel).slots pe slot' = k.slots pe slot' ∨
      ∃ delivery written,
        (k.slots pe slot').deliver publicationSequence delivery =
          some ((k.setSlot destination slot channel).slots pe slot', written) := by
  by_cases here : pe = destination
  · subst here
    by_cases same : slot' = slot
    · subst same
      rw [Control.setSlot_same]
      exact .inr ⟨delivery, written, delivered⟩
    · exact .inl (Control.setSlot_of_slot_ne _ same)
  · left
    rw [Control.setSlot_of_pe_ne _ here]

/-- The record at its home is changed by nobody else's event. -/
theorem Homes.deliver_record (homes : Homes T k) {destination : Nat} {delivery : Delivery slot.Record}
    {channel : Channel slot.Record Empty} {written : Option Empty}
    (delivered : (k.slots destination slot).deliver publicationSequence delivery = some (channel, written)) (slot' : Slot) :
    ((k.setSlot destination slot channel).slots (slot'.home T) slot').record = (k.slots (slot'.home T) slot').record := by
  rcases Control.setSlot_delivered delivered (slot'.home T) slot' with same | ⟨delivery, written, delivered⟩
  · rw [same]
  · exact ((homes slot').deliver delivered).2

end Slots

/-! ## What a party leaves alone -/

/-- The slots that the Coordinator writes. -/
def Slot.coordinated : Slot → Bool
  | admission _ => true
  | laneExecution _ => true
  | outputCommit _ => true
  | _ => false

section Frames

variable {T : Topology} {k k' : Control} {i r p ℓ : Nat}

structure CoordinatorFrame (k k' : Control) : Prop where
  atnagents : k'.atnagents = k.atnagents
  lanes : k'.lanes = k.lanes
  submissions : k'.submissions = k.submissions
  completions : k'.completions = k.completions
  acknowledgements : k'.acknowledgements = k.acknowledgements
  slots : ∀ pe slot, slot.coordinated = false → k'.slots pe slot = k.slots pe slot

structure AtnAgentsFrame (T : Topology) (k : Control) (i r : Nat) (k' : Control) : Prop where
  scheduler : k'.scheduler = k.scheduler
  coordinator : k'.coordinator = k.coordinator
  lanes : k'.lanes = k.lanes
  leases : k'.leases = k.leases
  completions : k'.completions = k.completions
  atnagents : ∀ i' r', ¬(i' = i ∧ r' = r) → k'.atnagents i' r' = k.atnagents i' r'
  submissions : ∀ i' r', ¬(i' = i ∧ r' = r) → k'.submissions i' r' = k.submissions i' r'
  acknowledgements : ∀ i' r', ¬(i' = i ∧ r' = r) → k'.acknowledgements i' r' = k.acknowledgements i' r'
  slots :
    ∀ pe slot, slot ≠ .submission (T.atnagentPe i r) i → slot ≠ .outputAcknowledgement (T.atnagentPe i r) i →
      k'.slots pe slot = k.slots pe slot

structure LanesFrame (k : Control) (p ℓ : Nat) (k' : Control) : Prop where
  scheduler : k'.scheduler = k.scheduler
  coordinator : k'.coordinator = k.coordinator
  atnagents : k'.atnagents = k.atnagents
  leases : k'.leases = k.leases
  submissions : k'.submissions = k.submissions
  acknowledgements : k'.acknowledgements = k.acknowledgements
  lanes : ∀ p' ℓ', ¬(p' = p ∧ ℓ' = ℓ) → k'.lanes p' ℓ' = k.lanes p' ℓ'
  completions : ∀ p' ℓ', ¬(p' = p ∧ ℓ' = ℓ) → k'.completions p' ℓ' = k.completions p' ℓ'
  slots : ∀ pe slot, slot ≠ .ffnAgentCompletion p ℓ → k'.slots pe slot = k.slots pe slot

theorem CoordinatorControl.frame (effect : CoordinatorControl T k k') : CoordinatorFrame k k' := by
  have other : ∀ {slot : Slot} (pe pe' : Nat) (slot' : Slot) (channel : Channel slot.Record Empty), slot.coordinated →
      slot'.coordinated = false → (k.setSlot pe slot channel).slots pe' slot' = k.slots pe' slot' := by
    intro slot pe pe' slot' channel coordinated uncoordinated
    apply Control.setSlot_of_slot_ne
    rintro rfl
    simp [uncoordinated] at coordinated
  cases effect with
  | rest => exact ⟨rfl, rfl, rfl, rfl, rfl, fun _ _ _ => rfl⟩
  | reschedule => exact ⟨rfl, rfl, rfl, rfl, rfl, fun _ _ _ => rfl⟩
  | enqueue => exact ⟨rfl, rfl, rfl, rfl, rfl, fun _ _ _ => rfl⟩
  | completed => exact ⟨rfl, rfl, rfl, rfl, rfl, fun _ _ _ => rfl⟩
  | proceed => exact ⟨rfl, rfl, rfl, rfl, rfl, fun _ _ _ => rfl⟩
  | commit => exact ⟨rfl, rfl, rfl, rfl, rfl, fun pe slot => other _ pe slot _ rfl⟩
  | publishCommit => exact ⟨rfl, rfl, rfl, rfl, rfl, fun pe slot => other _ pe slot _ rfl⟩
  | release => exact ⟨rfl, rfl, rfl, rfl, rfl, fun _ _ _ => rfl⟩
  | schedule => exact ⟨rfl, rfl, rfl, rfl, rfl, fun _ _ _ => rfl⟩
  | writeAdmission => exact ⟨rfl, rfl, rfl, rfl, rfl, fun pe slot => other _ pe slot _ rfl⟩
  | publishAdmission => exact ⟨rfl, rfl, rfl, rfl, rfl, fun pe slot => other _ pe slot _ rfl⟩
  | admitted => exact ⟨rfl, rfl, rfl, rfl, rfl, fun _ _ _ => rfl⟩
  | writeLaneExecution => exact ⟨rfl, rfl, rfl, rfl, rfl, fun pe slot => other _ pe slot _ rfl⟩
  | publishLaneExecution => exact ⟨rfl, rfl, rfl, rfl, rfl, fun pe slot => other _ pe slot _ rfl⟩

theorem AtnAgentControl.frame (effect : AtnAgentControl T k i r k') : AtnAgentsFrame T k i r k' := by
  have put : ∀ {slot slot' : Slot} (record : slot.Record) (pe : Nat), slot' ≠ slot →
      ((k.store (T.atnagentPe i r) slot record).publish (T.atnagentPe i r) T.coordinatorPe slot).slots pe slot' =
        k.slots pe slot' := by
    intro slot slot' record pe ne
    rw [Control.publish, Control.setSlot_of_slot_ne _ ne, Control.store, Control.setSlot_of_slot_ne _ ne]
  cases effect with
  | stay => exact ⟨rfl, rfl, rfl, rfl, rfl, fun _ _ _ => rfl, fun _ _ _ => rfl, fun _ _ _ => rfl, fun _ _ _ _ => rfl⟩
  | move =>
    exact ⟨rfl, rfl, rfl, rfl, rfl, fun _ _ => update₂_of_ne _ _, fun _ _ _ => rfl, fun _ _ _ => rfl, fun _ _ _ _ => rfl⟩
  | refuse =>
    exact ⟨rfl, rfl, rfl, rfl, rfl, fun _ _ => update₂_of_ne _ _, fun _ _ _ => rfl, fun _ _ _ => rfl, fun _ _ _ _ => rfl⟩
  | request =>
    exact ⟨rfl, rfl, rfl, rfl, rfl, fun _ _ => update₂_of_ne _ _, fun _ _ _ => rfl, fun _ _ _ => rfl, fun _ _ _ _ => rfl⟩
  | submit =>
    exact ⟨rfl, rfl, rfl, rfl, rfl, fun _ _ => update₂_of_ne _ _, fun _ _ => update₂_of_ne _ _, fun _ _ _ => rfl,
      fun pe _ ne _ => put _ pe ne⟩
  | admitted =>
    exact ⟨rfl, rfl, rfl, rfl, rfl, fun _ _ => update₂_of_ne _ _, fun _ _ _ => rfl, fun _ _ _ => rfl, fun _ _ _ _ => rfl⟩
  | acknowledge =>
    exact ⟨rfl, rfl, rfl, rfl, rfl, fun _ _ => update₂_of_ne _ _, fun _ _ _ => rfl, fun _ _ => update₂_of_ne _ _,
      fun pe _ _ ne => put _ pe ne⟩

theorem LaneControl.frame (effect : LaneControl T k p ℓ k') : LanesFrame k p ℓ k' := by
  cases effect with
  | stay => exact ⟨rfl, rfl, rfl, rfl, rfl, rfl, fun _ _ _ => rfl, fun _ _ _ => rfl, fun _ _ _ => rfl⟩
  | move => exact ⟨rfl, rfl, rfl, rfl, rfl, rfl, fun _ _ => update₂_of_ne _ _, fun _ _ _ => rfl, fun _ _ _ => rfl⟩
  | observe => exact ⟨rfl, rfl, rfl, rfl, rfl, rfl, fun _ _ => update₂_of_ne _ _, fun _ _ _ => rfl, fun _ _ _ => rfl⟩
  | stage =>
    exact ⟨rfl, rfl, rfl, rfl, rfl, rfl, fun _ _ => update₂_of_ne _ _, fun _ _ _ => rfl,
      fun _ _ ne => Control.setSlot_of_slot_ne _ ne⟩
  | complete =>
    exact ⟨rfl, rfl, rfl, rfl, rfl, rfl, fun _ _ => update₂_of_ne _ _, fun _ _ => update₂_of_ne _ _,
      fun _ _ ne => Control.setSlot_of_slot_ne _ ne⟩

theorem AtnAgentControl.acknowledgements_grow (effect : AtnAgentControl T k i r k') :
    k.acknowledgements i r ⊆ k'.acknowledgements i r := by
  cases effect with
  | acknowledge => simp
  | _ => exact fun _ => id

theorem LaneControl.completions_grow (effect : LaneControl T k p ℓ k') : k.completions p ℓ ⊆ k'.completions p ℓ := by
  cases effect with
  | complete => simp
  | _ => exact fun _ => id

end Frames

/-! ## Ranks -/

/-- A rank numbers its submissions and acknowledgements from one, and has at most
one submission that it has not acknowledged. -/
structure RankLedger (T : Topology) (k : Control) (i r : Nat) : Prop where
  numbered : ∀ (n : Nat) (record : Submission), (k.submissions i r)[n]? = some record → record.key = ⟨i, n + 1⟩
  submitted :
    (k.slots (T.atnagentPe i r) (.submission (T.atnagentPe i r) i)).record = (k.submissions i r).getLastD default
  counted : k.acknowledgements i r = List.range' 1 (k.acknowledgements i r).length
  bounded :
    (k.slots T.coordinatorPe (.outputAcknowledgement (T.atnagentPe i r) i)).Bounded publicationSequence
      (k.acknowledgements i r).length
  behind :
    (k.acknowledgements i r).length ≤ (k.submissions i r).length ∧
      (k.submissions i r).length ≤ (k.acknowledgements i r).length + 1
  free :
    ((k.atnagents i r).pc = .resting ∨ (k.atnagents i r).pc = .submit) →
      (k.acknowledgements i r).length = (k.submissions i r).length
  next : (k.atnagents i r).pc = .submit → (k.atnagents i r).invocationSequence = (k.submissions i r).length + 1
  waiting :
    (k.atnagents i r).pc.submitted →
      (k.acknowledgements i r).length + 1 = (k.submissions i r).length ∧
        (k.atnagents i r).invocationSequence = (k.submissions i r).length ∧
        (k.submissions i r).getLast? = some (Topology.submissionOf (k.atnagents i r) i)

section Ranks

variable {T : Topology} {k k' : Control} {i r : Nat}

theorem RankLedger.mem_acknowledgements (ledger : RankLedger T k i r) {n : Nat} :
    n ∈ k.acknowledgements i r ↔ 1 ≤ n ∧ n ≤ (k.acknowledgements i r).length := by
  rw [ledger.counted, List.mem_range'_1]
  simp only [List.length_range']
  omega

theorem RankLedger.of_mem (ledger : RankLedger T k i r) {record : Submission} (member : record ∈ k.submissions i r) :
    record.key.instanceIndex = i ∧ 1 ≤ record.key.invocationSequence ∧
      record.key.invocationSequence ≤ (k.submissions i r).length ∧
      (k.submissions i r)[record.key.invocationSequence - 1]? = some record := by
  obtain ⟨n, found⟩ := List.getElem?_of_mem member
  have key := ledger.numbered n record found
  have bound := (List.getElem?_eq_some_iff.mp found).1
  simp only [key]
  exact ⟨trivial, by omega, by omega, found⟩

theorem RankLedger.last_sequence (ledger : RankLedger T k i r) :
    ((k.submissions i r).getLastD default).key.invocationSequence = (k.submissions i r).length := by
  rcases List.eq_nil_or_concat (k.submissions i r) with empty | ⟨front, last, eq⟩
  · rw [empty]
    rfl
  · have key := ledger.numbered front.length last (by simp [eq])
    simp [eq, key]

/-- A ledger depends on nothing but the rank's own data and its acknowledgements on
their way. -/
theorem RankLedger.frame (ledger : RankLedger T k i r) (atnagents : k'.atnagents i r = k.atnagents i r)
    (submissions : k'.submissions i r = k.submissions i r)
    (acknowledgements : k'.acknowledgements i r = k.acknowledgements i r)
    (submitted :
      (k'.slots (T.atnagentPe i r) (.submission (T.atnagentPe i r) i)).record =
        (k.slots (T.atnagentPe i r) (.submission (T.atnagentPe i r) i)).record)
    (bounded :
      (k'.slots T.coordinatorPe (.outputAcknowledgement (T.atnagentPe i r) i)).Bounded publicationSequence
        (k.acknowledgements i r).length) :
    RankLedger T k' i r := by
  obtain ⟨numbered, own, counted, _, behind, free, next, waiting⟩ := ledger
  exact
    ⟨by rwa [submissions], by rw [submitted, submissions]; exact own, by rwa [acknowledgements],
      by rwa [acknowledgements], by rwa [acknowledgements, submissions], by rwa [atnagents, acknowledgements, submissions],
      by rwa [atnagents, submissions], by rwa [atnagents, acknowledgements, submissions]⟩

theorem AtnAgentPc.not_submitted_of_failing {pc : AtnAgentPc} (failing : pc.failing) :
    pc.submitted = false ∧ pc ≠ .resting ∧ pc ≠ .submit := by
  cases pc <;> simp [AtnAgentPc.failing, AtnAgentPc.submitted, AtnAgentPc.holding] at failing ⊢

theorem AtnAgentPc.submitted_of_holding {pc : AtnAgentPc} (holding : pc.holding) :
    pc.submitted ∧ pc ≠ .resting ∧ pc ≠ .submit := by
  cases pc <;> simp [AtnAgentPc.submitted, AtnAgentPc.holding] at holding ⊢

/-- A rank that fails keeps its counts. -/
theorem RankLedger.fail (ledger : RankLedger T k i r) {pc : AtnAgentPc} (failing : pc.failing) :
    RankLedger T (k.setAtnAgent i r { k.atnagents i r with pc := pc }) i r := by
  obtain ⟨unsubmitted, running, past⟩ := AtnAgentPc.not_submitted_of_failing failing
  refine ⟨ledger.numbered, ledger.submitted, ledger.counted, ledger.bounded, ledger.behind, ?_, ?_, ?_⟩
  · simp [Control.setAtnAgent, running, past]
  · simp [Control.setAtnAgent, past]
  · simp [Control.setAtnAgent, unsubmitted]

/-- A rank that goes on with its request keeps its counts. -/
theorem RankLedger.proceed (ledger : RankLedger T k i r) {a : AtnAgent} (submitted : (k.atnagents i r).pc.submitted)
    (holding : a.pc.holding) (sequence : a.invocationSequence = (k.atnagents i r).invocationSequence)
    (context : a.context = (k.atnagents i r).context) : RankLedger T (k.setAtnAgent i r a) i r := by
  obtain ⟨-, running, past⟩ := AtnAgentPc.submitted_of_holding holding
  obtain ⟨count, number, last⟩ := ledger.waiting submitted
  refine ⟨ledger.numbered, ledger.submitted, ledger.counted, ledger.bounded, ledger.behind, ?_, ?_, ?_⟩
  · simp [Control.setAtnAgent, running, past]
  · simp [Control.setAtnAgent, past]
  · intro _
    refine ⟨count, ?_, ?_⟩
    · simpa [Control.setAtnAgent, sequence] using number
    · simpa [Control.setAtnAgent, Topology.submissionOf, AtnAgent.key, sequence, context] using last

theorem RankLedger.request (ledger : RankLedger T k i r) (resting : (k.atnagents i r).pc = .resting)
    (context : InvocationContext) :
    RankLedger T
      (k.setAtnAgent i r
        { k.atnagents i r with
          pc := .submit
          context := context
          invocationSequence :=
            (k.slots (T.atnagentPe i r) (.submission (T.atnagentPe i r) i)).record.key.invocationSequence + 1 })
      i r := by
  refine ⟨ledger.numbered, ledger.submitted, ledger.counted, ledger.bounded, ledger.behind, ?_, ?_, ?_⟩
  · intro _
    exact ledger.free (.inl resting)
  · intro _
    simp only [Control.setAtnAgent, update₂_same]
    rw [ledger.submitted, ledger.last_sequence]
  · simp [Control.setAtnAgent, AtnAgentPc.submitted, AtnAgentPc.holding]

theorem RankLedger.submit (ledger : RankLedger T k i r) (stands : (k.atnagents i r).pc = .submit)
    (atnagents : k'.atnagents i r = { k.atnagents i r with pc := .awaitAdmission })
    (submissions : k'.submissions i r = k.submissions i r ++ [Topology.submissionOf (k.atnagents i r) i])
    (acknowledgements : k'.acknowledgements i r = k.acknowledgements i r)
    (submitted :
      (k'.slots (T.atnagentPe i r) (.submission (T.atnagentPe i r) i)).record =
        Topology.submissionOf (k.atnagents i r) i)
    (bounded :
      k'.slots T.coordinatorPe (.outputAcknowledgement (T.atnagentPe i r) i) =
        k.slots T.coordinatorPe (.outputAcknowledgement (T.atnagentPe i r) i)) :
    RankLedger T k' i r := by
  have same := ledger.free (.inr stands)
  have number := ledger.next stands
  have length : (k'.submissions i r).length = (k.submissions i r).length + 1 := by simp [submissions]
  refine ⟨?_, ?_, ?_, ?_, ?_, ?_, ?_, ?_⟩
  · intro n record found
    rw [submissions] at found
    rcases Nat.lt_or_ge n (k.submissions i r).length with old | new
    · rw [List.getElem?_append_left old] at found
      exact ledger.numbered n record found
    · rw [List.getElem?_append_right new, List.getElem?_singleton] at found
      split at found
      · obtain rfl := Option.some.inj found
        simp only [Topology.submissionOf, AtnAgent.key, number]
        congr 1
        omega
      · cases found
  · rw [submitted, submissions]
    simp
  · rw [acknowledgements]
    exact ledger.counted
  · rw [bounded, acknowledgements]
    exact ledger.bounded
  · rw [acknowledgements]
    omega
  · simp [atnagents]
  · simp [atnagents]
  · intro _
    rw [acknowledgements, length, atnagents, submissions]
    exact ⟨by omega, number, by simp [Topology.submissionOf, AtnAgent.key]⟩

theorem RankLedger.acknowledge (ledger : RankLedger T k i r) (stands : (k.atnagents i r).pc = .acknowledge)
    (atnagents : k'.atnagents i r = { k.atnagents i r with pc := .resting })
    (submissions : k'.submissions i r = k.submissions i r)
    (acknowledgements : k'.acknowledgements i r = k.acknowledgements i r ++ [(k.atnagents i r).invocationSequence])
    (submitted :
      (k'.slots (T.atnagentPe i r) (.submission (T.atnagentPe i r) i)).record =
        (k.slots (T.atnagentPe i r) (.submission (T.atnagentPe i r) i)).record)
    (bounded :
      (k'.slots T.coordinatorPe (.outputAcknowledgement (T.atnagentPe i r) i)).Bounded publicationSequence
        (k.atnagents i r).invocationSequence) :
    RankLedger T k' i r := by
  obtain ⟨count, number, last⟩ := ledger.waiting (by simp [stands, AtnAgentPc.submitted, AtnAgentPc.holding])
  have length : (k'.acknowledgements i r).length = (k.acknowledgements i r).length + 1 := by simp [acknowledgements]
  refine ⟨?_, ?_, ?_, ?_, ?_, ?_, ?_, ?_⟩
  · rw [submissions]
    exact ledger.numbered
  · rw [submitted, submissions]
    exact ledger.submitted
  · rw [length, List.range'_1_concat, ← ledger.counted, acknowledgements]
    congr 2
    omega
  · exact bounded.mono (by omega)
  · rw [submissions]
    omega
  · intro _
    rw [length, submissions]
    exact count
  · simp [atnagents]
  · simp [atnagents, AtnAgentPc.submitted, AtnAgentPc.holding]

theorem AtnAgentControl.ledger (effect : AtnAgentControl T k i r k') (rank : T.isRank i r) (ledger : RankLedger T k i r) :
    RankLedger T k' i r := by
  have away := Topology.atnagentPe_ne rank
  cases effect with
  | stay => exact ledger
  | move pc running holding committed kind =>
    rcases kind with holds | failing
    · exact ledger.proceed (AtnAgentPc.submitted_of_holding (holding holds)).1 holds rfl rfl
    · exact ledger.fail failing
  | refuse pc resting failing => exact ledger.fail failing
  | request context resting resolved => exact ledger.request resting context
  | submit stands =>
    apply ledger.submit stands
    · simp
    · simp
    · rfl
    · simp only [Control.publish]
      rw [Control.setSlot_of_pe_ne _ away, Control.store, Control.setSlot_same]
      rfl
    · simp only [Control.publish]
      rw [Control.setSlot_of_slot_ne _ (by simp), Control.store, Control.setSlot_of_slot_ne _ (by simp)]
  | admitted pc stands holding uncommitted reached valid lane =>
    exact ledger.proceed (by simp [stands, AtnAgentPc.submitted]) holding rfl rfl
  | acknowledge stands =>
    obtain ⟨count, number, -⟩ := ledger.waiting (by simp [stands, AtnAgentPc.submitted, AtnAgentPc.holding])
    apply ledger.acknowledge stands
    · simp
    · rfl
    · simp
    · simp only [Control.publish]
      rw [Control.setSlot_of_slot_ne _ (by simp), Control.store, Control.setSlot_of_slot_ne _ (by simp)]
    · simp only [Control.publish]
      rw [Control.setSlot_same, Control.store, Control.setSlot_of_pe_ne _ (Ne.symm away), Control.setSlot_same]
      apply (ledger.bounded.mono (by omega)).send
      exact Nat.le_refl _

theorem ControlStep.ledger (step : ControlStep T k k') (homes : Homes T k) (rank : T.isRank i r)
    (ledger : RankLedger T k i r) : RankLedger T k' i r := by
  cases step with
  | same => exact ledger
  | deliver destination slot delivery channel written delivered =>
    apply ledger.frame
    · rfl
    · rfl
    · rfl
    · exact homes.deliver_record delivered (.submission (T.atnagentPe i r) i)
    · rcases Control.setSlot_delivered delivered T.coordinatorPe (.outputAcknowledgement (T.atnagentPe i r) i) with
        same | ⟨delivery, written, delivered⟩
      · rw [same]
        exact ledger.bounded
      · exact ledger.bounded.deliver delivered
  | coordinator _ effect =>
    have frame := effect.frame
    apply ledger.frame
    · rw [frame.atnagents]
    · rw [frame.submissions]
    · rw [frame.acknowledgements]
    · rw [frame.slots _ _ rfl]
    · rw [frame.slots _ _ rfl]
      exact ledger.bounded
  | atnagent i' r' rank' _ effect =>
    by_cases own : i = i' ∧ r = r'
    · obtain ⟨rfl, rfl⟩ := own
      exact effect.ledger rank ledger
    · have frame := effect.frame
      have other : ¬(T.atnagentPe i r = T.atnagentPe i' r' ∧ i = i') := by
        rintro ⟨same, rfl⟩
        exact own ⟨rfl, Topology.atnagentPe_inj rank rank' same⟩
      apply ledger.frame (frame.atnagents i r own) (frame.submissions i r own) (frame.acknowledgements i r own)
      · rw [frame.slots _ _ (by simpa using other) (by simp)]
      · rw [frame.slots _ _ (by simp) (by simpa using other)]
        exact ledger.bounded
  | lane p ℓ isLane _ effect =>
    have frame := effect.frame
    apply ledger.frame
    · rw [frame.atnagents]
    · rw [frame.submissions]
    · rw [frame.acknowledgements]
    · rw [frame.slots _ _ (by simp)]
    · rw [frame.slots _ _ (by simp)]
      exact ledger.bounded

theorem reachable_ledger {V : Type} {K : Kernels V} {policy : PolicyState} {s : State V}
    (reached : (T.fabric K policy).Reachable s) (rank : T.isRank i r) : RankLedger T s.control i r := by
  apply System.ReachableUnder.invariant ?_ ?_ reached
  · rintro s ⟨memory, rfl⟩
    refine ⟨?_, rfl, rfl, ⟨Nat.le_refl _, ?_⟩, ?_, ?_, ?_, ?_⟩
    all_goals simp [Topology.create, Channel.create, AtnAgentPc.submitted, AtnAgentPc.holding]
  · intro s event t reached ledger _ taken
    exact (next_control taken).ledger (reachable_homes reached) rank ledger

end Ranks

end CrossPool.Fabric
