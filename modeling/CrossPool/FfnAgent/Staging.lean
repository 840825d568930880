import Mathlib.Algebra.Order.BigOperators.Group.Finset
import Mathlib.Algebra.Order.BigOperators.Group.List
import Mathlib.Algebra.Order.Ring.Int
import CrossPool.Lib.Runs

/-!
# Staged checkpoint loading

Reader threads fill pinned slots from their shards, and the thread that owns the device copies staged
tensors out of them. Slots go round through two queues: a reader takes one from the slot queue, a message
carries it to the copying thread, which puts it back. Any step of either side may fail, and a flag
tells the readers to stop. `T` are tensors and `E` errors.
-/

namespace CrossPool.FfnAgent

open CrossPool.Lib

namespace Staging

/-! ## Threads -/

/-- The call: how many descriptors each shard has, the tensor that each of them projects, the slots and the
workers of the pool. -/
structure Call (T : Type) where
  shards : List Nat
  projected : Nat → Nat → T
  slotCount : Nat
  parallelism : Nat
  slotCount_pos : 0 < slotCount
  parallelism_pos : 0 < parallelism

/-- A `ReaderMessage` with the reader that puts it. -/
inductive Message (E : Type) where
  | staged (reader place slot : Nat)
  | failure (reader : Nat) (error : E)
  | finished (reader : Nat)
deriving DecidableEq, Repr

/-- Where `stage_shard` stands, at the descriptor `place`. -/
inductive Reader (E : Type) where
  | waiting
  | opening
  | entering (place : Nat)
  | acquiring (place : Nat)
  | polling (place : Nat)
  | reading (place slot : Nat)
  | checking (place slot : Nat)
  | filling (place slot : Nat)
  | settling (place slot : Nat)
  | staging (place slot : Nat)
  | returning (slot : Nat) (error : E)
  | failing (error : E)
  | cancelling
  | finishing
  | done
deriving DecidableEq, Repr

/-- A worker runs the reader. -/
def Reader.runs {E : Type} : Reader E → Bool
  | .waiting => false
  | .done => false
  | _ => true

/-- Where the copying thread stands; `noting` is before it sets the flag. -/
inductive Consumer where
  | submitting
  | receiving
  | copying (reader place slot : Nat)
  | noting (slot : Option Nat)
  | releasing (slot : Nat)
  | joining
  | ended
deriving DecidableEq, Repr

/-- The shared queues and the flag, all threads, what the slots hold, and as history what was copied and which
steps raised. -/
structure State (T E : Type) where
  readers : Nat → Reader E
  started : Nat
  consumer : Consumer
  submitted : Nat
  finishedReaders : Nat
  firstError : Option E
  slots : List Nat
  messages : List (Message E)
  cancelled : Bool
  contents : Nat → T
  copied : List ((Nat × Nat) × T)
  raised : List E

variable {T E : Type}

/-- What a reader's step does beyond the reader. -/
inductive Effect (T E : Type) where
  | skip
  | take (slot : Nat)
  | give (slot : Nat)
  | fill (slot : Nat) (value : T)
  | send (message : Message E)
  | cancel
  | raise (error : E)

/-- Steps of `stage_shard` for one shard of `count` descriptors, given the flag and the slot queue. A staging copy
that fails may have written anything. -/
inductive Move (projected : Nat → T) (reader count : Nat) (cancelled : Bool) (slots : List Nat) :
    Reader E → Effect T E → Reader E → Prop where
  | opened : Move projected reader count cancelled slots .opening .skip (.entering 0)
  | openFails (error : E) : Move projected reader count cancelled slots .opening (.raise error) (.failing error)
  | exhausted : Move projected reader count cancelled slots (.entering count) .skip .finishing
  | stopped {place : Nat} (within : place < count) (flagged : cancelled) :
      Move projected reader count cancelled slots (.entering place) .skip .finishing
  | entered {place : Nat} (within : place < count) (clear : cancelled = false) :
      Move projected reader count cancelled slots (.entering place) .skip (.acquiring place)
  | givenUp {place : Nat} (flagged : cancelled) :
      Move projected reader count cancelled slots (.acquiring place) .skip .finishing
  | polled {place : Nat} (clear : cancelled = false) :
      Move projected reader count cancelled slots (.acquiring place) .skip (.polling place)
  | timedOut {place : Nat} (empty : slots = []) :
      Move projected reader count cancelled slots (.polling place) .skip (.acquiring place)
  | taken {place slot : Nat} {rest : List Nat} (first : slots = slot :: rest) :
      Move projected reader count cancelled slots (.polling place) (.take slot) (.reading place slot)
  | read {place slot : Nat} :
      Move projected reader count cancelled slots (.reading place slot) .skip (.checking place slot)
  | readFails {place slot : Nat} (error : E) :
      Move projected reader count cancelled slots (.reading place slot) (.raise error) (.returning slot error)
  | checked {place slot : Nat} :
      Move projected reader count cancelled slots (.checking place slot) .skip (.filling place slot)
  | checkFails {place slot : Nat} (error : E) :
      Move projected reader count cancelled slots (.checking place slot) (.raise error) (.returning slot error)
  | filled {place slot : Nat} (garbage : T) :
      Move projected reader count cancelled slots (.filling place slot) (.fill slot garbage) (.settling place slot)
  | settled {place slot : Nat} :
      Move projected reader count cancelled slots (.settling place slot) (.fill slot (projected place)) (.staging place slot)
  | settleFails {place slot : Nat} (error : E) :
      Move projected reader count cancelled slots (.settling place slot) (.raise error) (.returning slot error)
  | staged {place slot : Nat} :
      Move projected reader count cancelled slots (.staging place slot) (.send (.staged reader place slot))
        (.entering (place + 1))
  | returned {slot : Nat} {error : E} :
      Move projected reader count cancelled slots (.returning slot error) (.give slot) (.failing error)
  | reported {error : E} :
      Move projected reader count cancelled slots (.failing error) (.send (.failure reader error)) .cancelling
  | cancelled : Move projected reader count cancelled slots .cancelling .cancel .finishing
  | finished : Move projected reader count cancelled slots .finishing (.send (.finished reader)) .done

namespace State

variable (s : State T E)

def setReader (reader : Nat) (r : Reader E) : State T E :=
  { s with readers := Function.update s.readers reader r }

def apply : Effect T E → State T E
  | .skip => s
  | .take _ => { s with slots := s.slots.tail }
  | .give slot => { s with slots := s.slots ++ [slot] }
  | .fill slot value => { s with contents := Function.update s.contents slot value }
  | .send message => { s with messages := s.messages ++ [message] }
  | .cancel => { s with cancelled := true }
  | .raise error => { s with raised := s.raised ++ [error] }

end State

namespace Call

variable (c : Call T)

def count (reader : Nat) : Nat :=
  c.shards.getD reader 0

/-- The readers that a worker runs. -/
def running (s : State T E) : Nat :=
  ((List.range c.shards.length).filter fun reader => (s.readers reader).runs).length

/-- Steps of the copying thread. -/
inductive MainStep (c : Call T) : State T E → State T E → Prop where
  | submit {s : State T E} (here : s.consumer = .submitting) (more : s.submitted < c.shards.length) :
      MainStep c s { s with submitted := s.submitted + 1 }
  | gather {s : State T E} (here : s.consumer = .submitting) (all : s.submitted = c.shards.length) :
      MainStep c s { s with consumer := .receiving }
  | finished {s : State T E} {reader : Nat} {rest : List (Message E)} (here : s.consumer = .receiving)
      (open_ : s.finishedReaders < c.shards.length) (first : s.messages = .finished reader :: rest) :
      MainStep c s { s with messages := rest, finishedReaders := s.finishedReaders + 1 }
  | firstFailure {s : State T E} {reader : Nat} {error : E} {rest : List (Message E)} (here : s.consumer = .receiving)
      (open_ : s.finishedReaders < c.shards.length) (first : s.messages = .failure reader error :: rest)
      (clean : s.firstError = none) :
      MainStep c s { s with messages := rest, firstError := some error, consumer := .noting none }
  | laterFailure {s : State T E} {reader : Nat} {error : E} {rest : List (Message E)} (here : s.consumer = .receiving)
      (open_ : s.finishedReaders < c.shards.length) (first : s.messages = .failure reader error :: rest)
      (failed : s.firstError.isSome) : MainStep c s { s with messages := rest }
  | staged {s : State T E} {reader place slot : Nat} {rest : List (Message E)} (here : s.consumer = .receiving)
      (open_ : s.finishedReaders < c.shards.length) (first : s.messages = .staged reader place slot :: rest) :
      MainStep c s { s with messages := rest, consumer := .copying reader place slot }
  | copied {s : State T E} {reader place slot : Nat} (here : s.consumer = .copying reader place slot)
      (clean : s.firstError = none) :
      MainStep c s
        { s with copied := s.copied ++ [((reader, place), s.contents slot)], consumer := .releasing slot }
  | copyFails {s : State T E} {reader place slot : Nat} {error : E} (here : s.consumer = .copying reader place slot)
      (clean : s.firstError = none) :
      MainStep c s
        { s with firstError := some error, raised := s.raised ++ [error], consumer := .noting (some slot) }
  | skipped {s : State T E} {reader place slot : Nat} (here : s.consumer = .copying reader place slot)
      (failed : s.firstError.isSome) : MainStep c s { s with consumer := .releasing slot }
  | noted {s : State T E} {slot : Option Nat} (here : s.consumer = .noting slot) :
      MainStep c s { s with cancelled := true, consumer := slot.elim .receiving .releasing }
  | released {s : State T E} {slot : Nat} (here : s.consumer = .releasing slot) :
      MainStep c s { s with slots := s.slots ++ [slot], consumer := .receiving }
  | gathered {s : State T E} (here : s.consumer = .receiving) (all : s.finishedReaders = c.shards.length) :
      MainStep c s { s with consumer := .joining }
  | joined {s : State T E} (here : s.consumer = .joining) (all : ∀ reader < c.shards.length, s.readers reader = .done) :
      MainStep c s { s with consumer := .ended }

/-- Who takes a step. -/
inductive Label where
  | main
  | start
  | reader (index : Nat)
deriving DecidableEq, Repr

/-- Steps of the whole call; the pool starts submitted readers in order while it has workers. -/
inductive Step (c : Call T) : State T E → Label → State T E → Prop where
  | main {s t : State T E} (move : c.MainStep s t) : Step c s .main t
  | start {s : State T E} (submitted : s.started < s.submitted) (free : c.running s < c.parallelism) :
      Step c s .start { s.setReader s.started .opening with started := s.started + 1 }
  | reader {s : State T E} {reader : Nat} {effect : Effect T E} {r : Reader E} (listed : reader < c.shards.length)
      (move : Move (c.projected reader) reader (c.count reader) s.cancelled s.slots (s.readers reader) effect r) :
      Step c s (.reader reader) ((s.setReader reader r).apply effect)

/-- All slots are in the queue and nothing has run. -/
structure Starts (c : Call T) (s : State T E) : Prop where
  readers : ∀ reader, s.readers reader = .waiting
  started : s.started = 0
  consumer : s.consumer = .submitting
  submitted : s.submitted = 0
  finishedReaders : s.finishedReaders = 0
  firstError : s.firstError = none
  slots : s.slots = List.range c.slotCount
  messages : s.messages = []
  cancelled : s.cancelled = false
  copied : s.copied = []
  raised : s.raised = []

/-- `copy_staged_tensors` as a transition system. -/
def system (c : Call T) : System (State T E) Label where
  init := c.Starts
  step := c.Step

end Call

/-! ## Slots -/

/-- The slot that a reader holds. -/
def Reader.held : Reader E → Option Nat
  | .reading _ slot => some slot
  | .checking _ slot => some slot
  | .filling _ slot => some slot
  | .settling _ slot => some slot
  | .staging _ slot => some slot
  | .returning slot _ => some slot
  | _ => none

def Message.held : Message E → Option Nat
  | .staged _ _ slot => some slot
  | _ => none

@[simp] theorem Message.held_staged (reader place slot : Nat) : (staged reader place slot : Message E).held = some slot := rfl

@[simp] theorem Message.held_failure (reader : Nat) (error : E) : (failure reader error).held = none := rfl

@[simp] theorem Message.held_finished (reader : Nat) : (finished reader : Message E).held = none := rfl

def Consumer.held : Consumer → Option Nat
  | .copying _ _ slot => some slot
  | .noting slot => slot
  | .releasing slot => some slot
  | _ => none

/-- One, where the holder has the thing. -/
def one {α : Type} [DecidableEq α] (held : Option α) (thing : α) : Nat :=
  if held = some thing then 1 else 0

@[simp] theorem one_none {α : Type} [DecidableEq α] (thing : α) : one none thing = 0 := rfl

theorem one_some {α : Type} [DecidableEq α] (held thing : α) : one (some held) thing = if held = thing then 1 else 0 := by
  simp [one]

/-- How often the slot is in the queue, staged in a message, held by a reader and held by the copying thread. -/
def holders (c : Call T) (s : State T E) (slot : Nat) : Nat :=
  s.slots.count slot + (s.messages.map fun message => one message.held slot).sum +
    ∑ reader ∈ Finset.range c.shards.length, one (s.readers reader).held slot + one s.consumer.held slot

section Counting

variable {c : Call T} {s t : State T E}

@[simp] theorem setReader_same (reader : Nat) (r : Reader E) : (s.setReader reader r).readers reader = r := by
  simp [State.setReader]

theorem setReader_of_ne {reader other : Nat} (r : Reader E) (apart : other ≠ reader) :
    (s.setReader reader r).readers other = s.readers other := by
  simp [State.setReader, apart]

/-- One reader's share of a sum changes. -/
theorem sum_setReader (weight : Nat → Reader E → Nat) {reader : Nat} (listed : reader < c.shards.length) (r : Reader E) :
    ∑ other ∈ Finset.range c.shards.length, weight other ((s.setReader reader r).readers other) +
        weight reader (s.readers reader) =
      ∑ other ∈ Finset.range c.shards.length, weight other (s.readers other) + weight reader r := by
  have member := Finset.mem_range.mpr listed
  rw [← Finset.add_sum_erase _ _ member, ← Finset.add_sum_erase (Finset.range c.shards.length)
    (fun other => weight other (s.readers other)) member]
  have same : ∑ other ∈ (Finset.range c.shards.length).erase reader, weight other ((s.setReader reader r).readers other) =
      ∑ other ∈ (Finset.range c.shards.length).erase reader, weight other (s.readers other) := by
    apply Finset.sum_congr rfl
    intro other among
    rw [setReader_of_ne r (Finset.ne_of_mem_erase among)]
  rw [same, setReader_same]
  omega

@[simp] theorem apply_readers (effect : Effect T E) : (s.apply effect).readers = s.readers := by
  cases effect <;> rfl

@[simp] theorem apply_consumer (effect : Effect T E) : (s.apply effect).consumer = s.consumer := by
  cases effect <;> rfl

/-- A reader's step neither makes nor loses a slot. -/
theorem Move.holds {projected : Nat → T} {reader count : Nat} {effect : Effect T E} {r r' : Reader E}
    (move : Move projected reader count s.cancelled s.slots r effect r') (slot : Nat) :
    (s.apply effect).slots.count slot + ((s.apply effect).messages.map fun message => one message.held slot).sum +
        one r'.held slot =
      s.slots.count slot + (s.messages.map fun message => one message.held slot).sum + one r.held slot := by
  cases move with
  | taken first =>
    simp only [State.apply, Reader.held, one_none, one_some, first, List.tail_cons, List.count_cons, beq_iff_eq]
    omega
  | staged =>
    simp [State.apply, Reader.held]
    omega
  | returned =>
    simp [State.apply, Reader.held, one_some, List.count_singleton]
    omega
  | _ => simp [State.apply, Reader.held]

/-- Nor does the copying thread's step. -/
theorem MainStep.holds (move : c.MainStep s t) (slot : Nat) :
    t.readers = s.readers ∧
      t.slots.count slot + (t.messages.map fun message => one message.held slot).sum + one t.consumer.held slot =
        s.slots.count slot + (s.messages.map fun message => one message.held slot).sum + one s.consumer.held slot := by
  cases move with
  | submit here more => simp [here]
  | noted here =>
    rename_i noted
    cases noted <;> simp [here, Consumer.held]
  | released here =>
    simp [here, Consumer.held, one_some, List.count_singleton]
    omega
  | finished here open_ first => simp [here, first]
  | firstFailure here open_ first clean => simp [here, first, Consumer.held]
  | laterFailure here open_ first failed => simp [here, first]
  | staged here open_ first =>
    simp [here, first, Consumer.held]
    omega
  | _ here => simp [here, Consumer.held]

end Counting

/-! ## Order -/

/-- The descriptor that a reader works at is one of its shard. -/
def Reader.Within (count : Nat) : Reader E → Prop
  | .entering place => place ≤ count
  | .acquiring place => place < count
  | .polling place => place < count
  | .reading place _ => place < count
  | .checking place _ => place < count
  | .filling place _ => place < count
  | .settling place _ => place < count
  | .staging place _ => place < count
  | _ => True

/-- Readers are submitted and started in order. -/
structure Order (c : Call T) (s : State T E) : Prop where
  started_le : s.started ≤ s.submitted
  submitted_le : s.submitted ≤ c.shards.length
  waiting : ∀ reader, s.readers reader = .waiting ↔ s.started ≤ reader
  submitted : s.consumer ≠ .submitting → s.submitted = c.shards.length
  within : ∀ reader, (s.readers reader).Within (c.count reader)

section Order

variable {c : Call T} {s t : State T E} {label : Call.Label}

theorem Move.alive {projected : Nat → T} {reader count : Nat} {cancelled : Bool} {slots : List Nat} {effect : Effect T E}
    {r r' : Reader E} (move : Move projected reader count cancelled slots r effect r') :
    r ≠ .waiting ∧ r ≠ .done ∧ r' ≠ .waiting := by
  cases move <;> simp

theorem Move.within {projected : Nat → T} {reader count : Nat} {cancelled : Bool} {slots : List Nat} {effect : Effect T E}
    {r r' : Reader E} (move : Move projected reader count cancelled slots r effect r') (before : r.Within count) :
    r'.Within count := by
  cases move with
  | opened => exact Nat.zero_le count
  | entered within clear => exact within
  | staged => exact before
  | _ => first | exact trivial | exact before

theorem apply_order (effect : Effect T E) :
    (s.apply effect).started = s.started ∧ (s.apply effect).submitted = s.submitted := by
  cases effect <;> exact ⟨rfl, rfl⟩

theorem Order.start (starts : c.Starts s) : Order c s where
  started_le := by
    rw [starts.started]
    exact Nat.zero_le _
  submitted_le := by
    rw [starts.submitted]
    exact Nat.zero_le _
  waiting := by
    intro reader
    simp [starts.readers, starts.started]
  submitted := by
    intro moved
    exact absurd starts.consumer moved
  within := by
    intro reader
    rw [starts.readers]
    exact trivial

theorem Order.step (order : Order c s) (step : c.Step s label t) : Order c t := by
  have started_le := order.started_le
  have submitted_le := order.submitted_le
  cases step with
  | main move =>
    have readers : t.readers = s.readers := (MainStep.holds move 0).1
    have order' : t.started = s.started := by
      cases move <;> rfl
    refine ⟨?_, ?_, ?_, ?_, ?_⟩
    · cases move with
      | submit here more => exact Nat.le_succ_of_le started_le
      | _ => exact started_le
    · cases move with
      | submit here more => exact more
      | _ => exact submitted_le
    · rw [readers, order']
      exact order.waiting
    · cases move with
      | submit here more =>
        intro moved
        exact absurd here moved
      | gather here all =>
        intro _
        exact all
      | _ here =>
        intro _
        exact order.submitted (by simp [here])
    · rw [readers]
      exact order.within
  | start submitted free =>
    refine ⟨submitted, submitted_le, ?_, order.submitted, ?_⟩
    · intro reader
      by_cases same : reader = s.started
      · rw [same]
        simp
      · change (s.setReader s.started .opening).readers reader = .waiting ↔ s.started + 1 ≤ reader
        rw [setReader_of_ne _ same, order.waiting]
        omega
    · intro reader
      by_cases same : reader = s.started
      · rw [same]
        change ((s.setReader s.started .opening).readers s.started).Within _
        rw [setReader_same]
        exact trivial
      · change ((s.setReader s.started .opening).readers reader).Within _
        rw [setReader_of_ne _ same]
        exact order.within reader
  | reader listed move =>
    rename_i index effect r
    obtain ⟨started, submitted⟩ := apply_order (s := s.setReader index r) effect
    obtain ⟨before, -, after⟩ := Move.alive move
    refine ⟨?_, ?_, ?_, ?_, ?_⟩
    · rw [started, submitted]
      exact started_le
    · rw [submitted]
      exact submitted_le
    · intro other
      rw [apply_readers, started]
      by_cases same : other = index
      · have running : ¬s.started ≤ index := mt (order.waiting index).mpr before
        rw [same, setReader_same]
        exact ⟨fun equal => absurd equal after, fun later => absurd later running⟩
      · rw [setReader_of_ne _ same]
        exact order.waiting other
    · rw [apply_consumer, submitted]
      exact order.submitted
    · intro other
      rw [apply_readers]
      by_cases same : other = index
      · rw [same, setReader_same]
        exact Move.within move (order.within index)
      · rw [setReader_of_ne _ same]
        exact order.within other

end Order

/-! ## One holder -/

/-- Every slot is in exactly one place. -/
def Held (c : Call T) (s : State T E) : Prop :=
  ∀ slot, holders c s slot = if slot < c.slotCount then 1 else 0

section Held

variable {c : Call T} {s t : State T E} {label : Call.Label}

theorem Held.start (starts : c.Starts s) : Held c s := by
  intro slot
  have queued : (List.range c.slotCount).count slot = if slot < c.slotCount then 1 else 0 := by
    rw [List.nodup_range.count]
    simp
  simp [holders, starts.slots, starts.messages, starts.readers, starts.consumer, queued, Reader.held, Consumer.held]

theorem holders_step (order : Order c s) (step : c.Step s label t) (slot : Nat) : holders c t slot = holders c s slot := by
  cases step with
  | main move =>
    obtain ⟨readers, same⟩ := MainStep.holds move slot
    rw [holders, holders, readers]
    omega
  | start submitted free =>
    have listed := submitted.trans_le order.submitted_le
    have waiting := (order.waiting s.started).mpr le_rfl
    have shares := sum_setReader (s := s) (fun _ r => one r.held slot) listed .opening
    rw [waiting] at shares
    change _ + one none slot = _ + one none slot at shares
    rw [one_none] at shares
    have unfolded : holders c { s.setReader s.started .opening with started := s.started + 1 } slot =
        s.slots.count slot + (s.messages.map fun message => one message.held slot).sum +
          ∑ reader ∈ Finset.range c.shards.length, one ((s.setReader s.started .opening).readers reader).held slot +
            one s.consumer.held slot := rfl
    rw [unfolded, holders]
    omega
  | reader listed move =>
    rename_i index effect r
    have shares := sum_setReader (s := s) (fun _ r => one r.held slot) listed r
    have moved := Move.holds (s := s.setReader index r) move slot
    rw [holders, holders, apply_readers, apply_consumer]
    change _ = s.slots.count slot + _ + _ at moved
    change _ = s.slots.count slot + (s.messages.map fun message => one message.held slot).sum + _ at moved
    change _ + one s.consumer.held slot = _
    omega

theorem Held.step (order : Order c s) (held : Held c s) (step : c.Step s label t) : Held c t := by
  intro slot
  rw [holders_step order step, held]

/-- What a reader holds is nowhere else. -/
theorem Held.of_reader (held : Held c s) {reader slot : Nat} (listed : reader < c.shards.length)
    (holds : (s.readers reader).held = some slot) :
    (∀ other < c.shards.length, other ≠ reader → (s.readers other).held ≠ some slot) ∧
      (∀ message ∈ s.messages, message.held ≠ some slot) ∧ s.consumer.held ≠ some slot := by
  have whole := held slot
  have bounded : holders c s slot ≤ 1 := by
    rw [whole]
    split <;> omega
  have mine : one (s.readers reader).held slot = 1 := by simp [one, holds]
  rw [holders, ← Finset.add_sum_erase _ _ (Finset.mem_range.mpr listed), mine] at bounded
  refine ⟨?_, ?_, ?_⟩
  · intro other listed' apart holds'
    have member : other ∈ (Finset.range c.shards.length).erase reader :=
      Finset.mem_erase.mpr ⟨apart, Finset.mem_range.mpr listed'⟩
    have share := Finset.single_le_sum (f := fun other => one (s.readers other).held slot)
      (fun _ _ => Nat.zero_le _) member
    have theirs : one (s.readers other).held slot = 1 := by simp [one, holds']
    simp only [theirs] at share
    omega
  · intro message member holds'
    have share := List.single_le_sum (l := s.messages.map fun message => one message.held slot)
      (fun _ _ => Nat.zero_le _) _ (List.mem_map.mpr ⟨message, member, rfl⟩)
    have theirs : one message.held slot = 1 := by simp [one, holds']
    rw [theirs] at share
    omega
  · intro holds'
    have theirs : one s.consumer.held slot = 1 := by simp [one, holds']
    omega

end Held

/-! ## Messages -/

/-- The reader that put the message. -/
def Message.reader : Message E → Nat
  | .staged reader _ _ => reader
  | .failure reader _ => reader
  | .finished reader => reader

def Message.isFinished : Message E → Nat
  | .finished _ => 1
  | _ => 0

def Reader.isDone : Reader E → Nat
  | .done => 1
  | _ => 0

/-- The messages of one reader that are still in the queue. -/
def mail (s : State T E) (reader : Nat) : List (Message E) :=
  s.messages.filter (·.reader = reader)

/-- The finishing message of a reader is its last, and each is counted once. -/
structure Mail (c : Call T) (s : State T E) : Prop where
  known : ∀ message ∈ s.messages, message.reader < c.shards.length
  counted : s.finishedReaders + (s.messages.map Message.isFinished).sum =
    ∑ reader ∈ Finset.range c.shards.length, (s.readers reader).isDone
  pending : ∀ reader, s.readers reader ≠ .done → .finished reader ∉ s.messages
  closed : ∀ reader, s.readers reader = .done →
    mail s reader = [] ∨ ∃ rest, mail s reader = rest ++ [.finished reader] ∧ .finished reader ∉ rest
  ended : s.consumer = .joining ∨ s.consumer = .ended → s.finishedReaders = c.shards.length

/-- The message that an effect sends. -/
def Effect.sent : Effect T E → List (Message E)
  | .send message => [message]
  | _ => []

section Mail

variable {c : Call T} {s t : State T E} {label : Call.Label}

theorem apply_messages (effect : Effect T E) : (s.apply effect).messages = s.messages ++ effect.sent := by
  cases effect <;> simp [State.apply, Effect.sent]

theorem apply_finishedReaders (effect : Effect T E) : (s.apply effect).finishedReaders = s.finishedReaders := by
  cases effect <;> rfl

theorem isDone_of_ne {r : Reader E} (running : r ≠ .done) : r.isDone = 0 := by
  cases r with
  | done => exact absurd rfl running
  | _ => rfl

/-- A reader sends for itself, and its finishing message with its last step. -/
theorem Move.sent {projected : Nat → T} {reader count : Nat} {cancelled : Bool} {slots : List Nat} {effect : Effect T E}
    {r r' : Reader E} (move : Move projected reader count cancelled slots r effect r') :
    (∀ message ∈ effect.sent, message.reader = reader) ∧
      (r' = .done ∧ effect.sent = [.finished reader] ∨ r' ≠ .done ∧ ∀ message ∈ effect.sent, message.isFinished = 0) := by
  cases move <;> simp [Effect.sent, Message.reader, Message.isFinished]

theorem Mail.start (starts : c.Starts s) : Mail c s where
  known := by
    intro message member
    rw [starts.messages] at member
    cases member
  counted := by
    simp [starts.finishedReaders, starts.messages, starts.readers, Reader.isDone]
  pending := by
    intro reader _
    rw [starts.messages]
    exact List.not_mem_nil
  closed := by
    intro reader done
    rw [starts.readers] at done
    cases done
  ended := by
    intro past
    rw [starts.consumer] at past
    rcases past with impossible | impossible <;> cases impossible

/-- Taking the first message out keeps all that is said of the others. -/
theorem Mail.pop (before : Mail c s) {message : Message E} {rest : List (Message E)} (first : s.messages = message :: rest)
    (readers : t.readers = s.readers) (messages : t.messages = rest)
    (finished : t.finishedReaders = s.finishedReaders + message.isFinished)
    (running : t.consumer ≠ .joining ∧ t.consumer ≠ .ended) : Mail c t where
  known := by
    intro other member
    rw [messages] at member
    exact before.known other (first ▸ List.mem_cons_of_mem message member)
  counted := by
    have counted := before.counted
    rw [first, List.map_cons, List.sum_cons] at counted
    rw [messages, finished, readers]
    omega
  pending := by
    intro reader alive member
    rw [messages] at member
    rw [readers] at alive
    exact before.pending reader alive (first ▸ List.mem_cons_of_mem message member)
  closed := by
    intro reader done
    rw [readers] at done
    have closed := before.closed reader done
    rw [mail, first, List.filter_cons] at closed
    rw [mail, messages]
    split at closed
    · rcases closed with impossible | ⟨others, split, once⟩
      · cases impossible
      · cases others with
        | nil =>
          simp only [List.nil_append, List.cons.injEq] at split
          exact .inl split.2
        | cons head others =>
          simp only [List.cons_append, List.cons.injEq] at split
          exact .inr ⟨others, split.2, fun member => once (List.mem_cons_of_mem head member)⟩
    · exact closed
  ended := by
    rintro (past | past)
    · exact absurd past running.1
    · exact absurd past running.2

theorem Mail.step (order : Order c s) (before : Mail c s) (step : c.Step s label t) : Mail c t := by
  cases step with
  | main move =>
    cases move with
    | finished here open_ first => exact before.pop first rfl rfl rfl (by simp [here])
    | firstFailure here open_ first clean => exact before.pop first rfl rfl rfl (by simp)
    | laterFailure here open_ first failed => exact before.pop first rfl rfl rfl (by simp [here])
    | staged here open_ first => exact before.pop first rfl rfl rfl (by simp)
    | gathered here all => exact ⟨before.known, before.counted, before.pending, before.closed, fun _ => all⟩
    | joined here all =>
      exact ⟨before.known, before.counted, before.pending, before.closed, fun _ => before.ended (.inl here)⟩
    | submit here more => exact ⟨before.known, before.counted, before.pending, before.closed, by simp [here]⟩
    | noted here =>
      rename_i noted
      exact ⟨before.known, before.counted, before.pending, before.closed, by cases noted <;> simp⟩
    | _ => exact ⟨before.known, before.counted, before.pending, before.closed, by simp⟩
  | start submitted free =>
    have listed := submitted.trans_le order.submitted_le
    have waiting := (order.waiting s.started).mpr le_rfl
    refine ⟨before.known, ?_, ?_, ?_, before.ended⟩
    · have shares := sum_setReader (s := s) (fun _ r => r.isDone) listed .opening
      rw [waiting] at shares
      exact before.counted.trans shares.symm
    · intro reader alive
      change (s.setReader s.started .opening).readers reader ≠ .done at alive
      by_cases same : reader = s.started
      · exact before.pending reader (by rw [same, waiting]; simp)
      · rw [setReader_of_ne _ same] at alive
        exact before.pending reader alive
    · intro reader done
      change (s.setReader s.started .opening).readers reader = .done at done
      by_cases same : reader = s.started
      · rw [same, setReader_same] at done
        cases done
      · rw [setReader_of_ne _ same] at done
        exact before.closed reader done
  | reader listed move =>
    rename_i index effect r
    obtain ⟨own, last⟩ := Move.sent move
    obtain ⟨-, alive, -⟩ := Move.alive move
    have pending := before.pending index alive
    have shares := sum_setReader (s := s) (fun _ r => r.isDone) listed r
    rw [isDone_of_ne alive] at shares
    have others (other : Nat) (apart : other ≠ index) : effect.sent.filter (·.reader = other) = [] := by
      rw [List.filter_eq_nil_iff]
      intro message member
      simp [own message member, apart.symm]
    refine ⟨?_, ?_, ?_, ?_, ?_⟩
    · intro message member
      rw [apply_messages] at member
      rcases List.mem_append.mp member with old | new
      · exact before.known message old
      · rw [own message new]
        exact listed
    · have counted := before.counted
      rw [apply_messages, apply_finishedReaders, apply_readers, List.map_append, List.sum_append]
      change s.finishedReaders + ((s.messages.map Message.isFinished).sum + _) = _
      rcases last with ⟨rfl, sent⟩ | ⟨goes, plain⟩
      · rw [sent]
        change _ + (_ + 1) = _
        change _ = _ + 1 at shares
        omega
      · rw [isDone_of_ne goes] at shares
        have none : (effect.sent.map Message.isFinished).sum = 0 := by
          apply List.sum_eq_zero
          intro weight member
          obtain ⟨message, among, rfl⟩ := List.mem_map.mp member
          exact plain message among
        omega
    · intro other alive'
      rw [apply_readers] at alive'
      rw [apply_messages, List.mem_append]
      rintro (old | new)
      · by_cases same : other = index
        · exact pending (same ▸ old)
        · rw [setReader_of_ne _ same] at alive'
          exact before.pending other alive' old
      · have same : other = index := own _ new
        rw [same, setReader_same] at alive'
        rcases last with ⟨done, -⟩ | ⟨-, plain⟩
        · exact alive' done
        · have impossible := plain _ new
          cases impossible
    · intro other done
      rw [apply_readers] at done
      rw [mail, apply_messages, List.filter_append]
      by_cases same : other = index
      · subst same
        rw [setReader_same] at done
        rcases last with ⟨-, sent⟩ | ⟨goes, -⟩
        · refine .inr ⟨mail s other, ?_, ?_⟩
          · rw [sent]
            simp [mail, Message.reader, State.setReader]
          · intro member
            exact pending (List.mem_of_mem_filter member)
        · exact absurd done goes
      · rw [setReader_of_ne _ same] at done
        rw [others other same, List.append_nil]
        exact before.closed other done
    · rw [apply_consumer, apply_finishedReaders]
      exact before.ended

end Mail

/-! ## Errors -/

/-- A reader's error is one that was raised. -/
def Reader.Raises (raised : List E) : Reader E → Prop
  | .returning _ error => error ∈ raised
  | .failing error => error ∈ raised
  | .cancelling => raised ≠ []
  | _ => True

/-- The reader has an error to report. -/
def Reader.Reports : Reader E → Prop
  | .returning _ _ => True
  | .failing _ => True
  | _ => False

/-- No error is made up, and one is on its way to the copying thread once any step has raised. -/
structure Errors (c : Call T) (s : State T E) : Prop where
  flagged : s.cancelled → s.raised ≠ []
  first : ∀ error, s.firstError = some error → error ∈ s.raised
  reported : ∀ reader error, .failure reader error ∈ s.messages → error ∈ s.raised
  readers : ∀ reader, (s.readers reader).Raises s.raised
  noting : ∀ slot, s.consumer = .noting slot → s.raised ≠ []
  kept : s.raised ≠ [] → s.firstError.isSome ∨ (∃ reader error, .failure reader error ∈ s.messages) ∨
    ∃ reader < c.shards.length, (s.readers reader).Reports

section Errors

variable {c : Call T} {s t : State T E} {label : Call.Label}

theorem Reader.Raises.mono {r : Reader E} {raised raised' : List E} (more : raised ⊆ raised') (raises : r.Raises raised) :
    r.Raises raised' := by
  cases r with
  | returning slot error => exact more raises
  | failing error => exact more raises
  | cancelling =>
    intro none
    rw [none] at more
    exact raises (List.subset_nil.mp more)
  | _ => exact trivial

theorem Errors.start (starts : c.Starts s) : Errors c s where
  flagged := by simp [starts.cancelled]
  first := by simp [starts.firstError]
  reported := by simp [starts.messages]
  readers := by
    intro reader
    rw [starts.readers]
    exact trivial
  noting := by simp [starts.consumer]
  kept := by simp [starts.raised]

/-- What a reader's step does to the history and the flag. -/
theorem Move.raises {projected : Nat → T} {reader count : Nat} {effect : Effect T E} {r r' : Reader E}
    (move : Move projected reader count s.cancelled s.slots r effect r') (before : r.Raises s.raised) :
    s.raised ⊆ (s.apply effect).raised ∧ r'.Raises (s.apply effect).raised ∧
      ((s.apply effect).cancelled → s.cancelled ∨ s.raised ≠ []) ∧
      (∀ error, .failure reader error ∈ effect.sent → error ∈ s.raised) ∧
      ((s.apply effect).raised ≠ s.raised → r'.Reports) ∧
      (r.Reports → r'.Reports ∨ ∃ error, .failure reader error ∈ effect.sent) := by
  cases move with
  | returned =>
    refine ⟨List.Subset.refl _, before, .inl, ?_, ?_, fun _ => .inl trivial⟩
    · simp [Effect.sent]
    · simp [State.apply]
  | reported =>
    refine ⟨List.Subset.refl _, List.ne_nil_of_mem before, .inl, ?_, by simp [State.apply], ?_⟩
    · have known : ∀ other, other = _ → other ∈ s.raised := fun other same => same ▸ before
      simpa [Effect.sent] using known
    · simp [Effect.sent]
  | cancelled =>
    refine ⟨List.Subset.refl _, trivial, fun _ => .inr before, ?_, ?_, ?_⟩
    · simp [Effect.sent]
    · simp [State.apply]
    · simp [Reader.Reports]
  | openFails error => simp +contextual [State.apply, Effect.sent, Reader.Raises, Reader.Reports]
  | readFails error => simp +contextual [State.apply, Effect.sent, Reader.Raises, Reader.Reports]
  | checkFails error => simp +contextual [State.apply, Effect.sent, Reader.Raises, Reader.Reports]
  | settleFails error => simp +contextual [State.apply, Effect.sent, Reader.Raises, Reader.Reports]
  | _ => simp +contextual [State.apply, Effect.sent, Reader.Raises, Reader.Reports]

theorem apply_firstError (effect : Effect T E) : (s.apply effect).firstError = s.firstError := by
  cases effect <;> rfl

/-- A message that is not a failure may be taken. -/
theorem Errors.pop (before : Errors c s) {message : Message E} {rest : List (Message E)} (first : s.messages = message :: rest)
    (known : s.firstError.isSome ∨ ∀ reader error, message ≠ .failure reader error) :
    s.raised ≠ [] → s.firstError.isSome ∨ (∃ reader error, .failure reader error ∈ rest) ∨
      ∃ reader < c.shards.length, (s.readers reader).Reports := by
  intro raised
  rcases before.kept raised with failed | ⟨reader, error, member⟩ | reports
  · exact .inl failed
  · rcases known with failed | plain
    · exact .inl failed
    · rw [first, List.mem_cons] at member
      rcases member with same | later
      · exact absurd same.symm (plain reader error)
      · exact .inr (.inl ⟨reader, error, later⟩)
  · exact .inr (.inr reports)

theorem Errors.step (order : Order c s) (before : Errors c s) (step : c.Step s label t) : Errors c t := by
  cases step with
  | main move =>
    have inRest {message : Message E} {rest : List (Message E)} (first : s.messages = message :: rest) :
        ∀ reader error, .failure reader error ∈ rest → error ∈ s.raised := fun reader error member =>
      before.reported reader error (first ▸ List.mem_cons_of_mem message member)
    cases move with
    | finished here open_ first =>
      exact ⟨before.flagged, before.first, inRest first, before.readers, before.noting,
        before.pop first (.inr (by simp))⟩
    | firstFailure here open_ first clean =>
      rename_i reader error rest
      have raised : error ∈ s.raised := before.reported reader error (first ▸ List.mem_cons_self)
      refine ⟨before.flagged, ?_, inRest first, before.readers, ?_, fun _ => .inl rfl⟩
      · intro other same
        cases same
        exact raised
      · intro _ _
        exact List.ne_nil_of_mem raised
    | laterFailure here open_ first failed =>
      exact ⟨before.flagged, before.first, inRest first, before.readers, before.noting,
        before.pop first (.inl failed)⟩
    | staged here open_ first =>
      exact ⟨before.flagged, before.first, inRest first, before.readers, by simp, before.pop first (.inr (by simp))⟩
    | copyFails here clean =>
      rename_i reader place slot error
      have raised : s.raised ++ [error] ≠ [] := by simp
      refine ⟨fun _ => raised, ?_, ?_, ?_, fun _ _ => raised, fun _ => .inl rfl⟩
      · intro other same
        cases same
        exact List.mem_append_right _ List.mem_cons_self
      · intro index other member
        exact List.mem_append_left _ (before.reported index other member)
      · intro index
        exact (before.readers index).mono (List.subset_append_left _ _)
    | noted here =>
      rename_i noted
      refine ⟨fun _ => before.noting _ here, before.first, before.reported, before.readers, ?_, before.kept⟩
      cases noted <;> simp
    | submit here more =>
      exact ⟨before.flagged, before.first, before.reported, before.readers, by simp [here], before.kept⟩
    | _ => exact ⟨before.flagged, before.first, before.reported, before.readers, by simp, before.kept⟩
  | start submitted free =>
    refine ⟨before.flagged, before.first, before.reported, ?_, before.noting, ?_⟩
    · intro reader
      change ((s.setReader s.started .opening).readers reader).Raises s.raised
      by_cases same : reader = s.started
      · rw [same, setReader_same]
        exact trivial
      · rw [setReader_of_ne _ same]
        exact before.readers reader
    · intro raised
      rcases before.kept raised with failed | message | ⟨reader, listed, reports⟩
      · exact .inl failed
      · exact .inr (.inl message)
      · refine .inr (.inr ⟨reader, listed, ?_⟩)
        have waiting := (order.waiting s.started).mpr le_rfl
        have apart : reader ≠ s.started := by
          rintro rfl
          rw [waiting] at reports
          exact reports
        change ((s.setReader s.started .opening).readers reader).Reports
        rw [setReader_of_ne _ apart]
        exact reports
  | reader listed move =>
    rename_i index effect r
    obtain ⟨more, raises, flag, sent, fresh, reports⟩ :=
      Move.raises (s := s.setReader index r) move (before.readers index)
    refine ⟨?_, ?_, ?_, ?_, ?_, ?_⟩
    · intro flagged
      have some' : s.raised ≠ [] := (flag flagged).elim before.flagged id
      intro none
      rw [none] at more
      exact some' (List.subset_nil.mp more)
    · intro error same
      rw [apply_firstError] at same
      exact more (before.first error same)
    · intro reader error member
      rw [apply_messages] at member
      apply more
      rcases List.mem_append.mp member with old | new
      · exact before.reported reader error old
      · have own : reader = index := (Move.sent move).1 _ new
        exact sent error (own ▸ new)
    · intro reader
      rw [apply_readers]
      by_cases same : reader = index
      · rw [same, setReader_same]
        exact raises
      · rw [setReader_of_ne _ same]
        exact (before.readers reader).mono more
    · intro slot here
      rw [apply_consumer] at here
      have some' : s.raised ≠ [] := before.noting slot here
      intro none
      rw [none] at more
      exact some' (List.subset_nil.mp more)
    · intro raised
      rw [apply_firstError, apply_messages, apply_readers]
      by_cases same : ((s.setReader index r).apply effect).raised = (s.setReader index r).raised
      · rw [same] at raised
        rcases before.kept raised with failed | ⟨reader, error, member⟩ | ⟨reader, listed', reports'⟩
        · exact .inl failed
        · exact .inr (.inl ⟨reader, error, List.mem_append_left _ member⟩)
        · by_cases own : reader = index
          · rcases reports (own ▸ reports') with again | ⟨error, message⟩
            · refine .inr (.inr ⟨index, listed, ?_⟩)
              rw [setReader_same]
              exact again
            · exact .inr (.inl ⟨index, error, List.mem_append_right _ message⟩)
          · refine .inr (.inr ⟨reader, listed', ?_⟩)
            rw [setReader_of_ne _ own]
            exact reports'
      · refine .inr (.inr ⟨index, listed, ?_⟩)
        rw [setReader_same]
        exact fresh same

end Errors

end Staging

end CrossPool.FfnAgent
