import CrossPool.FfnAgent.Staging

/-!
# Exits of staged loading

A slot keeps a reader's tensor until it has been copied, so every descriptor is copied once from a slot that
holds its own tensor if no step raises. Some thread can always get on, the call ends with all slots
back in the queue, and it raises just where some step has.
-/

namespace CrossPool.FfnAgent

open CrossPool.Lib

namespace Staging

variable {T E : Type} {c : Call T} {s t : State T E} {label : Call.Label}

/-! ## Contents -/

/-- What is staged lies in its slot. -/
structure Filled (c : Call T) (s : State T E) : Prop where
  staging : ∀ reader < c.shards.length, ∀ place slot, s.readers reader = .staging place slot →
    s.contents slot = c.projected reader place
  staged : ∀ reader place slot, .staged reader place slot ∈ s.messages → s.contents slot = c.projected reader place
  copying : ∀ reader place slot, s.consumer = .copying reader place slot → s.contents slot = c.projected reader place
  copied : ∀ entry ∈ s.copied, entry.2 = c.projected entry.1.1 entry.1.2

/-- A reader writes to no slot but its own. -/
theorem Move.writes {projected : Nat → T} {reader count : Nat} {effect : Effect T E} {r r' : Reader E}
    (move : Move projected reader count s.cancelled s.slots r effect r') :
    (∀ slot, r.held ≠ some slot → (s.apply effect).contents slot = s.contents slot) ∧
      (∀ place slot, r' = .staging place slot → (s.apply effect).contents slot = projected place) ∧
      ∀ place slot, .staged reader place slot ∈ effect.sent → r = .staging place slot ∧
        (s.apply effect).contents = s.contents := by
  cases move with
  | filled garbage =>
    refine ⟨?_, by simp, by simp [Effect.sent]⟩
    intro other apart
    exact Function.update_of_ne (fun same => apart (congrArg some same.symm)) _ _
  | settled =>
    refine ⟨?_, ?_, by simp [Effect.sent]⟩
    · intro other apart
      exact Function.update_of_ne (fun same => apart (congrArg some same.symm)) _ _
    · intro place slot same
      cases same
      exact Function.update_self _ _ _
  | staged =>
    refine ⟨fun _ _ => rfl, by simp, ?_⟩
    intro place slot member
    simp only [Effect.sent, List.mem_singleton, Message.staged.injEq] at member
    obtain ⟨-, rfl, rfl⟩ := member
    exact ⟨rfl, rfl⟩
  | _ => exact ⟨fun _ _ => rfl, by simp, by simp [Effect.sent]⟩

theorem apply_copied (effect : Effect T E) : (s.apply effect).copied = s.copied := by
  cases effect <;> rfl

theorem Filled.start (starts : c.Starts s) : Filled c s where
  staging := by
    intro reader listed place slot here
    rw [starts.readers] at here
    cases here
  staged := by simp [starts.messages]
  copying := by simp [starts.consumer]
  copied := by simp [starts.copied]

theorem Filled.step (held : Held c s) (before : Filled c s) (step : c.Step s label t) : Filled c t := by
  cases step with
  | main move =>
    have inRest {message : Message E} {rest : List (Message E)} (first : s.messages = message :: rest) :
        ∀ reader place slot, .staged reader place slot ∈ rest → s.contents slot = c.projected reader place :=
      fun reader place slot member => before.staged reader place slot (first ▸ List.mem_cons_of_mem message member)
    cases move with
    | finished here open_ first => exact ⟨before.staging, inRest first, before.copying, before.copied⟩
    | firstFailure here open_ first clean => exact ⟨before.staging, inRest first, by simp, before.copied⟩
    | laterFailure here open_ first failed => exact ⟨before.staging, inRest first, before.copying, before.copied⟩
    | staged here open_ first =>
      refine ⟨before.staging, inRest first, ?_, before.copied⟩
      intro reader place slot same
      cases same
      exact before.staged _ _ _ (first ▸ List.mem_cons_self)
    | copied here clean =>
      refine ⟨before.staging, before.staged, by simp, ?_⟩
      intro entry member
      rcases List.mem_append.mp member with old | new
      · exact before.copied entry old
      · obtain rfl := List.mem_singleton.mp new
        exact before.copying _ _ _ here
    | submit here more => exact ⟨before.staging, before.staged, before.copying, before.copied⟩
    | noted here =>
      rename_i noted
      refine ⟨before.staging, before.staged, ?_, before.copied⟩
      cases noted <;> simp
    | _ => exact ⟨before.staging, before.staged, by simp, before.copied⟩
  | start submitted free =>
    refine ⟨?_, before.staged, before.copying, before.copied⟩
    intro reader listed place slot here
    change (s.setReader s.started .opening).readers reader = _ at here
    by_cases same : reader = s.started
    · rw [same, setReader_same] at here
      cases here
    · rw [setReader_of_ne _ same] at here
      exact before.staging reader listed place slot here
  | reader listed move =>
    rename_i index effect r
    obtain ⟨kept, filled, sent⟩ := Move.writes (s := s.setReader index r) move
    refine ⟨?_, ?_, ?_, ?_⟩
    · intro reader listed' place slot here
      rw [apply_readers] at here
      by_cases same : reader = index
      · subst same
        rw [setReader_same] at here
        exact filled place slot here
      · rw [setReader_of_ne _ same] at here
        have apart : (s.readers index).held ≠ some slot :=
          (held.of_reader listed' (by rw [here]; rfl)).1 index listed (Ne.symm same)
        rw [kept slot apart]
        exact before.staging reader listed' place slot here
    · intro reader place slot member
      rw [apply_messages] at member
      rcases List.mem_append.mp member with old | new
      · have apart : (s.readers index).held ≠ some slot := by
          intro holds
          exact (held.of_reader listed holds).2.1 _ old rfl
        rw [kept slot apart]
        exact before.staged reader place slot old
      · obtain rfl : reader = index := (Move.sent move).1 _ new
        obtain ⟨here, same⟩ := sent place slot new
        rw [same]
        exact before.staging reader listed place slot here
    · intro reader place slot here
      rw [apply_consumer] at here
      have apart : (s.readers index).held ≠ some slot := by
        intro holds
        apply (held.of_reader listed holds).2.2
        change s.consumer = _ at here
        rw [here]
        rfl
      rw [kept slot apart]
      exact before.copying reader place slot here
    · rw [apply_copied]
      exact before.copied

/-! ## Copies -/

/-- The descriptor that a message carries. -/
def Message.descriptor : Message E → Option (Nat × Nat)
  | .staged reader place _ => some (reader, place)
  | _ => none

def Consumer.descriptor : Consumer → Option (Nat × Nat)
  | .copying reader place _ => some (reader, place)
  | _ => none

/-- How many descriptors the reader has staged, as long as nothing has raised. -/
def Reader.emitted (count : Nat) : Reader E → Nat
  | .waiting => 0
  | .opening => 0
  | .entering place => place
  | .acquiring place => place
  | .polling place => place
  | .reading place _ => place
  | .checking place _ => place
  | .filling place _ => place
  | .settling place _ => place
  | .staging place _ => place
  | _ => count

@[simp] theorem Message.descriptor_staged (reader place slot : Nat) :
    (staged reader place slot : Message E).descriptor = some (reader, place) := rfl

@[simp] theorem Message.descriptor_failure (reader : Nat) (error : E) : (failure reader error).descriptor = none := rfl

@[simp] theorem Message.descriptor_finished (reader : Nat) : (finished reader : Message E).descriptor = none := rfl

/-- How often the descriptor was copied, is being copied, or waits in a message. -/
def copies (s : State T E) (descriptor : Nat × Nat) : Nat :=
  (s.copied.map Prod.fst).count descriptor + one s.consumer.descriptor descriptor +
    (s.messages.map fun message => one message.descriptor descriptor).sum

/-- Without an error each staged descriptor is in one place. -/
def Copied (c : Call T) (s : State T E) : Prop :=
  s.raised = [] → ∀ reader place,
    copies s (reader, place) = if place < (s.readers reader).emitted (c.count reader) then 1 else 0

theorem Copied.start (starts : c.Starts s) : Copied c s := by
  intro _ reader place
  simp [copies, starts.copied, starts.consumer, starts.messages, starts.readers, Reader.emitted, Consumer.descriptor]

/-- A clean step of a reader stages its descriptor or nothing. -/
theorem Move.emits {projected : Nat → T} {reader count : Nat} {effect : Effect T E} {r r' : Reader E}
    (move : Move projected reader count s.cancelled s.slots r effect r') (clear : s.cancelled = false)
    (clean : (s.apply effect).raised = []) (raises : r.Raises s.raised) (place : Nat) :
    (effect.sent.map fun message => one message.descriptor (reader, place)).sum +
        (if place < r.emitted count then 1 else 0) = if place < r'.emitted count then 1 else 0 := by
  cases move with
  | staged =>
    rename_i here slot
    change one (some (reader, here)) (reader, place) + 0 + (if place < here then 1 else 0) =
      if place < here + 1 then 1 else 0
    rw [one_some]
    by_cases same : here = place
    · subst same
      simp
    · have unchanged : place < here ↔ place < here + 1 := by omega
      simp [same, unchanged]
  | stopped within flagged => simp [clear] at flagged
  | givenUp flagged => simp [clear] at flagged
  | openFails error => simp [State.apply] at clean
  | readFails error => simp [State.apply] at clean
  | checkFails error => simp [State.apply] at clean
  | settleFails error => simp [State.apply] at clean
  | returned =>
    have none : s.raised = [] := clean
    rw [none] at raises
    cases raises
  | reported =>
    have none : s.raised = [] := clean
    rw [none] at raises
    cases raises
  | cancelled =>
    have none : s.raised = [] := clean
    exact absurd none raises
  | _ => exact Nat.zero_add _

theorem apply_raised_eq_nil {effect : Effect T E} (clean : (s.apply effect).raised = []) : s.raised = [] := by
  cases effect with
  | raise error => simp [State.apply] at clean
  | _ => exact clean

theorem Copied.step (order : Order c s) (errors : Errors c s) (before : Copied c s) (step : c.Step s label t) :
    Copied c t := by
  intro clean reader place
  cases step with
  | main move =>
    have readers := (MainStep.holds move 0).1
    rw [readers]
    have clean' : s.raised = [] := by
      cases move with
      | copyFails here clean'' => simp at clean
      | _ => exact clean
    rw [← before clean' reader place]
    cases move with
    | submit here more => rfl
    | finished here open_ first => simp [copies, here, first]
    | firstFailure here open_ first clean'' => simp [copies, here, first, Consumer.descriptor]
    | laterFailure here open_ first failed => simp [copies, here, first]
    | staged here open_ first =>
      simp only [copies, here, first, Consumer.descriptor, List.map_cons, List.sum_cons, Message.descriptor_staged,
        one_none]
      omega
    | copied here clean'' =>
      simp only [copies, here, Consumer.descriptor, List.map_append, List.map_cons, List.map_nil, List.count_append,
        List.count_singleton, one_none, one_some, beq_iff_eq]
      omega
    | copyFails here clean'' => simp at clean
    | skipped here failed =>
      rename_i slot
      obtain ⟨error, known⟩ := Option.isSome_iff_exists.mp failed
      have raised := errors.first error known
      rw [clean'] at raised
      cases raised
    | noted here => exact absurd clean' (errors.noting _ here)
    | _ here => simp [copies, here, Consumer.descriptor]
  | start submitted free =>
    have waiting := (order.waiting s.started).mpr le_rfl
    have known := before clean reader place
    change copies s (reader, place) = if place < ((s.setReader s.started .opening).readers reader).emitted _ then 1 else 0
    by_cases same : reader = s.started
    · subst same
      rw [waiting] at known
      rw [setReader_same]
      exact known
    · rw [setReader_of_ne _ same]
      exact known
  | reader listed' move =>
    rename_i index effect r
    have clean' : s.raised = [] := apply_raised_eq_nil (s := s.setReader index r) clean
    have clear : s.cancelled = false := by
      by_contra flagged
      exact errors.flagged (by simpa using flagged) clean'
    have known := before clean' reader place
    have unfolded : copies ((s.setReader index r).apply effect) (reader, place) = copies s (reader, place) +
        (effect.sent.map fun message => one message.descriptor (reader, place)).sum := by
      rw [copies, apply_copied, apply_consumer, apply_messages, List.map_append, List.sum_append]
      exact (Nat.add_assoc _ _ _).symm
    rw [unfolded, apply_readers, known]
    by_cases same : reader = index
    · subst same
      have emits := Move.emits (s := s.setReader reader r) move clear clean (errors.readers reader) place
      rw [setReader_same]
      omega
    · have none : (effect.sent.map fun message => one message.descriptor (reader, place)).sum = 0 := by
        apply List.sum_eq_zero
        intro weight member
        obtain ⟨message, among, rfl⟩ := List.mem_map.mp member
        have own := (Move.sent move).1 message among
        cases message with
        | staged other at_ slot =>
          change other = index at own
          rw [Message.descriptor_staged, one_some, if_neg]
          intro equal
          exact same ((Prod.mk.inj equal).1.symm.trans own)
        | _ => rfl
      rw [setReader_of_ne _ same, none, Nat.add_zero]

/-! ## Progress -/

/-- What the reader may still do; a descriptor counts for more than all that can follow an error. -/
def Reader.rank (count : Nat) : Reader E → Nat
  | .waiting => count * 12 + 10
  | .opening => count * 12 + 9
  | .entering place => (count - place) * 12 + 8
  | .acquiring place => (count - place) * 12 + 7
  | .polling place => (count - place) * 12 + 6
  | .reading place _ => (count - place) * 12 + 5
  | .checking place _ => (count - place) * 12 + 4
  | .filling place _ => (count - place) * 12 + 3
  | .settling place _ => (count - place) * 12 + 2
  | .staging place _ => (count - place) * 12 + 1
  | .returning _ _ => 7
  | .failing _ => 6
  | .cancelling => 3
  | .finishing => 2
  | .done => 0

def Message.rank : Message E → Nat
  | .staged _ _ _ => 4
  | .failure _ _ => 2
  | .finished _ => 1

def Consumer.rank : Consumer → Nat
  | .submitting => 3
  | .receiving => 2
  | .copying _ _ _ => 5
  | .noting none => 3
  | .noting (some _) => 4
  | .releasing _ => 3
  | .joining => 1
  | .ended => 0

/-- What all threads together may still do. -/
def Call.rank (c : Call T) (s : State T E) : Nat :=
  (c.shards.length - s.submitted) + s.consumer.rank + (s.messages.map Message.rank).sum +
    ∑ reader ∈ Finset.range c.shards.length, (s.readers reader).rank (c.count reader)

/-- A reader's turn lowers its rank by more than the message it sends, unless it found the slot queue empty. -/
theorem Move.rank {projected : Nat → T} {reader count : Nat} {cancelled : Bool} {slots : List Nat} {effect : Effect T E}
    {r r' : Reader E} (move : Move projected reader count cancelled slots r effect r') (within : r.Within count) :
    r'.rank count + (effect.sent.map Message.rank).sum < r.rank count ∨
      slots = [] ∧ effect = .skip ∧ ∃ place, r = .polling place ∧ r' = .acquiring place := by
  cases move with
  | timedOut empty => exact .inr ⟨empty, rfl, _, rfl, rfl⟩
  | staged =>
    rename_i place slot
    have within' : place < count := within
    left
    change (count - (place + 1)) * 12 + 8 + 4 < (count - place) * 12 + 1
    omega
  | readFails error =>
    left
    have within' := Nat.sub_pos_of_lt (show _ < count from within)
    simp only [Reader.rank, Effect.sent, List.map_nil, List.sum_nil]
    omega
  | checkFails error =>
    left
    have within' := Nat.sub_pos_of_lt (show _ < count from within)
    simp only [Reader.rank, Effect.sent, List.map_nil, List.sum_nil]
    omega
  | settleFails error =>
    left
    have within' := Nat.sub_pos_of_lt (show _ < count from within)
    simp only [Reader.rank, Effect.sent, List.map_nil, List.sum_nil]
    omega
  | reported =>
    left
    change 3 + 2 < 6
    decide
  | finished =>
    left
    change 0 + 1 < 2
    decide
  | _ =>
    left
    simp only [Reader.rank, Effect.sent, List.map_nil, List.sum_nil]
    omega

theorem MainStep.rank (move : c.MainStep s t) : c.rank t < c.rank s := by
  have readers := (MainStep.holds move 0).1
  rw [Call.rank, Call.rank, readers]
  cases move with
  | submit here more =>
    simp only [here, Consumer.rank]
    omega
  | finished here open_ first =>
    simp only [here, first, List.map_cons, List.sum_cons, Message.rank]
    omega
  | firstFailure here open_ first clean =>
    simp only [here, first, List.map_cons, List.sum_cons, Message.rank, Consumer.rank]
    omega
  | laterFailure here open_ first failed =>
    simp only [here, first, List.map_cons, List.sum_cons, Message.rank]
    omega
  | staged here open_ first =>
    simp only [here, first, List.map_cons, List.sum_cons, Message.rank, Consumer.rank]
    omega
  | noted here =>
    rename_i noted
    cases noted <;> simp [here, Consumer.rank]
  | _ here => simp [here, Consumer.rank]

theorem rank_start (order : Order c s) (submitted : s.started < s.submitted) :
    c.rank { s.setReader s.started .opening with started := s.started + 1 } < c.rank s := by
  have listed := submitted.trans_le order.submitted_le
  have shares := sum_setReader (s := s) (fun reader r => r.rank (c.count reader)) listed .opening
  rw [(order.waiting s.started).mpr le_rfl] at shares
  change _ + (c.count s.started * 12 + 10) = _ + (c.count s.started * 12 + 9) at shares
  change c.shards.length - s.submitted + s.consumer.rank + (s.messages.map Message.rank).sum +
    ∑ reader ∈ Finset.range c.shards.length,
      ((s.setReader s.started .opening).readers reader).rank (c.count reader) < _
  rw [Call.rank]
  omega

/-- The rank changes as the reader's does. -/
theorem rank_reader {reader : Nat} (listed : reader < c.shards.length) (effect : Effect T E) (r : Reader E) :
    c.rank ((s.setReader reader r).apply effect) + (s.readers reader).rank (c.count reader) =
      c.rank s + r.rank (c.count reader) + (effect.sent.map Message.rank).sum := by
  have shares := sum_setReader (s := s) (fun reader r => r.rank (c.count reader)) listed r
  rw [Call.rank, Call.rank, apply_consumer, apply_messages, apply_readers, (apply_order effect).2, List.map_append,
    List.sum_append]
  change c.shards.length - s.submitted + s.consumer.rank + ((s.messages.map Message.rank).sum + _) + _ + _ = _
  omega

/-- Whatever step is taken, there is less to do after it, unless a reader waited for a slot in vain. -/
theorem rank_step (order : Order c s) (step : c.Step s label t) :
    c.rank t < c.rank s ∨
      s.slots = [] ∧ ∃ reader place, s.readers reader = .polling place ∧ t = s.setReader reader (.acquiring place) := by
  cases step with
  | main move => exact .inl (MainStep.rank move)
  | start submitted free => exact .inl (rank_start order submitted)
  | reader listed move =>
    rename_i index effect r
    have changed := rank_reader (s := s) listed effect r
    rcases Move.rank move (order.within index) with less | ⟨empty, rfl, place, here, rfl⟩
    · left
      omega
    · exact .inr ⟨empty, index, place, here, rfl⟩

/-- A running reader can go on, unless it waits for a slot. -/
theorem Reader.moves {r : Reader E} (projected : Nat → T) (reader count : Nat) (cancelled : Bool) (slots : List Nat)
    (runs : r.runs) (within : r.Within count) (ready : slots = [] → ∀ place, r ≠ .polling place) :
    ∃ effect r', Move projected reader count cancelled slots r effect r' := by
  cases r with
  | waiting => cases runs
  | opening => exact ⟨_, _, .opened⟩
  | entering place =>
    have reach : place ≤ count := within
    rcases reach.eq_or_lt with rfl | inside
    · exact ⟨_, _, .exhausted⟩
    · cases flag : cancelled with
      | false => exact ⟨_, _, .entered inside rfl⟩
      | true => exact ⟨_, _, .stopped inside rfl⟩
  | acquiring place =>
    cases flag : cancelled with
    | false => exact ⟨_, _, .polled rfl⟩
    | true => exact ⟨_, _, .givenUp rfl⟩
  | polling place =>
    cases queue : slots with
    | nil => exact absurd rfl (ready queue place)
    | cons slot rest => exact ⟨_, _, .taken rfl⟩
  | reading place slot => exact ⟨_, _, .read⟩
  | checking place slot => exact ⟨_, _, .checked⟩
  | filling place slot => exact ⟨_, _, .filled (projected place)⟩
  | settling place slot => exact ⟨_, _, .settled⟩
  | staging place slot => exact ⟨_, _, .staged⟩
  | returning slot error => exact ⟨_, _, .returned⟩
  | failing error => exact ⟨_, _, .reported⟩
  | cancelling => exact ⟨_, _, .cancelled⟩
  | finishing => exact ⟨_, _, .finished⟩
  | done => cases runs

/-! ## Runs -/

/-- Everything that is kept by every step. -/
structure Sound (c : Call T) (s : State T E) : Prop where
  order : Order c s
  held : Held c s
  mail : Mail c s
  errors : Errors c s
  filled : Filled c s
  copied : Copied c s

theorem reachable_sound (reached : c.system.Reachable s) : Sound c s := by
  apply System.ReachableUnder.invariant ?_ ?_ reached
  · intro s starts
    exact ⟨Order.start starts, Held.start starts, Mail.start starts, Errors.start starts, Filled.start starts,
      Copied.start starts⟩
  · intro s label t _ before _ step
    exact ⟨before.order.step step, before.held.step before.order step, before.mail.step before.order step,
      before.errors.step before.order step, before.filled.step before.held step,
      before.copied.step before.order before.errors step⟩

theorem Reader.isDone_le (r : Reader E) : r.isDone ≤ 1 := by
  cases r <;> simp [Reader.isDone]

/-- No more readers are counted than there are. -/
theorem Mail.finished_le (mail : Mail c s) : s.finishedReaders ≤ c.shards.length := by
  have counted := mail.counted
  have each : ∑ reader ∈ Finset.range c.shards.length, (s.readers reader).isDone ≤
      ∑ _reader ∈ Finset.range c.shards.length, 1 := Finset.sum_le_sum fun reader _ => (s.readers reader).isDone_le
  simp at each
  omega

/-- Once all readers are counted, none runs and no message is left. -/
theorem Mail.all (mail : Mail c s) (all : s.finishedReaders = c.shards.length) :
    (∀ reader < c.shards.length, s.readers reader = .done) ∧ s.messages = [] := by
  have counted := mail.counted
  have done : ∀ reader < c.shards.length, s.readers reader = .done := by
    intro reader listed
    by_contra alive
    have less : ∑ reader ∈ Finset.range c.shards.length, (s.readers reader).isDone <
        ∑ _reader ∈ Finset.range c.shards.length, 1 :=
      Finset.sum_lt_sum (fun other _ => (s.readers other).isDone_le)
        ⟨reader, Finset.mem_range.mpr listed, by simp [isDone_of_ne alive]⟩
    simp at less
    omega
  have each : ∑ reader ∈ Finset.range c.shards.length, (s.readers reader).isDone ≤
      ∑ _reader ∈ Finset.range c.shards.length, 1 := Finset.sum_le_sum fun reader _ => (s.readers reader).isDone_le
  simp at each
  refine ⟨done, ?_⟩
  apply List.eq_nil_iff_forall_not_mem.mpr
  intro message member
  have mine : message ∈ Staging.mail s message.reader := List.mem_filter.mpr ⟨member, by simp⟩
  rcases mail.closed message.reader (done _ (mail.known message member)) with none | ⟨rest, split, -⟩
  · rw [none] at mine
    cases mine
  · have last : .finished message.reader ∈ Staging.mail s message.reader := by
      rw [split]
      exact List.mem_append_right _ List.mem_cons_self
    have share := List.single_le_sum (l := s.messages.map Message.isFinished) (fun _ _ => Nat.zero_le _) _
      (List.mem_map.mpr ⟨_, List.mem_of_mem_filter last, rfl⟩)
    change 1 ≤ _ at share
    omega

/-- The reader waits for a slot and there is none. -/
def Starves (s : State T E) (reader : Nat) : Prop :=
  s.slots = [] ∧ ∃ place, s.readers reader = .polling place

/-- A running reader that does not starve has a step that leaves less to do. -/
theorem Sound.reader_moves (sound : Sound c s) {reader : Nat} (listed : reader < c.shards.length)
    (runs : (s.readers reader).runs) (fed : ¬Starves s reader) : ∃ label t, c.Step s label t ∧ c.rank t < c.rank s := by
  have within := sound.order.within reader
  have ready : s.slots = [] → ∀ place, s.readers reader ≠ .polling place := fun none place here => fed ⟨none, place, here⟩
  obtain ⟨effect, r, move⟩ := Reader.moves (c.projected reader) reader (c.count reader) s.cancelled s.slots runs within ready
  refine ⟨_, _, .reader listed move, ?_⟩
  have changed := rank_reader (s := s) listed effect r
  rcases Move.rank move within with less | ⟨none, -, place, here, -⟩
  · omega
  · exact absurd here (ready none place)

theorem held_eq_none {r : Reader E} (idle : ¬r.runs) : r.held = none := by
  cases r with
  | waiting => rfl
  | done => rfl
  | _ => exact absurd rfl idle

/-- Not all running readers starve while the copying thread waits for a message: some slot would be lost. -/
theorem Sound.none_starves (sound : Sound c s) (receiving : s.consumer = .receiving) (empty : s.messages = [])
    (all : ∀ reader < c.shards.length, (s.readers reader).runs → Starves s reader) {reader : Nat}
    (listed : reader < c.shards.length) : ¬(s.readers reader).runs := by
  intro runs
  obtain ⟨none, -⟩ := all reader listed runs
  have free : ∀ other ∈ Finset.range c.shards.length, one (s.readers other).held 0 = 0 := by
    intro other member
    by_cases runs' : (s.readers other).runs
    · obtain ⟨-, place, here⟩ := all other (Finset.mem_range.mp member) runs'
      rw [here]
      rfl
    · rw [held_eq_none runs']
      rfl
  have lost := sound.held 0
  rw [holders, none, empty, receiving, Finset.sum_eq_zero free, if_pos c.slotCount_pos] at lost
  cases lost

/-- While a message is missing some reader is not done. -/
theorem Mail.exists_alive (mail : Mail c s) (empty : s.messages = []) (open_ : s.finishedReaders < c.shards.length) :
    ∃ reader < c.shards.length, s.readers reader ≠ .done := by
  by_contra all
  push Not at all
  have counted := mail.counted
  have done : ∑ reader ∈ Finset.range c.shards.length, (s.readers reader).isDone =
      ∑ _reader ∈ Finset.range c.shards.length, 1 := by
    apply Finset.sum_congr rfl
    intro reader member
    rw [all reader (Finset.mem_range.mp member)]
    rfl
  rw [empty, done] at counted
  simp at counted
  omega

/-- While the copying thread waits for a message, a reader can go on or be started. -/
theorem Sound.reader_advances (sound : Sound c s) (receiving : s.consumer = .receiving) (empty : s.messages = [])
    (open_ : s.finishedReaders < c.shards.length) : ∃ label t, c.Step s label t ∧ c.rank t < c.rank s := by
  by_cases fed : ∃ reader < c.shards.length, (s.readers reader).runs ∧ ¬Starves s reader
  · obtain ⟨reader, listed, runs, fed⟩ := fed
    exact sound.reader_moves listed runs fed
  · push Not at fed
    have idle : ∀ reader < c.shards.length, ¬(s.readers reader).runs := fun reader listed =>
      sound.none_starves receiving empty fed listed
    obtain ⟨reader, listed, alive⟩ := sound.mail.exists_alive empty open_
    have waiting : s.readers reader = .waiting := by
      have stands := idle reader listed
      cases here : s.readers reader with
      | waiting => rfl
      | done => exact absurd here alive
      | _ =>
        rw [here] at stands
        exact absurd rfl stands
    have submitted := sound.order.submitted (by simp [receiving])
    have started := (sound.order.waiting reader).mp waiting
    have free : c.running s = 0 := by
      rw [Call.running, List.length_eq_zero_iff, List.filter_eq_nil_iff]
      intro other member
      exact idle other (List.mem_range.mp member)
    have more : s.started < s.submitted := by omega
    exact ⟨_, _, .start more (free ▸ c.parallelism_pos), rank_start sound.order more⟩

/-- Until the call ends some thread can take a step that leaves less to do. -/
theorem Sound.advances (sound : Sound c s) (runs : s.consumer ≠ .ended) :
    ∃ label t, c.Step s label t ∧ c.rank t < c.rank s := by
  have main {t : State T E} (move : c.MainStep s t) : ∃ label t, c.Step s label t ∧ c.rank t < c.rank s :=
    ⟨.main, t, .main move, MainStep.rank move⟩
  cases here : s.consumer with
  | submitting =>
    rcases sound.order.submitted_le.eq_or_lt with all | more
    · exact main (.gather here all)
    · exact main (.submit here more)
  | receiving =>
    rcases sound.mail.finished_le.eq_or_lt with all | open_
    · exact main (.gathered here all)
    · cases queue : s.messages with
      | nil => exact sound.reader_advances here queue open_
      | cons message rest =>
        cases message with
        | finished reader => exact main (.finished here open_ queue)
        | staged reader place slot => exact main (.staged here open_ queue)
        | failure reader error =>
          cases first : s.firstError with
          | none => exact main (.firstFailure here open_ queue first)
          | some error' => exact main (.laterFailure here open_ queue (by simp [first]))
  | copying reader place slot =>
    cases first : s.firstError with
    | none => exact main (.copied here first)
    | some error => exact main (.skipped here (by simp [first]))
  | noting slot => exact main (.noted here)
  | releasing slot => exact main (.released here)
  | joining => exact main (.joined here (sound.mail.all (sound.mail.ended (.inl here))).1)
  | ended => exact absurd here runs

/-- So the call can always be brought to its end. -/
theorem exists_ended (reached : c.system.Reachable s) : ∃ t, c.system.Later s t ∧ t.consumer = .ended := by
  induction rank : c.rank s using Nat.strong_induction_on generalizing s with
  | _ rank ih =>
    by_cases past : s.consumer = .ended
    · exact ⟨s, .refl s, past⟩
    · obtain ⟨label, t, step, less⟩ := (reachable_sound reached).advances past
      obtain ⟨u, later, ended⟩ := ih (c.rank t) (by omega) (reached.step step) rfl
      exact ⟨u, (System.LaterUnder.step (.refl s) trivial step).trans later, ended⟩

/-- How the call ends: all readers are done, each slot is back in the queue, the first error is one that was raised,
and without one every descriptor was copied once, with its own tensor. -/
structure Exited (c : Call T) (s : State T E) : Prop where
  readers : ∀ reader < c.shards.length, s.readers reader = .done
  messages : s.messages = []
  slots : ∀ slot, s.slots.count slot = if slot < c.slotCount then 1 else 0
  raises : s.firstError = none ↔ s.raised = []
  raised : ∀ error, s.firstError = some error → error ∈ s.raised
  once : s.raised = [] → ∀ reader place,
    (s.copied.map Prod.fst).count (reader, place) = if place < c.count reader then 1 else 0
  own : ∀ entry ∈ s.copied, entry.2 = c.projected entry.1.1 entry.1.2

theorem Sound.exited (sound : Sound c s) (ended : s.consumer = .ended) : Exited c s := by
  obtain ⟨done, empty⟩ := sound.mail.all (sound.mail.ended (.inr ended))
  refine ⟨done, empty, ?_, ⟨?_, ?_⟩, sound.errors.first, ?_, sound.filled.copied⟩
  · intro slot
    have free : ∑ reader ∈ Finset.range c.shards.length, one (s.readers reader).held slot = 0 := by
      apply Finset.sum_eq_zero
      intro reader member
      rw [done reader (Finset.mem_range.mp member)]
      rfl
    have placed := sound.held slot
    rw [holders, empty, free, ended] at placed
    exact placed
  · intro none
    by_contra raised
    rcases sound.errors.kept raised with failed | ⟨reader, error, member⟩ | ⟨reader, listed, reports⟩
    · simp [none] at failed
    · simp [empty] at member
    · rw [done reader listed] at reports
      exact reports
  · intro clean
    cases first : s.firstError with
    | none => rfl
    | some error =>
      have member := sound.errors.first error first
      rw [clean] at member
      cases member
  · intro clean reader place
    have staged := sound.copied clean reader place
    rw [copies, empty, ended] at staged
    change _ = if place < (s.readers reader).emitted (c.count reader) then 1 else 0 at staged
    by_cases listed : reader < c.shards.length
    · rw [done reader listed] at staged
      exact staged
    · have none : c.count reader = 0 := by
        simp [Call.count, Nat.le_of_not_lt listed]
      have waiting : s.readers reader = .waiting := by
        rw [sound.order.waiting]
        exact sound.order.started_le.trans (sound.order.submitted_le.trans (Nat.le_of_not_lt listed))
      rw [waiting] at staged
      rw [none]
      exact staged

/-- Every run of the call: a slot has one holder, all steps but a wait for a slot in vain leave less to do and one
such step is there until the call ends, and it ends with every reader done and every slot back. -/
theorem staged_loading (c : Call T) (s : State T E) (reached : c.system.Reachable s) :
    (∀ slot, holders c s slot = if slot < c.slotCount then 1 else 0) ∧
      (∀ label t, c.Step s label t → c.rank t < c.rank s ∨ s.slots = [] ∧
        ∃ reader place, s.readers reader = .polling place ∧ t = s.setReader reader (.acquiring place)) ∧
      (s.consumer ≠ .ended → ∃ label t, c.Step s label t ∧ c.rank t < c.rank s) ∧
      (∃ t, c.system.Later s t ∧ t.consumer = .ended) ∧
      (s.consumer = .ended → Exited c s) := by
  have sound := reachable_sound reached
  exact ⟨sound.held, fun _ _ step => rank_step sound.order step, sound.advances, exists_ended reached, sound.exited⟩

/-- Two shards of two and one descriptors, one slot and two workers. -/
def twoShards : Call Nat where
  shards := [2, 1]
  projected := fun reader place => 10 * reader + place
  slotCount := 1
  parallelism := 2
  slotCount_pos := Nat.one_pos
  parallelism_pos := Nat.two_pos

def twoShardsStart : State Nat String where
  readers := fun _ => .waiting
  started := 0
  consumer := .submitting
  submitted := 0
  finishedReaders := 0
  firstError := none
  slots := [0]
  messages := []
  cancelled := false
  contents := fun _ => 0
  copied := []
  raised := []

theorem staged_loading_two_shards :
    ∃ t : State Nat String, twoShards.system.Reachable t ∧ t.consumer = .ended ∧ Exited twoShards t := by
  have start : twoShards.system.Reachable twoShardsStart :=
    .start ⟨fun _ => rfl, rfl, rfl, rfl, rfl, rfl, rfl, rfl, rfl, rfl, rfl⟩
  obtain ⟨-, -, -, ⟨t, later, ended⟩, -⟩ := staged_loading twoShards twoShardsStart start
  have reached := System.LaterUnder.reachable start later
  obtain ⟨-, -, -, -, exits⟩ := staged_loading twoShards t reached
  exact ⟨t, reached, ended, exits ended⟩

/-! ## Nothing is lost -/

/-- All places of slots: the queue, the messages, the readers and the copying thread. -/
def Call.places (c : Call T) (s : State T E) : List Nat :=
  s.slots ++ s.messages.filterMap Message.held ++
    (List.range c.shards.length).filterMap (fun reader => (s.readers reader).held) ++ s.consumer.held.toList

/-- The descriptors of all shards. -/
def Call.descriptors (c : Call T) : List (Nat × Nat) :=
  (List.range c.shards.length).flatMap fun reader => (List.range (c.count reader)).map fun place => (reader, place)

theorem count_filterMap_one {α β : Type} [DecidableEq β] (held : α → Option β) (among : List α) (thing : β) :
    (among.filterMap held).count thing = (among.map fun a => one (held a) thing).sum := by
  induction among with
  | nil => rfl
  | cons a rest ih =>
    rw [List.map_cons, List.sum_cons, ← ih]
    cases own : held a with
    | none => rw [List.filterMap_cons_none own, one_none, Nat.zero_add]
    | some thing' =>
      rw [List.filterMap_cons_some own, List.count_cons, one_some, Nat.add_comm]
      simp only [beq_iff_eq]

theorem count_places (c : Call T) (s : State T E) (slot : Nat) : (c.places s).count slot = holders c s slot := by
  have main : s.consumer.held.toList.count slot = one s.consumer.held slot := by
    cases s.consumer.held with
    | none => rfl
    | some held => simp [one_some, List.count_singleton]
  rw [Call.places, List.count_append, List.count_append, List.count_append, count_filterMap_one, count_filterMap_one, main]
  rfl

theorem count_range (bound place : Nat) : (List.range bound).count place = if place < bound then 1 else 0 := by
  rw [List.Nodup.count List.nodup_range]
  simp only [List.mem_range]

/-- The slots are in places of their own. -/
theorem Sound.places (sound : Sound c s) : (c.places s).Perm (List.range c.slotCount) := by
  apply List.perm_iff_count.mpr
  intro slot
  rw [count_places, sound.held slot, count_range]

theorem Call.count_descriptors (c : Call T) (reader place : Nat) :
    c.descriptors.count (reader, place) = if place < c.count reader then 1 else 0 := by
  have distinct : c.descriptors.Nodup := by
    rw [Call.descriptors, List.nodup_flatMap]
    refine ⟨?_, ?_⟩
    · intro reader _
      exact List.nodup_range.map fun a b same => (Prod.mk.inj same).2
    · apply List.nodup_range.imp
      intro a b apart entry first second
      obtain ⟨place', -, rfl⟩ := List.mem_map.mp first
      obtain ⟨place'', -, same⟩ := List.mem_map.mp second
      exact apart (Prod.mk.inj same).1.symm
  have listed : (reader, place) ∈ c.descriptors ↔ place < c.count reader := by
    rw [Call.descriptors, List.mem_flatMap]
    constructor
    · rintro ⟨own, -, member⟩
      obtain ⟨place', inside, same⟩ := List.mem_map.mp member
      obtain ⟨rfl, rfl⟩ := Prod.mk.inj same
      exact List.mem_range.mp inside
    · intro inside
      refine ⟨reader, ?_, List.mem_map.mpr ⟨place, List.mem_range.mpr inside, rfl⟩⟩
      rw [List.mem_range]
      by_contra beyond
      have none : c.count reader = 0 := by
        simp [Call.count, Nat.le_of_not_lt beyond]
      omega
  rw [distinct.count]
  simp only [listed]

/-- How the call is left: all readers are done and all slots are back, it raises iff some step has raised, one of
these errors, and where it returns it has copied the tensor of each descriptor. -/
structure Left (c : Call T) (s : State T E) : Prop where
  readers : ∀ reader < c.shards.length, s.readers reader = .done
  slots : s.slots.Perm (List.range c.slotCount)
  returns : s.firstError = none ↔ s.raised = []
  raises : ∀ error, s.firstError = some error → error ∈ s.raised
  copied : s.firstError = none →
    s.copied.Perm (c.descriptors.map fun descriptor => (descriptor, c.projected descriptor.1 descriptor.2))

theorem Exited.left (exited : Exited c s) : Left c s := by
  refine ⟨exited.readers, ?_, exited.raises, exited.raised, ?_⟩
  · apply List.perm_iff_count.mpr
    intro slot
    rw [exited.slots slot, count_range]
  · intro returned
    have clean := exited.raises.mp returned
    have each : (s.copied.map Prod.fst).Perm c.descriptors := by
      apply List.perm_iff_count.mpr
      rintro ⟨reader, place⟩
      rw [exited.once clean, c.count_descriptors]
    have own : (s.copied.map Prod.fst).map (fun descriptor => (descriptor, c.projected descriptor.1 descriptor.2)) = s.copied := by
      rw [List.map_map]
      conv_rhs => rw [← List.map_id s.copied]
      apply List.map_congr_left
      intro entry member
      exact Prod.ext rfl (exited.own entry member).symm
    exact own ▸ each.map _

/-- No slot is lost and no thread waits for ever: in every reachable state each slot is in one place, and until the call
ends some thread can get on, which happens as often as the rank allows. -/
theorem slots_never_lost (reached : c.system.Reachable s) :
    (c.places s).Perm (List.range c.slotCount) ∧
      (s.consumer ≠ .ended → ∃ label t, c.Step s label t ∧ c.rank t < c.rank s) ∧
      (∃ t, c.system.Later s t ∧ t.consumer = .ended) ∧ (s.consumer = .ended → Left c s) := by
  have sound := reachable_sound reached
  exact ⟨sound.places, sound.advances, exists_ended reached, fun ended => (sound.exited ended).left⟩

/-- While a reader holds the only slot, and at the end that the call can be brought to. -/
theorem slots_never_lost_two_shards :
    ∃ s t : State Nat String, s.readers 0 = .reading 0 0 ∧ (twoShards.places s).Perm [0] ∧ twoShards.system.Later s t ∧
      t.consumer = .ended ∧ Left twoShards t := by
  have start : twoShards.system.Reachable twoShardsStart :=
    .start ⟨fun _ => rfl, rfl, rfl, rfl, rfl, rfl, rfl, rfl, rfl, rfl, rfl⟩
  have submitted := start.step (.main (.submit rfl (by decide)))
  have started := submitted.step (.start (by decide) (by decide))
  have opened := started.step (@Call.Step.reader _ _ _ _ 0 _ _ (by decide) .opened)
  have entered := opened.step (@Call.Step.reader _ _ _ _ 0 _ _ (by decide) (.entered (by decide) rfl))
  have polled := entered.step (@Call.Step.reader _ _ _ _ 0 _ _ (by decide) (.polled rfl))
  have taken := polled.step (@Call.Step.reader _ _ _ _ 0 _ _ (by decide) (.taken rfl))
  obtain ⟨places, -, ⟨t, later, ended⟩, -⟩ := slots_never_lost taken
  obtain ⟨-, -, -, leaves⟩ := slots_never_lost (System.LaterUnder.reachable taken later)
  exact ⟨_, t, rfl, places, later, ended, leaves ended⟩

end Staging

end CrossPool.FfnAgent
