import CrossPool.Lib.Channel
import CrossPool.Lib.Runs
import Mathlib.Logic.Function.Basic

/-!
# Claimed broadcast

Any number of callers in any number of processes race for one claim word at a home
process. The winner writes its payload to its own copy and puts it to the home's
copy; the home, once it sees it, puts it to every other copy. A reader looks at the
word of its own copy and reads the record behind it. Claim, write, put, look and
read are steps of their own, in any interleaving, and a write or a put may be seen
half done.
-/

namespace CrossPool.Lib

variable {R : Type}

/-- Where a call stands: before the claim, with the claim won, with its copy written. -/
inductive CallerPc (R : Type) where
  | idle
  | calling (payload : R)
  | won (payload : R)
  | written (payload : R)
deriving DecidableEq, Repr

/-- The payload of a caller that has won and not yet put. -/
def CallerPc.holds : CallerPc R → Option R
  | won payload => some payload
  | written payload => some payload
  | _ => none

inductive HubPc where
  | watching
  | sending (rest : List Nat)
  | done
deriving DecidableEq, Repr

/-- The processes that the home has yet to put to, once that is settled. -/
def HubPc.owes : HubPc → Option (List Nat)
  | watching => none
  | sending rest => some rest
  | done => some []

/-- The claim word, the copies, callers and readers by process and thread, and the
home's broadcast. The last two fields are history: who has won the claim with what,
and what was read where. -/
structure Board (R : Type) where
  claim : Bool
  copies : Nat → Channel R Empty
  callers : Nat × Nat → CallerPc R
  readers : Nat × Nat → Bool
  hub : HubPc
  winners : List (Nat × R)
  reads : List (Nat × R)

inductive Board.Move (R : Type) where
  | call (caller : Nat × Nat) (payload : R)
  | swap (caller : Nat × Nat)
  | scribble (caller : Nat × Nat) (garbage : R)
  | write (caller : Nat × Nat)
  | put (caller : Nat × Nat)
  | look (reader : Nat × Nat)
  | read (reader : Nat × Nat)
  | watch
  | leave
  | send
  | deliver (process : Nat) (delivery : Delivery R)

namespace Board

def create (record : R) : Board R where
  claim := false
  copies _ := .create record
  callers _ := .idle
  readers _ := false
  hub := .watching
  winners := []
  reads := []

variable (home : Nat) (members : List Nat) (b : Board R)

/-- The payload is published at the process. -/
def published (process : Nat) : Bool :=
  (b.copies process).sequence = 1

def setCopy (process : Nat) (copy : Channel R Empty) : Board R :=
  { b with copies := Function.update b.copies process copy }

def setCaller (caller : Nat × Nat) (pc : CallerPc R) : Board R :=
  { b with callers := Function.update b.callers caller pc }

/-- One step, if it can be taken. -/
def next : Move R → Option (Board R)
  | .call caller payload =>
    match b.callers caller with
    | .idle => some (b.setCaller caller (.calling payload))
    | _ => none
  | .swap caller =>
    match b.callers caller with
    | .calling payload =>
      if b.claim then some (b.setCaller caller .idle)
      else
        some
          { b.setCaller caller (.won payload) with
            claim := true
            winners := b.winners ++ [(caller.1, payload)] }
    | _ => none
  | .scribble caller garbage =>
    match b.callers caller with
    | .won _ => some (b.setCopy caller.1 ((b.copies caller.1).store garbage))
    | _ => none
  | .write caller =>
    match b.callers caller with
    | .won payload => some ((b.setCopy caller.1 ((b.copies caller.1).store payload)).setCaller caller (.written payload))
    | _ => none
  | .put caller =>
    match b.callers caller with
    | .written _ =>
      some
        ((b.setCopy home
            ((b.copies home).send
              { payload := []
                record := (b.copies caller.1).record
                landed := caller.1 = home })).setCaller
          caller .idle)
    | _ => none
  | .look reader =>
    if b.published reader.1 then some { b with readers := Function.update b.readers reader true } else none
  | .read reader =>
    if b.readers reader then
      some
        { b with
          readers := Function.update b.readers reader false
          reads := b.reads ++ [(reader.1, (b.copies reader.1).record)] }
    else none
  | .watch =>
    match b.hub with
    | .watching => if b.published home then some { b with hub := .sending (members.filter (· ≠ home)) } else none
    | _ => none
  | .leave => some { b with hub := .done }
  | .send =>
    match b.hub with
    | .sending [] => some { b with hub := .done }
    | .sending (process :: rest) =>
      some
        { b.setCopy process
            ((b.copies process).send
              { payload := []
                record := (b.copies home).record
                landed := false }) with
          hub := .sending rest }
    | _ => none
  | .deliver process delivery =>
    ((b.copies process).deliver (fun _ => 1) delivery).map fun (copy, _) => b.setCopy process copy

/-- Runs in which a process makes only the calls it may make. -/
def system (record : R) (calls : Nat → R → Prop) : System (Board R) (Move R) where
  init b := b = create record
  step b move b' :=
    b.next home members move = some b' ∧ ∀ caller payload, move = .call caller payload → calls caller.1 payload

/-! ## What every step keeps -/

/-- One winner at most, and nothing but its payload anywhere. -/
structure Sound (b : Board R) : Prop where
  unclaimed : b.claim = false → b.winners = []
  single : b.winners.length ≤ 1
  holder : ∀ caller payload, (b.callers caller).holds = some payload → b.winners = [(caller.1, payload)]
  alone :
    ∀ caller other payload payload', (b.callers caller).holds = some payload → (b.callers other).holds = some payload' →
      caller = other
  quiet :
    (b.winners = [] ∨ ∃ caller payload, (b.callers caller).holds = some payload) →
      ∀ process, (b.copies process).flight = [] ∧ (b.copies process).sequence = 0
  written : ∀ caller payload, b.callers caller = .written payload → (b.copies caller.1).record = payload
  tracks : ∀ process, (b.copies process).Tracks (fun _ => 1) (fun record => ∃ winner, (winner, record) ∈ b.winners) 0
  unsent :
    ∀ process ≠ home, (∀ rest, b.hub.owes = some rest → process ∈ rest) →
      (b.copies process).flight = [] ∧ (b.copies process).sequence = 0
  once : ∀ rest, b.hub.owes = some rest → home ∉ rest ∧ rest.Nodup
  announced : ∀ rest, b.hub.owes = some rest → rest ≠ [] → b.published home
  looking : ∀ reader, b.readers reader → b.published reader.1
  seen : ∀ process record, (process, record) ∈ b.reads → ∃ winner, (winner, record) ∈ b.winners

section Steps

variable {home : Nat} {members : List Nat} {b b' : Board R} {caller reader : Nat × Nat} {payload : R} {process : Nat}
  {record : R} {calls : Nat → R → Prop}

theorem published_iff : b.published process ↔ (b.copies process).sequence = 1 := by
  simp [published]

theorem setCaller_holds {pc : CallerPc R} {other : Nat × Nat} {payload' : R}
    (held : ((b.setCaller caller pc).callers other).holds = some payload') :
    (other = caller ∧ pc.holds = some payload') ∨ (other ≠ caller ∧ (b.callers other).holds = some payload') := by
  simp only [setCaller] at held
  by_cases same : other = caller
  · subst same
    rw [Function.update_self] at held
    exact .inl ⟨rfl, held⟩
  · rw [Function.update_of_ne same] at held
    exact .inr ⟨same, held⟩

/-- What is published is the winner's, and nothing more is on its way. -/
theorem Sound.settled (sound : Sound home b) (published : b.published process) :
    (b.copies process).flight = [] ∧ ∃ winner, (winner, (b.copies process).record) ∈ b.winners := by
  have sequence := published_iff.mp published
  obtain ⟨empty, legit, -⟩ := (sound.tracks process).fresh (by omega)
  exact ⟨empty, legit⟩

/-- A caller that holds nothing goes on to hold nothing. -/
theorem Sound.passive (sound : Sound home b) {pc : CallerPc R} (after : pc.holds = none)
    (before : (b.callers caller).holds = none) : Sound home (b.setCaller caller pc) := by
  have old {other : Nat × Nat} {payload' : R} (held : ((b.setCaller caller pc).callers other).holds = some payload') :
      (b.callers other).holds = some payload' := by
    rcases setCaller_holds held with ⟨-, new⟩ | ⟨-, old⟩
    · rw [after] at new
      cases new
    · exact old
  refine ⟨sound.unclaimed, sound.single, ?_, ?_, ?_, ?_, sound.tracks, sound.unsent, sound.once, sound.announced,
    sound.looking, sound.seen⟩
  · exact fun other payload' held => sound.holder other payload' (old held)
  · exact fun first second _ _ held held' => sound.alone first second _ _ (old held) (old held')
  · rintro (none | ⟨other, payload', held⟩)
    · exact sound.quiet (.inl none)
    · exact sound.quiet (.inr ⟨other, payload', old held⟩)
  · intro other payload' stands
    have held : (b.callers other).holds = some payload' := by
      apply old
      rw [stands]
      rfl
    simp only [setCaller] at stands
    by_cases same : other = caller
    · subst same
      rw [before] at held
      cases held
    · rw [Function.update_of_ne same] at stands
      exact sound.written other payload' stands

/-- A caller wins the claim. -/
theorem Sound.win (sound : Sound home b) (unclaimed : b.claim = false) :
    Sound home
      { b.setCaller caller (.won payload) with
        claim := true
        winners := b.winners ++ [(caller.1, payload)] } := by
  have none := sound.unclaimed unclaimed
  have still := sound.quiet (.inl none)
  have only {other : Nat × Nat} {payload' : R}
      (held : ((b.setCaller caller (.won payload)).callers other).holds = some payload') :
      other = caller ∧ payload = payload' := by
    rcases setCaller_holds held with ⟨same, new⟩ | ⟨-, old⟩
    · exact ⟨same, Option.some.inj new⟩
    · have := sound.holder other payload' old
      rw [none] at this
      cases this
  have untouched {P : Prop} (process : Nat) (published : b.published process) : P := by
    have := (still process).2
    have := published_iff.mp published
    omega
  refine ⟨nofun, by simp [none], ?_, ?_, fun _ => still, ?_, ?_, fun process _ _ => still process, sound.once, ?_, ?_, ?_⟩
  · intro other payload' held
    obtain ⟨rfl, rfl⟩ := only held
    simp [none]
  · intro first second _ _ held held'
    exact (only held).1.trans (only held').1.symm
  · intro other payload' stands
    have held : ((b.setCaller caller (.won payload)).callers other).holds = some payload' := by
      have : (b.setCaller caller (.won payload)).callers other = .written payload' := stands
      rw [this]
      rfl
    obtain ⟨rfl, -⟩ := only held
    simp [setCaller] at stands
  · exact fun process => .idle (still process).1 (Nat.le_of_eq (still process).2)
  · exact fun rest owes more => untouched _ (sound.announced rest owes more)
  · exact fun reader looks => untouched _ (sound.looking reader looks)
  · intro process record seen
    obtain ⟨winner, won⟩ := sound.seen process record seen
    rw [none] at won
    cases won

theorem setCopy_same (copy : Channel R Empty) : (b.setCopy process copy).copies process = copy := by
  simp [setCopy]

theorem setCopy_of_ne {other : Nat} (copy : Channel R Empty) (ne : other ≠ process) :
    (b.setCopy process copy).copies other = b.copies other := by
  simp [setCopy, ne]

/-- The winner writes to its own copy. -/
theorem Sound.store (sound : Sound home b) (held : (b.callers caller).holds = some payload) {record : R} {pc : CallerPc R}
    (stays : pc.holds = some payload) (complete : ∀ other, pc = .written other → record = other) :
    Sound home ((b.setCopy caller.1 ((b.copies caller.1).store record)).setCaller caller pc) := by
  have still := sound.quiet (.inr ⟨caller, payload, held⟩)
  have stored (process : Nat) :
      ((b.setCopy caller.1 ((b.copies caller.1).store record)).copies process).flight = [] ∧
        ((b.setCopy caller.1 ((b.copies caller.1).store record)).copies process).sequence = 0 := by
    by_cases same : process = caller.1
    · subst same
      rw [setCopy_same]
      exact still caller.1
    · rw [setCopy_of_ne _ same]
      exact still process
  have only {other : Nat × Nat} {payload' : R}
      (held' : ((b.setCaller caller pc).callers other).holds = some payload') : other = caller ∧ payload = payload' := by
    rcases setCaller_holds held' with ⟨same, new⟩ | ⟨other, old⟩
    · rw [stays] at new
      exact ⟨same, Option.some.inj new⟩
    · exact absurd (sound.alone _ _ _ _ old held) other
  have untouched {P : Prop} (process : Nat) (published : b.published process) : P := by
    have := (still process).2
    have := published_iff.mp published
    omega
  refine ⟨sound.unclaimed, sound.single, ?_, ?_, fun _ => stored, ?_, ?_, fun process _ _ => stored process, sound.once, ?_, ?_,
    sound.seen⟩
  · intro other payload' held'
    obtain ⟨rfl, rfl⟩ := only held'
    exact sound.holder other payload held
  · intro first second _ _ held' held''
    exact (only held').1.trans (only held'').1.symm
  · intro other payload' stands
    have written : (b.setCaller caller pc).callers other = .written payload' := stands
    obtain ⟨rfl, rfl⟩ := @only other payload' (by rw [written]; rfl)
    have here : pc = .written payload := by simpa [setCaller] using stands
    have filled : ((b.setCopy other.1 ((b.copies other.1).store record)).copies other.1).record = record := by
      rw [setCopy_same]
      rfl
    rw [← complete payload here]
    exact filled
  · exact fun process => .idle (stored process).1 (Nat.le_of_eq (stored process).2)
  · exact fun rest owes more => untouched _ (sound.announced rest owes more)
  · exact fun reader looks => untouched _ (sound.looking reader looks)

/-- The winner starts its put to the home. -/
theorem Sound.put (sound : Sound home b) (stands : b.callers caller = .written payload) :
    Sound home
      ((b.setCopy home
          ((b.copies home).send
            { payload := []
              record := (b.copies caller.1).record
              landed := caller.1 = home })).setCaller
        caller .idle) := by
  have held : (b.callers caller).holds = some payload := by
    rw [stands]
    rfl
  have still := sound.quiet (.inr ⟨caller, payload, held⟩)
  have own := sound.written caller payload stands
  have winner := sound.holder caller payload held
  have nobody {other : Nat × Nat} {payload' : R}
      (held' : ((b.setCaller caller .idle).callers other).holds = some payload') : False := by
    rcases setCaller_holds held' with ⟨-, new⟩ | ⟨other, old⟩
    · cases new
    · exact absurd (sound.alone _ _ _ _ old held) other
  have untouched {P : Prop} (process : Nat) (published : b.published process) : P := by
    have := (still process).2
    have := published_iff.mp published
    omega
  refine ⟨sound.unclaimed, sound.single, fun _ _ held' => (nobody held').elim, fun _ _ _ _ held' => (nobody held').elim, ?_, ?_,
    ?_, ?_, sound.once, ?_, ?_, sound.seen⟩
  · rintro (none | ⟨other, payload', held'⟩)
    · have none : b.winners = [] := none
      rw [winner] at none
      cases none
    · exact (nobody held').elim
  · intro other payload' stands'
    have written : (b.setCaller caller .idle).callers other = .written payload' := stands'
    exact (@nobody other payload' (by rw [written]; rfl)).elim
  · intro process
    by_cases same : process = home
    · subst same
      show ((b.setCopy process _).copies process).Tracks _ _ 0
      rw [setCopy_same]
      refine .send (still process).1 (Nat.le_of_eq (still process).2) ⟨caller.1, ?_⟩ (by simp) ?_
      · rw [own]
        show _ ∈ b.winners
        simp [winner]
      · intro landed
        rw [show caller.1 = process from of_decide_eq_true landed]
    · show ((b.setCopy home _).copies process).Tracks _ _ 0
      rw [setCopy_of_ne _ same]
      exact .idle (still process).1 (Nat.le_of_eq (still process).2)
  · intro process other _
    show ((b.setCopy home _).copies process).flight = [] ∧ ((b.setCopy home _).copies process).sequence = 0
    rw [setCopy_of_ne _ other]
    exact still process
  · exact fun rest owes more => untouched _ (sound.announced rest owes more)
  · exact fun reader looks => untouched _ (sound.looking reader looks)

/-- The next process that the home puts to has not been sent to. -/
theorem Sound.unsent_next (sound : Sound home b) {rest : List Nat} (stands : b.hub = .sending (process :: rest)) :
    process ≠ home ∧ (b.copies process).flight = [] ∧ (b.copies process).sequence = 0 := by
  have owes : b.hub.owes = some (process :: rest) := by
    rw [stands]
    rfl
  have ne : process ≠ home := by
    rintro rfl
    exact (sound.once _ owes).1 List.mem_cons_self
  refine ⟨ne, sound.unsent process ne fun sent settles => ?_⟩
  obtain rfl := Option.some.inj (owes.symm.trans settles)
  exact List.mem_cons_self

/-- The home puts to the next process. -/
theorem Sound.send (sound : Sound home b) {rest : List Nat} (stands : b.hub = .sending (process :: rest)) :
    Sound home
      { b.setCopy process
          ((b.copies process).send
            { payload := []
              record := (b.copies home).record
              landed := false }) with
        hub := .sending rest } := by
  have owes : b.hub.owes = some (process :: rest) := by
    rw [stands]
    rfl
  have published := sound.announced _ owes (by simp)
  obtain ⟨others, nodup⟩ := sound.once _ owes
  obtain ⟨ne, empty, zero⟩ := sound.unsent_next stands
  have loud {P : Prop} (quiet : b.winners = [] ∨ ∃ caller payload, (b.callers caller).holds = some payload) : P := by
    have := (sound.quiet quiet home).2
    have := published_iff.mp published
    omega
  have word (other : Nat) : ((b.setCopy process ((b.copies process).send
      { payload := [], record := (b.copies home).record, landed := false })).copies other).sequence =
        (b.copies other).sequence := by
    by_cases same : other = process
    · subst same
      rw [setCopy_same]
      rfl
    · rw [setCopy_of_ne _ same]
  refine ⟨sound.unclaimed, sound.single, sound.holder, sound.alone, fun quiet => loud quiet, ?_, ?_, ?_, ?_, ?_, ?_, sound.seen⟩
  · intro caller payload written
    have written : b.callers caller = .written payload := written
    exact loud (.inr ⟨caller, payload, by rw [written]; rfl⟩)
  · intro other
    by_cases same : other = process
    · subst same
      show ((b.setCopy other _).copies other).Tracks _ _ 0
      rw [setCopy_same]
      exact .send empty (by omega) (sound.settled published).2 (by simp) (by simp)
    · show ((b.setCopy process _).copies other).Tracks _ _ 0
      rw [setCopy_of_ne _ same]
      exact sound.tracks other
  · intro other away sends
    have later : other ∈ rest := sends rest rfl
    have apart : other ≠ process := by
      rintro rfl
      exact (List.nodup_cons.mp nodup).1 later
    show ((b.setCopy process _).copies other).flight = [] ∧ ((b.setCopy process _).copies other).sequence = 0
    rw [setCopy_of_ne _ apart]
    refine sound.unsent other away fun sent settles => ?_
    obtain rfl := Option.some.inj (owes.symm.trans settles)
    exact List.mem_cons_of_mem _ later
  · rintro rest' settles
    obtain rfl : rest = rest' := Option.some.inj settles
    exact ⟨fun member => others (List.mem_cons_of_mem _ member), (List.nodup_cons.mp nodup).2⟩
  · intro _ _ _
    exact published_iff.mpr ((word home).trans (published_iff.mp published))
  · intro reader looks
    exact published_iff.mpr ((word reader.1).trans (published_iff.mp (sound.looking reader looks)))

theorem Sound.deliver (sound : Sound home b) {delivery : Delivery R} {copy : Channel R Empty} {written : Option Empty}
    (delivered : (b.copies process).deliver (fun _ => 1) delivery = some (copy, written)) :
    Sound home (b.setCopy process copy) := by
  have busy := (Channel.deliver_flight delivered).1
  have elsewhere {other : Nat} (published : b.published other) : (b.setCopy process copy).copies other = b.copies other := by
    apply setCopy_of_ne
    rintro rfl
    exact busy (sound.settled published).1
  refine ⟨sound.unclaimed, sound.single, sound.holder, sound.alone, ?_, ?_, ?_, ?_, sound.once, ?_, ?_, sound.seen⟩
  · exact fun quiet => absurd (sound.quiet quiet process).1 busy
  · intro caller payload stands
    have stands : b.callers caller = .written payload := stands
    exact absurd (sound.quiet (.inr ⟨caller, payload, by rw [stands]; rfl⟩) process).1 busy
  · intro other
    by_cases same : other = process
    · subst same
      rw [setCopy_same]
      exact (sound.tracks other).deliver delivered
    · rw [setCopy_of_ne _ same]
      exact sound.tracks other
  · intro other away sends
    by_cases same : other = process
    · subst same
      exact absurd (sound.unsent other away sends).1 busy
    · rw [setCopy_of_ne _ same]
      exact sound.unsent other away sends
  · intro rest owes more
    have published := sound.announced rest owes more
    rw [published_iff, elsewhere published]
    exact published_iff.mp published
  · intro reader looks
    have published := sound.looking reader looks
    rw [published_iff, elsewhere published]
    exact published_iff.mp published

/-- The home is done, or stops before it is. -/
theorem Sound.depart (sound : Sound home b) : Sound home { b with hub := .done } := by
  refine ⟨sound.unclaimed, sound.single, sound.holder, sound.alone, sound.quiet, sound.written, sound.tracks, ?_, ?_, ?_,
    sound.looking, sound.seen⟩
  · exact fun process _ sends => absurd (sends [] rfl) (by simp)
  · rintro rest ⟨⟩
    exact ⟨by simp, List.nodup_nil⟩
  · rintro rest ⟨⟩ more
    exact absurd rfl more

/-- Every step keeps the board sound. -/
theorem Sound.next (sound : Sound home b) (distinct : members.Nodup) {move : Move R}
    (taken : b.next home members move = some b') : Sound home b' := by
  cases move with
  | call caller payload =>
    simp only [Board.next] at taken
    split at taken
    · next idle =>
      obtain rfl := Option.some.inj taken
      exact sound.passive rfl (by rw [idle]; rfl)
    · cases taken
  | swap caller =>
    simp only [Board.next] at taken
    split at taken
    · next calling =>
      split at taken
      · obtain rfl := Option.some.inj taken
        exact sound.passive rfl (by rw [calling]; rfl)
      · next unclaimed =>
        obtain rfl := Option.some.inj taken
        exact sound.win (by simpa using unclaimed)
    · cases taken
  | scribble caller garbage =>
    simp only [Board.next] at taken
    split at taken
    · next payload won =>
      obtain rfl := Option.some.inj taken
      have same : (b.setCopy caller.1 ((b.copies caller.1).store garbage)).setCaller caller (.won payload) =
          b.setCopy caller.1 ((b.copies caller.1).store garbage) := by
        have callers : Function.update b.callers caller (.won payload) = b.callers := by
          rw [← won, Function.update_eq_self]
        simp only [setCaller, setCopy, callers]
      rw [← same]
      exact sound.store (by rw [won]; rfl) rfl nofun
    · cases taken
  | write caller =>
    simp only [Board.next] at taken
    split at taken
    · next payload won =>
      obtain rfl := Option.some.inj taken
      refine sound.store (by rw [won]; rfl) rfl ?_
      rintro other ⟨⟩
      rfl
    · cases taken
  | put caller =>
    simp only [Board.next] at taken
    split at taken
    · next payload written =>
      obtain rfl := Option.some.inj taken
      exact sound.put written
    · cases taken
  | look reader =>
    simp only [Board.next] at taken
    split at taken
    · next published =>
      obtain rfl := Option.some.inj taken
      refine ⟨sound.unclaimed, sound.single, sound.holder, sound.alone, sound.quiet, sound.written, sound.tracks, sound.unsent,
        sound.once, sound.announced, ?_, sound.seen⟩
      intro other looks
      dsimp only at looks
      by_cases same : other = reader
      · subst same
        exact published
      · rw [Function.update_of_ne same] at looks
        exact sound.looking other looks
    · cases taken
  | read reader =>
    simp only [Board.next] at taken
    split at taken
    · next looks =>
      obtain rfl := Option.some.inj taken
      refine ⟨sound.unclaimed, sound.single, sound.holder, sound.alone, sound.quiet, sound.written, sound.tracks, sound.unsent,
        sound.once, sound.announced, ?_, ?_⟩
      · intro other looks'
        dsimp only at looks'
        by_cases same : other = reader
        · subst same
          simp at looks'
        · rw [Function.update_of_ne same] at looks'
          exact sound.looking other looks'
      · intro process record seen
        rcases List.mem_append.mp seen with old | new
        · exact sound.seen process record old
        · obtain ⟨rfl, rfl⟩ := Prod.mk.inj (List.mem_singleton.mp new)
          exact (sound.settled (sound.looking reader looks)).2
    · cases taken
  | watch =>
    simp only [Board.next] at taken
    split at taken
    · next watches =>
      split at taken
      · next published =>
        obtain rfl := Option.some.inj taken
        refine ⟨sound.unclaimed, sound.single, sound.holder, sound.alone, sound.quiet, sound.written, sound.tracks, ?_, ?_,
          fun _ _ _ => published, sound.looking, sound.seen⟩
        · intro process away _
          refine sound.unsent process away fun rest owes => ?_
          rw [watches] at owes
          cases owes
        · intro rest owes
          obtain rfl := Option.some.inj owes
          exact ⟨by simp, distinct.filter _⟩
      · cases taken
    · cases taken
  | leave =>
    obtain rfl := Option.some.inj taken
    exact sound.depart
  | send =>
    simp only [Board.next] at taken
    split at taken
    · obtain rfl := Option.some.inj taken
      exact sound.depart
    · next stands =>
      obtain rfl := Option.some.inj taken
      exact sound.send stands
    · cases taken
  | deliver process delivery =>
    obtain ⟨⟨copy, written⟩, delivered, rfl⟩ := Option.map_eq_some_iff.mp taken
    exact sound.deliver delivered

theorem reachable_sound (distinct : members.Nodup) (reached : (system home members record calls).Reachable b) :
    Sound home b := by
  apply System.ReachableUnder.invariant ?_ ?_ reached
  · rintro b rfl
    refine ⟨fun _ => rfl, Nat.zero_le _, nofun, nofun, fun _ _ => ⟨rfl, rfl⟩, nofun, fun _ => .create record,
      fun _ _ _ => ⟨rfl, rfl⟩, nofun, nofun, nofun, nofun⟩
  · intro b move b' _ sound _ taken
    exact sound.next distinct taken.1

/-! ## What a caller may call with -/

/-- Nothing is called with, or has won, that may not be called with. -/
structure Permitted (calls : Nat → R → Prop) (b : Board R) : Prop where
  callers : ∀ caller payload, b.callers caller = .calling payload ∨ b.callers caller = .won payload → calls caller.1 payload
  winners : ∀ winner payload, (winner, payload) ∈ b.winners → calls winner payload

theorem Permitted.setCopy (permitted : Permitted calls b) (copy : Channel R Empty) :
    Permitted calls (b.setCopy process copy) :=
  ⟨permitted.callers, permitted.winners⟩

theorem Permitted.setCaller (permitted : Permitted calls b) {pc : CallerPc R}
    (permits : ∀ payload, pc = .calling payload ∨ pc = .won payload → calls caller.1 payload) :
    Permitted calls (b.setCaller caller pc) := by
  refine ⟨?_, permitted.winners⟩
  intro other payload stands
  simp only [Board.setCaller] at stands
  by_cases same : other = caller
  · subst same
    rw [Function.update_self] at stands
    exact permits payload stands
  · rw [Function.update_of_ne same] at stands
    exact permitted.callers other payload stands

theorem Permitted.next (permitted : Permitted calls b) {move : Move R} (taken : b.next home members move = some b')
    (call : ∀ caller payload, move = .call caller payload → calls caller.1 payload) : Permitted calls b' := by
  cases move with
  | call caller payload =>
    simp only [Board.next] at taken
    split at taken
    · obtain rfl := Option.some.inj taken
      apply permitted.setCaller
      rintro _ (⟨⟨⟩⟩ | ⟨⟨⟩⟩)
      exact call caller payload rfl
    · cases taken
  | swap caller =>
    simp only [Board.next] at taken
    split at taken
    · next payload stands =>
      have permits := permitted.callers caller payload (.inl stands)
      split at taken
      · obtain rfl := Option.some.inj taken
        exact permitted.setCaller (by rintro _ (⟨⟨⟩⟩ | ⟨⟨⟩⟩))
      · obtain rfl := Option.some.inj taken
        have held : Permitted calls (b.setCaller caller (.won payload)) := by
          apply permitted.setCaller
          rintro _ (⟨⟨⟩⟩ | ⟨⟨⟩⟩)
          exact permits
        refine ⟨held.callers, ?_⟩
        intro winner payload' member
        rcases List.mem_append.mp member with old | new
        · exact permitted.winners winner payload' old
        · obtain ⟨rfl, rfl⟩ := Prod.mk.inj (List.mem_singleton.mp new)
          exact permits
    · cases taken
  | scribble caller garbage =>
    simp only [Board.next] at taken
    split at taken
    · obtain rfl := Option.some.inj taken
      exact permitted.setCopy _
    · cases taken
  | write caller =>
    simp only [Board.next] at taken
    split at taken
    · next payload stands =>
      obtain rfl := Option.some.inj taken
      exact (permitted.setCopy _).setCaller (by rintro _ (⟨⟨⟩⟩ | ⟨⟨⟩⟩))
    · cases taken
  | put caller =>
    simp only [Board.next] at taken
    split at taken
    · obtain rfl := Option.some.inj taken
      exact (permitted.setCopy _).setCaller (by rintro _ (⟨⟨⟩⟩ | ⟨⟨⟩⟩))
    · cases taken
  | deliver process delivery =>
    obtain ⟨⟨copy, written⟩, -, rfl⟩ := Option.map_eq_some_iff.mp taken
    exact permitted.setCopy copy
  | _ =>
    simp only [Board.next] at taken
    repeat' split at taken
    all_goals cases taken
    all_goals exact ⟨permitted.callers, permitted.winners⟩

theorem reachable_permitted (reached : (system home members record calls).Reachable b) : Permitted calls b := by
  apply System.ReachableUnder.invariant ?_ ?_ reached
  · rintro b rfl
    exact ⟨by rintro _ _ (⟨⟨⟩⟩ | ⟨⟨⟩⟩), nofun⟩
  · intro b move b' _ permitted _ taken
    exact permitted.next taken.1 taken.2

/-! ## What a run promises -/

/-- A published copy is the payload of the one winner. -/
theorem Sound.winner (sound : Sound home b) (published : b.published process) :
    ∃ winner, b.winners = [(winner, (b.copies process).record)] := by
  obtain ⟨-, winner, member⟩ := sound.settled published
  refine ⟨winner, ?_⟩
  have single := sound.single
  match winners : b.winners, single, member with
  | [only], _, member => rw [List.mem_singleton.mp member]
  | _ :: _ :: _, single, _ => simp at single

/-- Whatever two readers read is the same. -/
theorem Sound.reads_agree (sound : Sound home b) {other : Nat} {first second : R} (seen : (process, first) ∈ b.reads)
    (seen' : (other, second) ∈ b.reads) : first = second := by
  obtain ⟨winner, won⟩ := sound.seen process first seen
  obtain ⟨winner', won'⟩ := sound.seen other second seen'
  have single := sound.single
  match winners : b.winners, single, won, won' with
  | [only], _, won, won' =>
    rw [List.mem_singleton] at won won'
    exact congrArg Prod.snd (won.trans won'.symm)
  | _ :: _ :: _, single, _, _ => simp at single

/-- A winner stays the winner. -/
theorem next_winners {move : Move R} (taken : b.next home members move = some b') : b.winners <+: b'.winners := by
  cases move with
  | swap caller =>
    simp only [Board.next] at taken
    split at taken
    · split at taken
      · obtain rfl := Option.some.inj taken
        exact List.prefix_refl _
      · obtain rfl := Option.some.inj taken
        exact List.prefix_append _ _
    · cases taken
  | deliver process delivery =>
    obtain ⟨⟨copy, written⟩, -, rfl⟩ := Option.map_eq_some_iff.mp taken
    exact List.prefix_refl _
  | _ =>
    simp only [Board.next] at taken
    repeat' split at taken
    all_goals cases taken
    all_goals exact List.prefix_refl _

/-- A published copy is not sent to again, nor written by its own process. -/
theorem Sound.stays (sound : Sound home b) {move : Move R} (taken : b.next home members move = some b')
    (published : b.published process) : b'.copies process = b.copies process := by
  have loud {caller : Nat × Nat} {payload : R} (held : (b.callers caller).holds = some payload) : False := by
    have := (sound.quiet (.inr ⟨caller, payload, held⟩) process).2
    have := published_iff.mp published
    omega
  cases move with
  | scribble caller garbage =>
    simp only [Board.next] at taken
    split at taken
    · next won => exact (loud (by rw [won]; rfl)).elim
    · cases taken
  | write caller =>
    simp only [Board.next] at taken
    split at taken
    · next won => exact (loud (by rw [won]; rfl)).elim
    · cases taken
  | put caller =>
    simp only [Board.next] at taken
    split at taken
    · next written => exact (loud (by rw [written]; rfl)).elim
    · cases taken
  | send =>
    simp only [Board.next] at taken
    split at taken
    · obtain rfl := Option.some.inj taken
      rfl
    · next next rest stands =>
      obtain rfl := Option.some.inj taken
      apply setCopy_of_ne
      rintro rfl
      have := (sound.unsent_next stands).2.2
      have := published_iff.mp published
      omega
    · cases taken
  | deliver other delivery =>
    obtain ⟨⟨copy, written⟩, delivered, rfl⟩ := Option.map_eq_some_iff.mp taken
    apply setCopy_of_ne
    rintro rfl
    exact (Channel.deliver_flight delivered).1 (sound.settled published).1
  | swap caller =>
    simp only [Board.next] at taken
    split at taken
    · split at taken
      all_goals
        obtain rfl := Option.some.inj taken
        rfl
    · cases taken
  | _ =>
    simp only [Board.next] at taken
    repeat' split at taken
    all_goals cases taken
    all_goals rfl

/-- What is published stays so, and the winner stays the winner. -/
theorem later_stays (distinct : members.Nodup) (reached : (system home members record calls).Reachable b)
    (later : (system home members record calls).Later b b') (published : b.published process) :
    b'.copies process = b.copies process ∧ b'.winners = b.winners := by
  have kept : b.winners <+: b'.winners ∧ ∀ process, b.published process → b'.copies process = b.copies process := by
    apply System.LaterUnder.relation (R := fun b b' : Board R =>
      b.winners <+: b'.winners ∧ ∀ process, b.published process → b'.copies process = b.copies process) ?_ ?_ ?_ reached later
    · exact fun b => ⟨List.prefix_refl _, fun _ _ => rfl⟩
    · rintro first second third ⟨winners, copies⟩ ⟨winners', copies'⟩
      refine ⟨winners.trans winners', fun process published => ?_⟩
      have same := copies process published
      rw [← same]
      apply copies' process
      rw [published_iff, same]
      exact published_iff.mp published
    · intro first move second before taken
      exact ⟨next_winners taken.1, fun _ published => (reachable_sound distinct before).stays taken.1 published⟩
  refine ⟨kept.2 process published, ?_⟩
  obtain ⟨winner, won⟩ := (reachable_sound distinct reached).winner published
  have single := (reachable_sound distinct (System.LaterUnder.reachable reached later)).single
  obtain ⟨more, grown⟩ := kept.1
  rw [won] at grown ⊢
  rw [← grown] at single ⊢
  have none : more = [] := List.length_eq_zero_iff.mp (by simpa using single)
  rw [none]
  rfl

end Steps

end Board

end CrossPool.Lib
