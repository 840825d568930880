import Mathlib.Data.List.Basic

/-!
# Put-with-signal channels

One destination copy of a record and its sequence word, with the one-sided puts
that are still on their way to it. A put writes its payload elements in any
order, then its record, then its signal; until the record is complete the
destination may hold anything. Puts are not ordered among each other.

`Tracks` is what a reader that consumes sequence numbers in increasing order
needs: at most one put is on its way, and a word beyond the consumed number
comes with the complete record of a put that was legitimate. `Carries` is what a
sender of a record may rely on. `Mailed` is what a sender that works off a list of
destinations has sent so far.
-/

namespace CrossPool.Lib

universe u

/-- One put on its way: payload elements not yet written, and whether the record
is. -/
structure Put (R E : Type u) where
  payload : List E
  record : R
  landed : Bool
deriving DecidableEq, Repr

structure Channel (R E : Type u) where
  record : R
  sequence : Nat
  flight : List (Put R E)
deriving DecidableEq, Repr

/-- What the network does to the put at position `put`. -/
inductive Delivery (R : Type u) where
  | element (put index : Nat)
  | tear (put : Nat) (garbage : R)
  | land (put : Nat)
  | signal (put : Nat)
deriving DecidableEq, Repr

namespace Channel

variable {R E : Type u} (number : R → Nat) (c : Channel R E)

def create (record : R) : Channel R E where
  record := record
  sequence := 0
  flight := []

/-- Start a put. -/
def send (put : Put R E) : Channel R E :=
  { c with flight := c.flight ++ [put] }

/-- Write the record at its home. -/
def store (record : R) : Channel R E :=
  { c with record := record }

/-- One delivery, with the payload element it writes. -/
def deliver : Delivery R → Option (Channel R E × Option E)
  | .element put index => do
    let p ← c.flight[put]?
    let e ← p.payload[index]?
    some ({ c with flight := c.flight.set put { p with payload := p.payload.eraseIdx index } }, some e)
  | .tear put garbage => do
    let p ← c.flight[put]?
    if p.landed then none else some ({ c with record := garbage }, none)
  | .land put => do
    let p ← c.flight[put]?
    if p.landed ∨ p.payload ≠ [] then none
    else
      some
        ({ c with
            record := p.record
            flight := c.flight.set put { p with landed := true } }, none)
  | .signal put => do
    let p ← c.flight[put]?
    if p.landed then
      some
        ({ c with
            sequence := number p.record
            flight := c.flight.eraseIdx put }, none)
    else none

variable {number} {c} {c' : Channel R E} {delivery : Delivery R} {written : Option E}

/-- Every delivery, with the put it belongs to. -/
theorem deliver_cases (delivered : c.deliver number delivery = some (c', written)) :
    ∃ put p, c.flight[put]? = some p ∧
      ((∃ index e, p.payload[index]? = some e ∧ written = some e ∧
          c' = { c with flight := c.flight.set put { p with payload := p.payload.eraseIdx index } }) ∨
        (written = none ∧ p.landed = false ∧ ∃ garbage, c' = { c with record := garbage }) ∨
        (written = none ∧ p.landed = false ∧ p.payload = [] ∧
          c' = { record := p.record, sequence := c.sequence, flight := c.flight.set put { p with landed := true } }) ∨
        (written = none ∧ p.landed ∧
          c' = { record := c.record, sequence := number p.record, flight := c.flight.eraseIdx put })) := by
  cases delivery with
  | element put index =>
    simp only [deliver, Option.bind_eq_bind, Option.bind_eq_some_iff, Option.some.injEq, Prod.mk.injEq] at delivered
    obtain ⟨p, found, e, element, rfl, rfl⟩ := delivered
    exact ⟨put, p, found, .inl ⟨index, e, element, rfl, rfl⟩⟩
  | tear put garbage =>
    simp only [deliver, Option.bind_eq_bind, Option.bind_eq_some_iff] at delivered
    obtain ⟨p, found, torn⟩ := delivered
    split at torn
    · cases torn
    · obtain ⟨rfl, rfl⟩ := Prod.mk.inj (Option.some.inj torn)
      exact ⟨put, p, found, .inr (.inl ⟨rfl, by simp_all, garbage, rfl⟩)⟩
  | land put =>
    simp only [deliver, Option.bind_eq_bind, Option.bind_eq_some_iff] at delivered
    obtain ⟨p, found, landed⟩ := delivered
    split at landed
    · cases landed
    · next unlanded =>
      obtain ⟨rfl, rfl⟩ := Prod.mk.inj (Option.some.inj landed)
      rw [not_or, ne_eq, not_not] at unlanded
      exact ⟨put, p, found, .inr (.inr (.inl ⟨rfl, by simpa using unlanded.1, unlanded.2, rfl⟩))⟩
  | signal put =>
    simp only [deliver, Option.bind_eq_bind, Option.bind_eq_some_iff] at delivered
    obtain ⟨p, found, signalled⟩ := delivered
    split at signalled
    · next landed =>
      obtain ⟨rfl, rfl⟩ := Prod.mk.inj (Option.some.inj signalled)
      exact ⟨put, p, found, .inr (.inr (.inr ⟨rfl, landed, rfl⟩))⟩
    · cases signalled

/-- What is on its way after a delivery was before. -/
theorem deliver_flight (delivered : c.deliver number delivery = some (c', written)) :
    c.flight ≠ [] ∧ ∀ q ∈ c'.flight, ∃ p ∈ c.flight, q.record = p.record := by
  obtain ⟨put, p, found, delivered⟩ := deliver_cases delivered
  have member := List.mem_of_getElem? found
  have replaced {p' : Put R E} (same : p'.record = p.record) :
      ∀ q ∈ c.flight.set put p', ∃ p ∈ c.flight, q.record = p.record := by
    intro q inFlight
    rcases List.mem_or_eq_of_mem_set inFlight with old | rfl
    · exact ⟨q, old, rfl⟩
    · exact ⟨p, member, same⟩
  refine ⟨List.ne_nil_of_mem member, ?_⟩
  obtain ⟨_, _, _, _, rfl⟩ | ⟨_, _, _, rfl⟩ | ⟨_, _, _, rfl⟩ | ⟨_, _, rfl⟩ := delivered
  · exact replaced rfl
  · exact fun q inFlight => ⟨q, inFlight, rfl⟩
  · exact replaced rfl
  · exact fun q inFlight => ⟨q, List.mem_of_mem_eraseIdx inFlight, rfl⟩

/-! ## Bounded channels -/

/-- Every number at or on its way to the destination is at most `bound`. -/
structure Bounded (number : R → Nat) (bound : Nat) (c : Channel R E) : Prop where
  sequence : c.sequence ≤ bound
  flight : ∀ p ∈ c.flight, number p.record ≤ bound

theorem Bounded.mono {bound bound' : Nat} (bounded : c.Bounded number bound) (le : bound ≤ bound') :
    c.Bounded number bound' where
  sequence := Nat.le_trans bounded.sequence le
  flight p member := Nat.le_trans (bounded.flight p member) le

theorem Bounded.send {bound : Nat} (bounded : c.Bounded number bound) {put : Put R E}
    (le : number put.record ≤ bound) : (c.send put).Bounded number bound where
  sequence := bounded.sequence
  flight p member := by
    rcases List.mem_append.mp member with old | new
    · exact bounded.flight p old
    · obtain rfl := List.mem_singleton.mp new
      exact le

theorem Bounded.store {bound : Nat} (bounded : c.Bounded number bound) (record : R) :
    (c.store record).Bounded number bound where
  sequence := bounded.sequence
  flight := bounded.flight

theorem Bounded.deliver {bound : Nat} (bounded : c.Bounded number bound)
    (delivered : c.deliver number delivery = some (c', written)) : c'.Bounded number bound := by
  obtain ⟨put, p, found, ⟨_, _, _, _, rfl⟩ | ⟨_, _, _, rfl⟩ | ⟨_, _, _, rfl⟩ | ⟨_, _, rfl⟩⟩ := deliver_cases delivered
  all_goals have member := List.mem_of_getElem? found
  · refine ⟨bounded.sequence, fun q inFlight => ?_⟩
    rcases List.mem_or_eq_of_mem_set inFlight with old | rfl
    · exact bounded.flight q old
    · exact bounded.flight p member
  · exact ⟨bounded.sequence, bounded.flight⟩
  · refine ⟨bounded.sequence, fun q inFlight => ?_⟩
    rcases List.mem_or_eq_of_mem_set inFlight with old | rfl
    · exact bounded.flight q old
    · exact bounded.flight p member
  · exact ⟨bounded.flight p member, fun q inFlight => bounded.flight q (List.mem_of_mem_eraseIdx inFlight)⟩

/-! ## Home channels

A put from a process to its own copy of a record has nothing to write but the
signal, so the network leaves the record of a home channel alone. -/

/-- Only puts from home are on their way. -/
def Home (c : Channel R E) : Prop :=
  ∀ p ∈ c.flight, p.landed

theorem Home.send (home : c.Home) {put : Put R E} (landed : put.landed) : (c.send put).Home := by
  intro p member
  rcases List.mem_append.mp member with old | new
  · exact home p old
  · obtain rfl := List.mem_singleton.mp new
    exact landed

theorem Home.deliver (home : c.Home) (delivered : c.deliver number delivery = some (c', written)) :
    c'.Home ∧ c'.record = c.record := by
  obtain ⟨put, p, found, ⟨_, _, _, _, rfl⟩ | ⟨_, flown, _, rfl⟩ | ⟨_, flown, _, rfl⟩ | ⟨_, _, rfl⟩⟩ :=
    deliver_cases delivered
  all_goals have landed := home p (List.mem_of_getElem? found)
  · refine ⟨fun q inFlight => ?_, rfl⟩
    rcases List.mem_or_eq_of_mem_set inFlight with old | rfl
    · exact home q old
    · exact landed
  · simp [landed] at flown
  · simp [landed] at flown
  · exact ⟨fun q inFlight => home q (List.mem_of_mem_eraseIdx inFlight), rfl⟩

/-! ## Tracked channels -/

/-- What is on its way or beyond the consumed number is one legitimate record. -/
structure Tracks (number : R → Nat) (legitimate : R → Prop) (consumed : Nat) (c : Channel R E) : Prop where
  single : c.flight.length ≤ 1
  pending : ∀ p ∈ c.flight, legitimate p.record ∧ consumed < number p.record
  landed : ∀ p ∈ c.flight, p.landed → c.record = p.record
  fresh : consumed < c.sequence → c.flight = [] ∧ legitimate c.record ∧ number c.record = c.sequence

section Tracks

variable {legitimate legitimate' : R → Prop} {consumed consumed' : Nat}

theorem Tracks.create (record : R) : (Channel.create record : Channel R E).Tracks number legitimate consumed where
  single := by simp [Channel.create]
  pending := by simp [Channel.create]
  landed := by simp [Channel.create]
  fresh beyond := by simp [Channel.create] at beyond

theorem Tracks.mono (tracks : c.Tracks number legitimate consumed) (imp : ∀ record, legitimate record → legitimate' record) :
    c.Tracks number legitimate' consumed where
  single := tracks.single
  pending p member := ⟨imp _ (tracks.pending p member).1, (tracks.pending p member).2⟩
  landed := tracks.landed
  fresh beyond :=
    have ⟨empty, legit, eq⟩ := tracks.fresh beyond
    ⟨empty, imp _ legit, eq⟩

/-- The only put on its way, if the position of one is known. -/
theorem Tracks.flight_eq (tracks : c.Tracks number legitimate consumed) {put : Nat} {p : Put R E}
    (found : c.flight[put]? = some p) : put = 0 ∧ c.flight = [p] := by
  have single := tracks.single
  match flight : c.flight, single, found with
  | [], _, found => simp at found
  | [q], _, found =>
    cases put with
    | zero => simpa using found
    | succ => simp at found
  | _ :: _ :: _, single, _ => simp at single

theorem Tracks.deliver (tracks : c.Tracks number legitimate consumed)
    (delivered : c.deliver number delivery = some (c', written)) : c'.Tracks number legitimate consumed := by
  obtain ⟨put, p, found, delivered⟩ := deliver_cases delivered
  obtain ⟨rfl, flight⟩ := tracks.flight_eq found
  obtain ⟨legit, beyond⟩ := tracks.pending p (by simp [flight])
  -- as long as the put is on its way, the word is not beyond the consumed number
  have stale : ¬consumed < c.sequence := by
    intro fresh
    have empty := (tracks.fresh fresh).1
    simp [flight] at empty
  obtain ⟨_, _, _, _, rfl⟩ | ⟨_, flown, _, rfl⟩ | ⟨_, _, _, rfl⟩ | ⟨_, landed, rfl⟩ := delivered
  · refine ⟨by simp [flight], ?_, ?_, fun fresh => absurd fresh stale⟩
    · simp [flight, legit, beyond]
    · simpa [flight] using tracks.landed p (by simp [flight])
  · refine ⟨tracks.single, tracks.pending, ?_, fun fresh => absurd fresh stale⟩
    simp [flight, flown]
  · refine ⟨by simp [flight], ?_, ?_, fun fresh => absurd fresh stale⟩
    · simp [flight, legit, beyond]
    · simp [flight]
  · have record := tracks.landed p (by simp [flight]) landed
    refine ⟨by simp [flight], by simp [flight], by simp [flight], fun _ => ⟨by simp [flight], ?_, ?_⟩⟩
    · simpa [record] using legit
    · simp [record]

/-- A publication of the number is on its way or there. -/
def Underway (n : Nat) (c : Channel R E) : Prop :=
  c.flight ≠ [] ∨ n ≤ c.sequence

/-- What is underway arrives. -/
theorem Tracks.underway (tracks : c.Tracks number legitimate consumed) {n : Nat} (underway : c.Underway n)
    (due : ∀ record, legitimate record → consumed < number record → n ≤ number record)
    (delivered : c.deliver number delivery = some (c', written)) : c'.Underway n := by
  obtain ⟨put, p, found, delivered⟩ := deliver_cases delivered
  obtain ⟨rfl, flight⟩ := tracks.flight_eq found
  obtain ⟨legit, beyond⟩ := tracks.pending p (by simp [flight])
  obtain ⟨_, _, _, _, rfl⟩ | ⟨_, _, _, rfl⟩ | ⟨_, _, _, rfl⟩ | ⟨_, _, rfl⟩ := delivered
  · left
    simp [flight]
  · left
    simp [flight]
  · left
    simp [flight]
  · right
    exact due p.record legit beyond

/-- The record is on its way, or its number has been reached. -/
def Carries (number : R → Nat) (record : R) (c : Channel R E) : Prop :=
  (∃ p ∈ c.flight, p.record = record) ∨ number record ≤ c.sequence

theorem Carries.sent (c : Channel R E) (put : Put R E) : (c.send put).Carries number put.record := by
  left
  exact ⟨put, by simp [Channel.send], rfl⟩

theorem Carries.mono {record : R} (carries : c.Carries number record) (flight : c.flight ⊆ c'.flight)
    (sequence : c'.sequence = c.sequence) : c'.Carries number record := by
  rcases carries with ⟨p, member, same⟩ | arrived
  · exact .inl ⟨p, flight member, same⟩
  · exact .inr (by rwa [sequence])

/-- No delivery to a tracked channel loses a record. -/
theorem Tracks.carries (tracks : c.Tracks number legitimate consumed) {record : R} (carries : c.Carries number record)
    (delivered : c.deliver number delivery = some (c', written)) : c'.Carries number record := by
  obtain ⟨put, p, found, delivered⟩ := deliver_cases delivered
  obtain ⟨rfl, flight⟩ := tracks.flight_eq found
  obtain ⟨-, beyond⟩ := tracks.pending p (by simp [flight])
  -- numbers arrive in increasing order
  have behind : c.sequence ≤ number p.record := by
    by_contra fresh
    have empty := (tracks.fresh (by omega)).1
    simp [flight] at empty
  have carries : p.record = record ∨ number record ≤ c.sequence := by simpa [Carries, flight] using carries
  obtain ⟨_, _, _, _, rfl⟩ | ⟨_, _, _, rfl⟩ | ⟨_, _, _, rfl⟩ | ⟨_, _, rfl⟩ := delivered
  · simpa [Carries, flight] using carries
  · simpa [Carries, flight] using carries
  · simpa [Carries, flight] using carries
  · right
    rcases carries with rfl | arrived
    · exact Nat.le_refl _
    · exact Nat.le_trans arrived behind

/-- A record that was carried and whose number is consumed has arrived. -/
theorem Tracks.arrived (tracks : c.Tracks number legitimate consumed) {record : R} (carries : c.Carries number record)
    (past : number record ≤ consumed) : number record ≤ c.sequence := by
  rcases carries with ⟨p, member, rfl⟩ | arrived
  · have beyond := (tracks.pending p member).2
    omega
  · exact arrived

/-- Nothing is on its way and nothing is left to read once every legitimate
number is consumed. -/
theorem Tracks.quiescent (tracks : c.Tracks number legitimate consumed)
    (all : ∀ record, legitimate record → number record ≤ consumed) : c.flight = [] ∧ c.sequence ≤ consumed := by
  refine ⟨List.eq_nil_iff_forall_not_mem.mpr fun p member => ?_, ?_⟩
  · obtain ⟨legit, beyond⟩ := tracks.pending p member
    have := all _ legit
    omega
  · by_contra beyond
    obtain ⟨_, legit, eq⟩ := tracks.fresh (by omega)
    have := all _ legit
    omega

/-- A put on a quiescent channel; a put from home carries the record stored there. -/
theorem Tracks.send {put : Put R E} (quiet : c.flight = []) (stale : c.sequence ≤ consumed) (legit : legitimate put.record)
    (beyond : consumed < number put.record) (home : put.landed → c.record = put.record) :
    (c.send put).Tracks number legitimate consumed where
  single := by simp [Channel.send, quiet]
  pending := by simp [Channel.send, quiet, legit, beyond]
  landed := by simpa [Channel.send, quiet] using home
  fresh fresh := absurd fresh (by simpa [Channel.send] using stale)

theorem Tracks.store (quiet : c.flight = []) (stale : c.sequence ≤ consumed) (record : R) :
    (c.store record).Tracks number legitimate consumed where
  single := by simp [Channel.store, quiet]
  pending := by simp [Channel.store, quiet]
  landed := by simp [Channel.store, quiet]
  fresh fresh := absurd fresh (by simpa [Channel.store] using stale)

/-- Nothing is on its way and nothing is left to read. -/
theorem Tracks.idle (quiet : c.flight = []) (stale : c.sequence ≤ consumed) : c.Tracks number legitimate consumed where
  single := by simp [quiet]
  pending := by simp [quiet]
  landed := by simp [quiet]
  fresh fresh := absurd fresh (by omega)

/-- The reader consumes the number it sees. -/
theorem Tracks.consume (tracks : c.Tracks number legitimate consumed) (fresh : consumed < c.sequence) :
    c.Tracks number legitimate c.sequence where
  single := tracks.single
  pending := by simp [(tracks.fresh fresh).1]
  landed := tracks.landed
  fresh beyond := absurd beyond (Nat.lt_irrefl _)

end Tracks

end Channel

/-! ## Working off a list

A sender that addresses one message to each member of a list, in order, with a log
of all messages sent by anyone. -/

section Mailed

variable {M D : Type*} {address : D → M} {plan rest : List D} {log : List M}

/-- The log has a message for each member of `plan` but those of `rest`. -/
structure Mailed (address : D → M) (plan rest : List D) (log : List M) : Prop where
  suffix : rest <:+ plan
  sent : ∀ d ∈ plan, d ∈ rest ∨ address d ∈ log
  unsent : ∀ d ∈ rest, address d ∉ log

theorem Mailed.start (fresh : ∀ d ∈ plan, address d ∉ log) : Mailed address plan plan log :=
  ⟨List.suffix_refl plan, fun _ member => .inl member, fresh⟩

theorem Mailed.nothing : Mailed address [] [] log :=
  ⟨List.suffix_refl [], by simp, by simp⟩

theorem Mailed.mem {d : D} (mailed : Mailed address plan (d :: rest) log) : d ∈ plan :=
  mailed.suffix.mem List.mem_cons_self

/-- The next member of the list is sent its message. -/
theorem Mailed.send {d : D} (mailed : Mailed address plan (d :: rest) log) (distinct : plan.Nodup)
    (injective : Function.Injective address) : Mailed address plan rest (log ++ [address d]) := by
  have fresh : d ∉ rest := (List.nodup_cons.mp (distinct.sublist mailed.suffix.sublist)).1
  refine ⟨(List.suffix_cons d rest).trans mailed.suffix, ?_, ?_⟩
  · intro e member
    rcases mailed.sent e member with left | sent
    · rcases List.mem_cons.mp left with rfl | later
      · exact .inr (by simp)
      · exact .inl later
    · exact .inr (List.mem_append_left _ sent)
  · intro e member sent
    rcases List.mem_append.mp sent with before | now
    · exact mailed.unsent e (List.mem_cons_of_mem _ member) before
    · obtain rfl := injective (List.mem_singleton.mp now)
      exact fresh member

/-- Somebody else sends something, or nothing. -/
theorem Mailed.extend (mailed : Mailed address plan rest log) {extra : Option M}
    (foreign : ∀ m ∈ extra, ∀ d, m ≠ address d) : Mailed address plan rest (log ++ extra.toList) := by
  refine ⟨mailed.suffix, ?_, ?_⟩
  · intro d member
    exact (mailed.sent d member).imp id (List.mem_append_left _)
  · intro d member sent
    rcases List.mem_append.mp sent with before | now
    · exact mailed.unsent d member before
    · exact foreign _ (Option.mem_toList.mp now) d rfl

theorem Mailed.extend_one (mailed : Mailed address plan rest log) {m : M} (foreign : ∀ d, m ≠ address d) :
    Mailed address plan rest (log ++ [m]) := by
  show Mailed address plan rest (log ++ (some m).toList)
  apply mailed.extend
  rintro _ ⟨⟩
  exact foreign

end Mailed

end CrossPool.Lib
