import Mathlib.Logic.Function.Basic
import CrossPool.Lib.Runs

/-!
# Threads over shared words

A thread is a program whose loads and stores are single steps, and any number of
threads share one memory. `Safe` is the proof rule for one thread: between two of
its steps the others may take any steps that their guarantees allow. If every
call of every thread is safe, every run of all threads together keeps the
invariant, and what the calls have returned is accounted for (`Protocol.reachable`).
-/

namespace CrossPool.Lib

/-- Programs over words of address type `A`. Two kinds of steps are noted as
history: the store that completes the publication of a record, and a record that
is taken from its words, with the revision under which it was read. -/
inductive Thread (A R α : Type) where
  | ret (value : α)
  | raise
  | load (address : A) (next : Nat → Thread A R α)
  | store (address : A) (value : Nat) (next : Thread A R α)
  | publish (address : A) (value : Nat) (record : R) (values : List Nat) (next : Thread A R α)
  | observe (record : R) (revision : Nat) (values : List Nat) (next : Thread A R α)

/-- The shared words, and the history of publications and observations. -/
structure World (A R I : Type) where
  memory : A → Nat
  published : R → List (List Nat)
  observed : I → R → List (Nat × List Nat)

namespace World

variable {A R I : Type} [DecidableEq A] {w : World A R I} {address other : A} {value : Nat} {record record' : R}
  {values : List Nat}

def store (w : World A R I) (address : A) (value : Nat) : World A R I :=
  { w with memory := Function.update w.memory address value }

@[simp] theorem store_same : (w.store address value).memory address = value := by
  simp [store]

theorem store_of_ne (ne : other ≠ address) : (w.store address value).memory other = w.memory other := by
  simp [store, ne]

variable [DecidableEq R]

def publish (w : World A R I) (address : A) (value : Nat) (record : R) (values : List Nat) : World A R I :=
  { w.store address value with published := Function.update w.published record (w.published record ++ [values]) }

@[simp] theorem publish_same : (w.publish address value record values).memory address = value := by
  simp [publish, store]

theorem publish_of_ne (ne : other ≠ address) :
    (w.publish address value record values).memory other = w.memory other := by
  simp [publish, store, ne]

@[simp] theorem publish_published :
    (w.publish address value record values).published record = w.published record ++ [values] := by
  simp [publish]

theorem publish_published_of_ne (ne : record' ≠ record) :
    (w.publish address value record values).published record' = w.published record' := by
  simp [publish, ne]

def observe [DecidableEq I] (w : World A R I) (i : I) (record : R) (revision : Nat) (values : List Nat) : World A R I :=
  { w with
    observed :=
      Function.update w.observed i
        (Function.update (w.observed i) record (w.observed i record ++ [(revision, values)])) }

end World

namespace Thread

variable {A R I α β : Type}

def bind (p : Thread A R α) (f : α → Thread A R β) : Thread A R β :=
  match p with
  | ret value => f value
  | raise => raise
  | load address next => load address fun value => (next value).bind f
  | store address value next => store address value (next.bind f)
  | publish address value record values next => publish address value record values (next.bind f)
  | observe record revision values next => observe record revision values (next.bind f)

instance : Monad (Thread A R) where
  pure := ret
  bind := bind

/-- One step of a thread that has not ended. -/
def step [DecidableEq A] [DecidableEq R] [DecidableEq I] (i : I) (w : World A R I) :
    Thread A R α → Option (Thread A R α × World A R I)
  | ret _ => none
  | raise => none
  | load address next => some (next (w.memory address), w)
  | store address value next => some (next, w.store address value)
  | publish address value record values next => some (next, w.publish address value record values)
  | observe record revision values next => some (next, w.observe i record revision values)

/-- What a thread that has ended returns. -/
def result : Thread A R α → Option α
  | ret value => some value
  | _ => none

end Thread

/-! ## Runs -/

/-- The shared words, what each thread has left of its current call, and what its
calls have returned so far. -/
structure Pool (A R I C ρ : Type) where
  world : World A R I
  threads : I → Option (C × Thread A R ρ)
  returned : I → List (C × ρ)

/-- A thread begins a call, or goes on with it. -/
inductive Action (I C : Type) where
  | call (i : I) (c : C)
  | run (i : I)

section Pool

variable {A R I C ρ : Type}

/-! ## Rely and guarantee -/

/-- What holds at all times, what the steps of a thread may do to the words, and
what a thread may rely on between its calls. -/
structure Protocol (A R I : Type) where
  inv : World A R I → Prop
  effect : I → World A R I → World A R I → Prop
  idle : I → World A R I → Prop
  keeps : ∀ {i w u}, inv w → effect i w u → inv u
  stable : ∀ {i j w u}, inv w → idle i w → j ≠ i → effect j w u → idle i u

/-- What may happen between two steps of one thread. -/
def Protocol.Rely (P : Protocol A R I) (i : I) : World A R I → World A R I → Prop :=
  Relation.ReflTransGen fun w u => P.inv w ∧ ∃ j ≠ i, P.effect j w u

namespace Protocol.Rely

variable {P : Protocol A R I} {i : I} {w u : World A R I}

/-- A fact that no step of another thread disturbs survives until the next own
step. -/
theorem stable {F : World A R I → Prop} (holds : F w) (rely : P.Rely i w u)
    (step : ∀ j ≠ i, ∀ w u, P.inv w → F w → P.effect j w u → F u) : F u := by
  induction rely with
  | refl => exact holds
  | tail _ last ih =>
    obtain ⟨kept, j, other, effect⟩ := last
    exact step j other _ _ kept ih effect

theorem idle (idle : P.idle i w) (rely : P.Rely i w u) : P.idle i u :=
  rely.stable idle fun _ other _ _ kept idle effect => P.stable kept idle other effect

end Protocol.Rely

namespace Protocol

/-- A fact about the calls that a thread has returned from, which no step disturbs. -/
structure Account (P : Protocol A R I) (C ρ : Type) where
  holds : I → List (C × ρ) → World A R I → Prop
  lasts : ∀ {i j past w u}, P.inv w → holds i past w → P.effect j w u → holds i past u

variable {P : Protocol A R I} {i : I} {w u : World A R I} {past : List (C × ρ)}

theorem Account.rely (K : Account P C ρ) (holds : K.holds i past w) (rely : P.Rely i w u) : K.holds i past u :=
  rely.stable holds fun _ _ _ _ kept holds effect => K.lasts kept holds effect

/-- Where a call returns, its thread is idle and the reply is accounted for like those
before. -/
def Account.Returns (K : Account P C ρ) (i : I) (past : List (C × ρ)) (c : C) (reply : ρ) (w : World A R I) : Prop :=
  P.idle i w ∧ (K.holds i past w → K.holds i (past ++ [(c, reply)]) w)

end Protocol

variable [DecidableEq A] [DecidableEq R] [DecidableEq I]

/-- A call that has returned or raised leaves its thread free for the next. -/
def Pool.next (program : I → C → Thread A R ρ) (pool : Pool A R I C ρ) : Action I C → Option (Pool A R I C ρ)
  | .call i c =>
    match pool.threads i with
    | none => some { pool with threads := Function.update pool.threads i (some (c, program i c)) }
    | some _ => none
  | .run i =>
    match pool.threads i with
    | none => none
    | some (c, thread) =>
      match thread.step i pool.world with
      | none =>
        some
          { pool with
            threads := Function.update pool.threads i none
            returned := Function.update pool.returned i (pool.returned i ++ (thread.result.map fun reply => (c, reply)).toList) }
      | some (rest, world) =>
        some { pool with world := world, threads := Function.update pool.threads i (some (c, rest)) }

/-- All interleavings of the calls of all threads. -/
def Pool.system (program : I → C → Thread A R ρ) (init : World A R I → Prop) :
    System (Pool A R I C ρ) (Action I C) where
  init pool := init pool.world ∧ ∀ i, pool.threads i = none ∧ pool.returned i = []
  step pool action after := pool.next program action = some after

/-! ## Safe calls -/

namespace Protocol

variable {P : Protocol A R I} {K : Account P C ρ} {i : I} {w u v : World A R I} {past : List (C × ρ)}

/-- The thread's remaining steps are effects it may have, whatever the others do
in between, and `post` holds where it returns. -/
def Safe (P : Protocol A R I) (i : I) {α : Type} (post : α → World A R I → Prop) : Thread A R α → World A R I → Prop
  | .ret value, w => post value w
  | .raise, w => P.idle i w
  | .load address next, w => ∀ u, P.Rely i w u → P.inv u → Safe P i post (next (u.memory address)) u
  | .store address value next, w =>
    ∀ u, P.Rely i w u → P.inv u → P.effect i u (u.store address value) ∧ Safe P i post next (u.store address value)
  | .publish address value record values next, w =>
    ∀ u, P.Rely i w u → P.inv u →
      P.effect i u (u.publish address value record values) ∧ Safe P i post next (u.publish address value record values)
  | .observe record revision values next, w =>
    ∀ u, P.Rely i w u → P.inv u →
      P.effect i u (u.observe i record revision values) ∧ Safe P i post next (u.observe i record revision values)

theorem safe_bind {α β : Type} {post : β → World A R I → Prop} {f : α → Thread A R β} (p : Thread A R α)
    (safe : P.Safe i (fun a u => P.Safe i post (f a) u) p w) : P.Safe i post (p >>= f) w := by
  show P.Safe i post (p.bind f) w
  induction p generalizing w with
  | ret value => exact safe
  | raise => exact safe
  | load address next ih => exact fun u rely kept => ih _ (safe u rely kept)
  | store address value next ih => exact fun u rely kept => ⟨(safe u rely kept).1, ih (safe u rely kept).2⟩
  | publish address value record values next ih =>
    exact fun u rely kept => ⟨(safe u rely kept).1, ih (safe u rely kept).2⟩
  | observe record revision values next ih =>
    exact fun u rely kept => ⟨(safe u rely kept).1, ih (safe u rely kept).2⟩

theorem safe_mono {α : Type} {post post' : α → World A R I → Prop} {p : Thread A R α} (safe : P.Safe i post p w)
    (weaker : ∀ a u, post a u → post' a u) : P.Safe i post' p w := by
  induction p generalizing w with
  | ret value => exact weaker _ _ safe
  | raise => exact safe
  | load address next ih => exact fun u rely kept => ih _ (safe u rely kept)
  | store address value next ih => exact fun u rely kept => ⟨(safe u rely kept).1, ih (safe u rely kept).2⟩
  | publish address value record values next ih =>
    exact fun u rely kept => ⟨(safe u rely kept).1, ih (safe u rely kept).2⟩
  | observe record revision values next ih =>
    exact fun u rely kept => ⟨(safe u rely kept).1, ih (safe u rely kept).2⟩

/-- What the others do between two steps does not harm a call. -/
theorem safe_rely {p : Thread A R ρ} {c : C} (safe : P.Safe i (K.Returns i past c) p w) (holds : K.holds i past w)
    (rely : P.Rely i w u) : P.Safe i (K.Returns i past c) p u := by
  cases p with
  | ret value =>
    obtain ⟨idle, accounted⟩ := safe
    exact ⟨rely.idle idle, fun _ => K.rely (accounted holds) rely⟩
  | raise => exact Rely.idle safe rely
  | load address next => exact fun v later => safe v (rely.trans later)
  | store address value next => exact fun v later => safe v (rely.trans later)
  | publish address value record values next => exact fun v later => safe v (rely.trans later)
  | observe record revision values next => exact fun v later => safe v (rely.trans later)

/-- The invariant holds, every thread can go on, and all replies are accounted for. -/
structure Sound (P : Protocol A R I) (K : Account P C ρ) (pool : Pool A R I C ρ) : Prop where
  inv : P.inv pool.world
  idle : ∀ i, pool.threads i = none → P.idle i pool.world
  busy :
    ∀ i c thread, pool.threads i = some (c, thread) →
      P.Safe i (K.Returns i (pool.returned i) c) thread pool.world
  account : ∀ i, K.holds i (pool.returned i) pool.world

/-- One step of a thread has an effect that the thread may have, or none. -/
theorem Safe.step {post : ρ → World A R I → Prop} {p rest : Thread A R ρ} (safe : P.Safe i post p w) (kept : P.inv w)
    (stepped : p.step i w = some (rest, u)) : (u = w ∨ P.effect i w u) ∧ P.Safe i post rest u := by
  cases p with
  | ret value => cases stepped
  | raise => cases stepped
  | load address next =>
    obtain ⟨rfl, rfl⟩ := Prod.mk.inj (Option.some.inj stepped)
    exact ⟨.inl rfl, safe w .refl kept⟩
  | store address value next =>
    obtain ⟨rfl, rfl⟩ := Prod.mk.inj (Option.some.inj stepped)
    obtain ⟨effect, goes⟩ := safe w .refl kept
    exact ⟨.inr effect, goes⟩
  | publish address value record values next =>
    obtain ⟨rfl, rfl⟩ := Prod.mk.inj (Option.some.inj stepped)
    obtain ⟨effect, goes⟩ := safe w .refl kept
    exact ⟨.inr effect, goes⟩
  | observe record revision values next =>
    obtain ⟨rfl, rfl⟩ := Prod.mk.inj (Option.some.inj stepped)
    obtain ⟨effect, goes⟩ := safe w .refl kept
    exact ⟨.inr effect, goes⟩

/-- A thread that has ended has returned or raised. -/
theorem Safe.ended {p : Thread A R ρ} {c : C} (safe : P.Safe i (K.Returns i past c) p w) (holds : K.holds i past w)
    (ended : p.step i w = none) :
    P.idle i w ∧ K.holds i (past ++ (p.result.map fun reply => (c, reply)).toList) w := by
  cases p with
  | ret value => exact ⟨safe.1, safe.2 holds⟩
  | raise => exact ⟨safe, by simpa [Thread.result] using holds⟩
  | load => cases ended
  | store => cases ended
  | publish => cases ended
  | observe => cases ended

/-- A call of an idle thread is safe, whatever was returned before. -/
def Calls (K : Account P C ρ) (program : I → C → Thread A R ρ) : Prop :=
  ∀ i c past w, P.inv w → P.idle i w → K.holds i past w → P.Safe i (K.Returns i past c) (program i c) w

/-- One step of the pool is a step of one thread. -/
theorem Sound.step {program : I → C → Thread A R ρ} {pool after : Pool A R I C ρ} {action : Action I C}
    (calls : Calls K program) (sound : Sound P K pool) (taken : pool.next program action = some after) :
    Sound P K after ∧ (after.world = pool.world ∨ ∃ i, P.effect i pool.world after.world) := by
  obtain ⟨kept, idle, busy, account⟩ := sound
  cases action with
  | call i c =>
    simp only [Pool.next] at taken
    split at taken
    · next free =>
      obtain rfl := Option.some.inj taken
      refine ⟨⟨kept, ?_, ?_, account⟩, .inl rfl⟩
      · intro j none
        by_cases here : j = i
        · simp [here] at none
        · exact idle j (by simpa [here] using none)
      · intro j d thread found
        by_cases here : j = i
        · subst here
          simp only [Function.update_self, Option.some.injEq, Prod.mk.injEq] at found
          obtain ⟨rfl, rfl⟩ := found
          exact calls j c _ _ kept (idle j free) (account j)
        · exact busy j d thread (by simpa [here] using found)
    · cases taken
  | run i =>
    simp only [Pool.next] at taken
    split at taken
    · cases taken
    next c thread running =>
    have safe := busy i c thread running
    split at taken
    · next ended =>
      obtain rfl := Option.some.inj taken
      obtain ⟨free, holds⟩ := Safe.ended safe (account i) ended
      refine ⟨⟨kept, ?_, ?_, ?_⟩, .inl rfl⟩
      · intro j none
        by_cases here : j = i
        · subst here
          exact free
        · exact idle j (by simpa [here] using none)
      · intro j d other found
        by_cases here : j = i
        · simp [here] at found
        · simp only [Function.update_of_ne here] at found ⊢
          exact busy j d other found
      · intro j
        by_cases here : j = i
        · subst here
          simpa using holds
        · simp only [Function.update_of_ne here]
          exact account j
    · next rest world stepped =>
      obtain rfl := Option.some.inj taken
      obtain ⟨effect, goes⟩ := Safe.step safe kept stepped
      -- to the other threads the step is one that they rely on
      have rely : ∀ j, j ≠ i → P.Rely j pool.world world := by
        intro j other
        rcases effect with rfl | effect
        · exact .refl
        · exact .single ⟨kept, i, Ne.symm other, effect⟩
      refine ⟨⟨?_, ?_, ?_, ?_⟩, effect.imp_right fun effect => ⟨i, effect⟩⟩
      · rcases effect with rfl | effect
        · exact kept
        · exact P.keeps kept effect
      · intro j none
        by_cases here : j = i
        · simp [here] at none
        · exact Rely.idle (idle j (by simpa [here] using none)) (rely j here)
      · intro j d other found
        by_cases here : j = i
        · subst here
          simp only [Function.update_self, Option.some.injEq, Prod.mk.injEq] at found
          obtain ⟨rfl, rfl⟩ := found
          exact goes
        · exact safe_rely (busy j d other (by simpa [here] using found)) (account j) (rely j here)
      · intro j
        rcases effect with rfl | effect
        · exact account j
        · exact K.lasts kept (account j) effect

/-- Every run of threads whose calls are safe keeps the invariant. -/
theorem reachable {program : I → C → Thread A R ρ} {init : World A R I → Prop}
    (starts : ∀ w, init w → P.inv w ∧ ∀ i, P.idle i w ∧ K.holds i [] w) (calls : Calls K program)
    {pool : Pool A R I C ρ} (reached : (Pool.system program init).Reachable pool) : Sound P K pool := by
  apply System.ReachableUnder.invariant ?_ ?_ reached
  · rintro pool ⟨init, free⟩
    obtain ⟨kept, each⟩ := starts _ init
    refine ⟨kept, fun i _ => (each i).1, fun i c thread busy => by simp [(free i).1] at busy, fun i => ?_⟩
    rw [(free i).2]
    exact (each i).2
  · intro pool action after _ sound _ taken
    exact (sound.step calls taken).1

end Protocol

end Pool

end CrossPool.Lib
