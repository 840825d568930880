import Mathlib.Logic.Function.Basic
import CrossPool.Lib.Procedure
import CrossPool.Lib.Runs

/-!
# Handlers that share one lock

A handler is a sequence of sections under a lock, and any number of handlers run
at once. Between two sections of one handler the others may run and the outside
world may change; a section reads what the outside world answers at that moment.
`Safe` is the proof rule for one handler, and if every handler is safe, every run
keeps the invariant (`Discipline.reachable`).
-/

namespace CrossPool.Lib

/-- Handlers over shared state `σ` that read inputs `ι` from outside. -/
inductive Handler (σ ι ε α : Type) where
  | ret (value : α)
  | raise (error : ε)
  | enter (write : ι → σ → σ) (next : ι → σ → Handler σ ι ε α)

namespace Handler

variable {σ ι ε α β : Type}

def bind (h : Handler σ ι ε α) (f : α → Handler σ ι ε β) : Handler σ ι ε β :=
  match h with
  | ret value => f value
  | raise error => raise error
  | enter write next => enter write fun input s => (next input s).bind f

instance : Monad (Handler σ ι ε) where
  pure := ret
  bind := bind

/-- The state a procedure leaves, whether it returns or raises. -/
def stateAfter (body : EStateM ε σ α) (s : σ) : σ :=
  match body s with
  | .ok _ t => t
  | .error _ t => t

/-- One section under the lock. An exception leaves the handler, and what the
section wrote before it stays. -/
def locked (body : ι → EStateM ε σ α) : Handler σ ι ε α :=
  .enter (fun input s => stateAfter (body input) s) fun input s =>
    match body input s with
    | .ok value _ => .ret value
    | .error error _ => .raise error

/-- A look at the outside world, without the lock. -/
def observe (look : ι → α) : Handler σ ι ε α :=
  .enter (fun _ s => s) fun input _ => .ret (look input)

/-- Observations one after the other, each at its own moment. -/
def observeAll (look : ι → α → β) : List α → Handler σ ι ε (List (α × β))
  | [] => pure []
  | item :: rest => do
    let seen ← observe fun input => look input item
    let others ← observeAll look rest
    pure ((item, seen) :: others)

/-- Whether some item passes, each tried at its own moment until one does. -/
def observeAny (look : ι → α → Bool) : List α → Handler σ ι ε Bool
  | [] => pure false
  | item :: rest => do
    let seen ← observe fun input => look input item
    if seen then pure true else observeAny look rest

end Handler

/-! ## Runs -/

/-- The outside world, the shared state, and what each thread has left of its
current handler. -/
structure Monitor (η σ ι ε I : Type) where
  outside : η
  shared : σ
  threads : I → Option (Handler σ ι ε Unit)

/-- A thread begins a request, enters its next section or is done with it, or
the outside world moves. -/
inductive Monitor.Event (η ι I C : Type) where
  | call (i : I) (c : C)
  | run (i : I) (input : ι)
  | leave (i : I)
  | outside (v : η)

namespace Monitor

variable {η σ ι ε I C : Type} [DecidableEq I]

/-- A handler that returned or raised is left, and so is one that an exception
outside the lock ends early. -/
inductive Step (program : C → Handler σ ι ε Unit) (passes : η → η → Prop) :
    Monitor η σ ι ε I → Event η ι I C → Monitor η σ ι ε I → Prop where
  | call {m : Monitor η σ ι ε I} (i : I) (c : C) : m.threads i = none →
      Step program passes m (.call i c) { m with threads := Function.update m.threads i (some (program c)) }
  | run {m : Monitor η σ ι ε I} (i : I) (input : ι) (write : ι → σ → σ) (next : ι → σ → Handler σ ι ε Unit) :
      m.threads i = some (.enter write next) →
      Step program passes m (.run i input)
        { m with shared := write input m.shared,
                 threads := Function.update m.threads i (some (next input m.shared)) }
  | leave {m : Monitor η σ ι ε I} (i : I) : Step program passes m (.leave i)
      { m with threads := Function.update m.threads i none }
  | outside {m : Monitor η σ ι ε I} (v : η) : passes m.outside v →
      Step program passes m (.outside v) { m with outside := v }

/-- The step an event leads to, if the moves of the outside world are free. -/
def next (program : C → Handler σ ι ε Unit) (m : Monitor η σ ι ε I) : Event η ι I C → Option (Monitor η σ ι ε I)
  | .call i c =>
    match m.threads i with
    | none => some { m with threads := Function.update m.threads i (some (program c)) }
    | some _ => none
  | .run i input =>
    match m.threads i with
    | some (.enter write next) =>
      some { m with shared := write input m.shared,
                    threads := Function.update m.threads i (some (next input m.shared)) }
    | _ => none
  | .leave i => some { m with threads := Function.update m.threads i none }
  | .outside v => some { m with outside := v }

theorem step_of_next {program : C → Handler σ ι ε Unit} {passes : η → η → Prop} {m after : Monitor η σ ι ε I}
    {event : Event η ι I C} (free : ∀ v, event = .outside v → passes m.outside v)
    (leads : m.next program event = some after) : Step program passes m event after := by
  cases event with
  | call i c =>
    simp only [next] at leads
    split at leads
    · rename_i idle
      obtain rfl := Option.some.inj leads
      exact .call i c idle
    · cases leads
  | run i input =>
    simp only [next] at leads
    split at leads
    · rename_i write goes running
      obtain rfl := Option.some.inj leads
      exact .run i input write goes running
    · cases leads
  | leave i =>
    obtain rfl := Option.some.inj leads
    exact .leave i
  | outside v =>
    obtain rfl := Option.some.inj leads
    exact .outside v (free v rfl)

/-- All interleavings of the handlers of all threads. -/
def system (program : C → Handler σ ι ε Unit) (passes : η → η → Prop) (init : η → σ → Prop) :
    System (Monitor η σ ι ε I) (Event η ι I C) where
  init m := init m.outside m.shared ∧ ∀ i, m.threads i = none
  step := Step program passes

/-- Runs in which every section reads an input that the outside world then
admits. -/
def Admitted (admits : η → ι → Prop) (m : Monitor η σ ι ε I) : Event η ι I C → Prop
  | .run _ input => admits m.outside input
  | _ => True

end Monitor

/-! ## Safe handlers -/

/-- What holds at all times, what one section may do to the shared state, how the
outside world moves and what it answers. -/
structure Discipline (η σ ι : Type) where
  inv : η → σ → Prop
  effect : η → σ → σ → Prop
  passes : η → η → Prop
  admits : η → ι → Prop
  refl : ∀ w s, effect w s s
  keeps : ∀ {w s t}, inv w s → effect w s t → inv w t
  ages : ∀ {w v s}, inv w s → passes w v → inv v s

namespace Discipline

variable {η σ ι ε α β : Type} {D : Discipline η σ ι} {w v : η} {s t : σ}

/-- One section, or one move of the outside world. -/
inductive Moves (D : Discipline η σ ι) : η × σ → η × σ → Prop where
  | effect {w : η} {s t : σ} : D.inv w s → D.effect w s t → Moves D (w, s) (w, t)
  | passes {w v : η} {s : σ} : D.inv w s → D.passes w v → Moves D (w, s) (v, s)

/-- What may happen between two sections of one handler. -/
def Rely (D : Discipline η σ ι) : η × σ → η × σ → Prop :=
  Relation.ReflTransGen D.Moves

/-- A relation between two moments follows from each single move. -/
theorem Rely.relation {R : η × σ → η × σ → Prop} (refl : ∀ x, R x x) (trans : ∀ x y z, R x y → R y z → R x z)
    (move : ∀ x y, D.Moves x y → R x y) {x y : η × σ} (rely : D.Rely x y) : R x y := by
  induction rely with
  | refl => exact refl x
  | tail _ last ih => exact trans _ _ _ ih (move _ _ last)

/-- A fact that no move disturbs lasts. -/
theorem Rely.stable {F : η × σ → Prop} (move : ∀ x y, D.Moves x y → F x → F y) {x y : η × σ} (rely : D.Rely x y)
    (holds : F x) : F y :=
  rely.relation (fun _ fact => fact) (fun _ _ _ first second fact => second (first fact)) move holds

/-- The remaining sections are effects, whatever happens in between, and `post`
holds where the handler returns. -/
def Safe (D : Discipline η σ ι) (post : α → η → σ → Prop) : Handler σ ι ε α → η → σ → Prop
  | .ret value, w, s => post value w s
  | .raise _, _, _ => True
  | .enter write next, w, s => ∀ v t input, D.Rely (w, s) (v, t) → D.inv v t → D.admits v input →
      D.effect v t (write input t) ∧ Safe D post (next input t) v (write input t)

variable {post : α → η → σ → Prop}

theorem safe_pure {value : α} (holds : post value w s) : D.Safe post (pure value : Handler σ ι ε α) w s :=
  holds

theorem safe_mono {post' : α → η → σ → Prop} {h : Handler σ ι ε α} (safe : D.Safe post h w s)
    (weaker : ∀ a v t, post a v t → post' a v t) : D.Safe post' h w s := by
  induction h generalizing w s with
  | ret value => exact weaker _ _ _ safe
  | raise error => trivial
  | enter write next ih =>
    intro v t input rely kept admitted
    obtain ⟨effect, goes⟩ := safe v t input rely kept admitted
    exact ⟨effect, ih input t goes⟩

theorem safe_bind {post : β → η → σ → Prop} {f : α → Handler σ ι ε β} {h : Handler σ ι ε α}
    (safe : D.Safe (fun a v t => D.Safe post (f a) v t) h w s) : D.Safe post (h >>= f) w s := by
  show D.Safe post (h.bind f) w s
  induction h generalizing w s with
  | ret value => exact safe
  | raise error => trivial
  | enter write next ih =>
    intro v t input rely kept admitted
    obtain ⟨effect, goes⟩ := safe v t input rely kept admitted
    exact ⟨effect, ih input t goes⟩

/-- A section is safe when its procedure, in whatever state it is entered, has an
effect that sections may have. -/
theorem safe_locked {body : ι → EStateM ε σ α}
    (spec : ∀ v t input, D.Rely (w, s) (v, t) → D.inv v t → D.admits v input →
      wp (body input) (fun a u => D.effect v t u ∧ post a v u) (fun u => D.effect v t u) t) :
    D.Safe post (Handler.locked body) w s := by
  intro v t input rely kept admitted
  have holds := spec v t input rely kept admitted
  unfold wp at holds
  simp only [Handler.stateAfter]
  cases result : body input t with
  | ok value u =>
    rw [result] at holds
    exact holds
  | error error u =>
    rw [result] at holds
    exact ⟨holds, trivial⟩

theorem safe_observe {look : ι → α}
    (spec : ∀ v t input, D.Rely (w, s) (v, t) → D.inv v t → D.admits v input → post (look input) v t) :
    D.Safe post (Handler.observe look : Handler σ ι ε α) w s :=
  fun v t input rely kept admitted => ⟨D.refl v t, spec v t input rely kept admitted⟩

/-- A fact that no move disturbs still holds where a handler returns. -/
theorem safe_frame {F : η × σ → Prop} (stable : ∀ x y, D.Moves x y → F x → F y) {h : Handler σ ι ε α}
    (safe : D.Safe post h w s) (holds : F (w, s)) : D.Safe (fun a v t => post a v t ∧ F (v, t)) h w s := by
  induction h generalizing w s with
  | ret value => exact ⟨safe, holds⟩
  | raise error => trivial
  | enter write next ih =>
    intro v t input rely kept admitted
    obtain ⟨effect, goes⟩ := safe v t input rely kept admitted
    exact ⟨effect, ih input t goes (stable _ _ (.effect kept effect) (rely.stable stable holds))⟩

section Observations

variable {look : ι → α → β} {Fact : η → α → β → Prop}

/-- Facts about single observations that last are facts about all of them. -/
theorem safe_observeAll (seen : ∀ v input item, D.admits v input → Fact v item (look input item))
    (stays : ∀ w v item b, D.passes w v → Fact w item b → Fact v item b) (items : List α) :
    D.Safe (fun found v _ => ∀ pair ∈ found, Fact v pair.1 pair.2)
      (Handler.observeAll look items : Handler σ ι ε (List (α × β))) w s := by
  induction items generalizing w s with
  | nil => exact safe_pure (by simp)
  | cons item rest ih =>
    refine safe_bind (safe_observe fun v t input _ _ admitted => safe_bind ?_)
    have stable (x y : η × σ) (move : D.Moves x y) (fact : Fact x.1 item (look input item)) :
        Fact y.1 item (look input item) := by
      cases move with
      | effect _ _ => exact fact
      | passes _ passes => exact stays _ _ _ _ passes fact
    refine safe_mono (safe_frame stable ih (seen v input item admitted)) ?_
    rintro found u r ⟨others, here⟩ pair listed
    rcases List.mem_cons.mp listed with rfl | listed
    · exact here
    · exact others pair listed

/-- When no item passed, each was seen not to. -/
theorem safe_observeAny {look : ι → α → Bool} {Fact : η → α → Prop}
    (seen : ∀ v input item, D.admits v input → look input item = false → Fact v item)
    (stays : ∀ w v item, D.passes w v → Fact w item → Fact v item) (items : List α) :
    D.Safe (fun any v _ => any = false → ∀ item ∈ items, Fact v item)
      (Handler.observeAny look items : Handler σ ι ε Bool) w s := by
  induction items generalizing w s with
  | nil => exact safe_pure (by simp)
  | cons item rest ih =>
    refine safe_bind (safe_observe fun v t input _ _ admitted => ?_)
    cases found : look input item with
    | true =>
      exact safe_pure (by simp)
    | false =>
      have stable (x y : η × σ) (move : D.Moves x y) (fact : Fact x.1 item) : Fact y.1 item := by
        cases move with
        | effect _ _ => exact fact
        | passes _ passes => exact stays _ _ _ passes fact
      refine safe_mono (safe_frame stable ih (seen v input item admitted found)) ?_
      rintro any u r ⟨others, here⟩ none other listed
      rcases List.mem_cons.mp listed with rfl | listed
      · exact here
      · exact others none other listed

end Observations

/-! ## Tame handlers -/

/-- Safe from every state, whatever it returns. -/
def Tame (D : Discipline η σ ι) (h : Handler σ ι ε α) : Prop :=
  ∀ w s, D.Safe (fun _ _ _ => True) h w s

theorem tame_pure {value : α} : D.Tame (pure value : Handler σ ι ε α) :=
  fun _ _ => trivial

theorem tame_raise {error : ε} : D.Tame (Handler.raise error : Handler σ ι ε α) :=
  fun _ _ => trivial

theorem tame_bind {f : α → Handler σ ι ε β} {h : Handler σ ι ε α} (first : D.Tame h) (second : ∀ a, D.Tame (f a)) :
    D.Tame (h >>= f) :=
  fun w s => safe_bind (safe_mono (first w s) fun a v t _ => second a v t)

theorem tame_locked {body : ι → EStateM ε σ α}
    (spec : ∀ v t input, D.inv v t → D.admits v input →
      wp (body input) (fun _ u => D.effect v t u) (fun u => D.effect v t u) t) : D.Tame (Handler.locked body) :=
  fun _ _ => safe_locked fun v t input _ kept admitted =>
    wp_mono (spec v t input kept admitted) (fun _ _ effect => ⟨effect, trivial⟩) fun _ effect => effect

theorem tame_observe {look : ι → α} : D.Tame (Handler.observe look : Handler σ ι ε α) :=
  fun _ _ => safe_observe fun _ _ _ _ _ _ => trivial

theorem tame_observeAny {look : ι → α → Bool} (items : List α) :
    D.Tame (Handler.observeAny look items : Handler σ ι ε Bool) := by
  induction items with
  | nil => exact tame_pure
  | cons item rest ih =>
    refine tame_bind tame_observe fun seen => ?_
    cases seen with
    | true => exact tame_pure
    | false => exact ih

theorem tame_observeAll {look : ι → α → β} (items : List α) :
    D.Tame (Handler.observeAll look items : Handler σ ι ε (List (α × β))) := by
  induction items with
  | nil => exact tame_pure
  | cons item rest ih => exact tame_bind tame_observe fun _ => tame_bind ih fun _ => tame_pure

/-! ## Soundness -/

section Soundness

variable {I C : Type} [DecidableEq I]

/-- The invariant holds and every thread can go on. -/
structure Sound (D : Discipline η σ ι) (m : Monitor η σ ι ε I) : Prop where
  inv : D.inv m.outside m.shared
  busy : ∀ i h, m.threads i = some h → D.Safe (fun _ _ _ => True) h m.outside m.shared

theorem safe_rely {h : Handler σ ι ε Unit} (safe : D.Safe (fun _ _ _ => True) h w s) (rely : D.Rely (w, s) (v, t)) :
    D.Safe (fun _ _ _ => True) h v t := by
  cases h with
  | ret value => trivial
  | raise error => trivial
  | enter write next => exact fun u r input later => safe u r input (rely.trans later)

/-- One step of the monitor is a section or a move of the outside world. -/
theorem Sound.step {program : C → Handler σ ι ε Unit} (calls : ∀ c, D.Tame (program c))
    {m after : Monitor η σ ι ε I} {event : Monitor.Event η ι I C} (sound : Sound D m)
    (admitted : Monitor.Admitted D.admits m event) (taken : Monitor.Step program D.passes m event after) :
    Sound D after ∧ D.Moves (m.outside, m.shared) (after.outside, after.shared) := by
  obtain ⟨kept, busy⟩ := sound
  cases taken with
  | call i c free =>
    refine ⟨⟨kept, ?_⟩, .effect kept (D.refl _ _)⟩
    intro j h found
    by_cases here : j = i
    · subst here
      simp only [Function.update_self, Option.some.injEq] at found
      subst found
      exact calls c _ _
    · exact busy j h (by simpa [here] using found)
  | run i input write next running =>
    obtain ⟨effect, goes⟩ := busy i _ running m.outside m.shared input .refl kept admitted
    have rely : D.Rely (m.outside, m.shared) (m.outside, write input m.shared) := .single (.effect kept effect)
    refine ⟨⟨D.keeps kept effect, ?_⟩, .effect kept effect⟩
    intro j h found
    by_cases here : j = i
    · subst here
      simp only [Function.update_self, Option.some.injEq] at found
      subst found
      exact goes
    · exact safe_rely (busy j h (by simpa [here] using found)) rely
  | leave i =>
    refine ⟨⟨kept, ?_⟩, .effect kept (D.refl _ _)⟩
    intro j h found
    by_cases here : j = i
    · simp [here] at found
    · exact busy j h (by simpa [here] using found)
  | outside v passes =>
    have rely : D.Rely (m.outside, m.shared) (v, m.shared) := .single (.passes kept passes)
    exact ⟨⟨D.ages kept passes, fun j h found => safe_rely (busy j h found) rely⟩, .passes kept passes⟩

variable {program : C → Handler σ ι ε Unit} {init : η → σ → Prop}

/-- Every run of safe handlers keeps the invariant. -/
theorem reachable (starts : ∀ w s, init w s → D.inv w s)
    (calls : ∀ c, D.Tame (program c)) {m : Monitor η σ ι ε I}
    (reached : (Monitor.system program D.passes init).ReachableUnder (Monitor.Admitted D.admits) m) : Sound D m := by
  apply System.ReachableUnder.invariant ?_ ?_ reached
  · rintro m ⟨init, free⟩
    exact ⟨starts _ _ init, fun i h busy => by simp [free i] at busy⟩
  · intro m event after _ sound admitted taken
    exact (sound.step calls admitted taken).1

/-- What a later moment of a run may differ in. -/
theorem later (starts : ∀ w s, init w s → D.inv w s)
    (calls : ∀ c, D.Tame (program c)) {m after : Monitor η σ ι ε I}
    (reached : (Monitor.system program D.passes init).ReachableUnder (Monitor.Admitted D.admits) m)
    (later : (Monitor.system program D.passes init).LaterUnder (Monitor.Admitted D.admits) m after) :
    D.Rely (m.outside, m.shared) (after.outside, after.shared) := by
  induction later with
  | refl => exact .refl
  | tail before last ih =>
    obtain ⟨event, admitted, taken⟩ := last
    have sound := D.reachable starts calls (System.LaterUnder.reachable reached before)
    exact Relation.ReflTransGen.tail ih (sound.step calls admitted taken).2

end Soundness

end Discipline

end CrossPool.Lib
