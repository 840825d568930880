import Mathlib.Logic.Relation

/-!
# Runs of labelled transition systems

A `System` is a set of start states and a labelled step relation. A run may be
restricted by a guard on the state before each step, so that a property which
only holds as long as some step is not taken in a bad state is still a property
of whole runs. `ReachableUnder.invariant` is the one induction every safety
result is derived from; `LaterUnder` compares two moments of one run.
-/

namespace CrossPool.Lib

/-- Start states and labelled steps over arbitrary states and labels. -/
structure System (σ α : Type*) where
  init : σ → Prop
  step : σ → α → σ → Prop

namespace System

variable {σ α : Type*} {S : System σ α} {guard : σ → α → Prop}

/-- States at the end of a finite run each of whose steps meets `guard`. -/
inductive ReachableUnder (S : System σ α) (guard : σ → α → Prop) : σ → Prop where
  | start {s : σ} : S.init s → ReachableUnder S guard s
  | next {s t : σ} {a : α} : ReachableUnder S guard s → guard s a → S.step s a t → ReachableUnder S guard t

/-- States at the end of any finite run. -/
abbrev Reachable (S : System σ α) : σ → Prop :=
  S.ReachableUnder fun _ _ => True

/-- `t` is reached from `s` by some further steps that each meet `guard`. -/
def LaterUnder (S : System σ α) (guard : σ → α → Prop) : σ → σ → Prop :=
  Relation.ReflTransGen fun s t => ∃ a, guard s a ∧ S.step s a t

/-- `t` is reached from `s` by some further steps of any label. -/
abbrev Later (S : System σ α) : σ → σ → Prop :=
  S.LaterUnder fun _ _ => True

/-- The induction over runs: what holds at the start and is kept by every
guarded step from a state already reached holds in every state reached. -/
theorem ReachableUnder.invariant {Inv : σ → Prop} (start : ∀ s, S.init s → Inv s)
    (step : ∀ s a t, S.ReachableUnder guard s → Inv s → guard s a → S.step s a t → Inv t)
    {s : σ} (reached : S.ReachableUnder guard s) : Inv s := by
  induction reached with
  | start init => exact start _ init
  | next before meets taken ih => exact step _ _ _ before ih meets taken

/-- One more step of an unrestricted run. -/
theorem Reachable.step {s t : σ} {a : α} (reached : S.Reachable s) (taken : S.step s a t) : S.Reachable t :=
  ReachableUnder.next reached trivial taken

/-- A guarded run is a run. -/
theorem ReachableUnder.reachable {s : σ} (reached : S.ReachableUnder guard s) : S.Reachable s := by
  induction reached with
  | start init => exact .start init
  | next _ _ taken ih => exact ih.step taken

/-- A guard may be weakened. -/
theorem ReachableUnder.weaken {guard' : σ → α → Prop} (weaker : ∀ s a, guard s a → guard' s a) {s : σ}
    (reached : S.ReachableUnder guard s) : S.ReachableUnder guard' s := by
  induction reached with
  | start init => exact .start init
  | next _ meets taken ih => exact .next ih (weaker _ _ meets) taken

theorem LaterUnder.weaken {guard' : σ → α → Prop} (weaker : ∀ s a, guard s a → guard' s a) {s t : σ}
    (later : S.LaterUnder guard s t) : S.LaterUnder guard' s t := by
  induction later with
  | refl => exact Relation.ReflTransGen.refl
  | tail _ last ih =>
    obtain ⟨a, meets, taken⟩ := last
    exact ih.tail ⟨a, weaker _ a meets, taken⟩

/-- A run computed by a partial function on instructions, each of which stands
for a step: whatever a concrete list of instructions leads to is reached. -/
theorem ReachableUnder.drive {β : Type*} (next : σ → β → Option σ)
    (agrees : ∀ s b t, next s b = some t → ∃ a, guard s a ∧ S.step s a t) {s : σ} (reached : S.ReachableUnder guard s)
    (plan : List β) (P : σ → Bool) (leads : (plan.foldlM next s).any P) : ∃ t, S.ReachableUnder guard t ∧ P t := by
  induction plan generalizing s with
  | nil => exact ⟨s, reached, by simpa using leads⟩
  | cons instruction rest ih =>
    simp only [List.foldlM_cons, Option.bind_eq_bind] at leads
    cases stepped : next s instruction with
    | none => simp [stepped] at leads
    | some t =>
      obtain ⟨a, meets, taken⟩ := agrees s instruction t stepped
      apply ih (reached.next meets taken)
      simpa [stepped] using leads

/-- The same for a list of labels. -/
theorem ReachableUnder.run (next : σ → α → Option σ) (agrees : ∀ s a t, next s a = some t → guard s a ∧ S.step s a t)
    {s : σ} (reached : S.ReachableUnder guard s) (labels : List α) (P : σ → Bool)
    (leads : (labels.foldlM next s).any P) : ∃ t, S.ReachableUnder guard t ∧ P t :=
  reached.drive next (fun s a t stepped => ⟨a, agrees s a t stepped⟩) labels P leads

theorem LaterUnder.refl (s : σ) : S.LaterUnder guard s s :=
  Relation.ReflTransGen.refl

theorem LaterUnder.step {s t u : σ} {a : α} (later : S.LaterUnder guard s t) (meets : guard t a) (taken : S.step t a u) :
    S.LaterUnder guard s u :=
  Relation.ReflTransGen.tail later ⟨a, meets, taken⟩

theorem LaterUnder.trans {s t u : σ} (first : S.LaterUnder guard s t) (second : S.LaterUnder guard t u) :
    S.LaterUnder guard s u :=
  Relation.ReflTransGen.trans first second

/-- A run may be continued. -/
theorem LaterUnder.reachable {s t : σ} (reached : S.ReachableUnder guard s) (later : S.LaterUnder guard s t) :
    S.ReachableUnder guard t := by
  induction later with
  | refl => exact reached
  | tail _ last ih =>
    obtain ⟨a, meets, taken⟩ := last
    exact .next ih meets taken

/-- A relation between an earlier and a later state follows from one step of it,
where each step may use that it starts in a reachable state. -/
theorem LaterUnder.relation {R : σ → σ → Prop} (refl : ∀ s, R s s) (trans : ∀ s t u, R s t → R t u → R s u)
    (step : ∀ s a t, S.ReachableUnder guard s → S.step s a t → R s t)
    {s t : σ} (reached : S.ReachableUnder guard s) (later : S.LaterUnder guard s t) : R s t := by
  induction later with
  | refl => exact refl s
  | tail before last ih =>
    obtain ⟨a, -, taken⟩ := last
    exact trans _ _ _ ih (step _ a _ (LaterUnder.reachable reached before) taken)

/-- A run from one state to another with the labels of its steps. -/
inductive Trace (S : System σ α) : σ → List α → σ → Prop where
  | nil {s : σ} : Trace S s [] s
  | snoc {s t u : σ} {labels : List α} {a : α} : Trace S s labels t → S.step t a u → Trace S s (labels ++ [a]) u

theorem Trace.single {s t : σ} {a : α} (taken : S.step s a t) : S.Trace s [a] t :=
  .snoc .nil taken

theorem Trace.append {s t u : σ} {labels labels' : List α} (first : S.Trace s labels t) (second : S.Trace t labels' u) :
    S.Trace s (labels ++ labels') u := by
  induction second with
  | nil =>
    rw [List.append_nil]
    exact first
  | snoc _ last ih =>
    rw [← List.append_assoc]
    exact .snoc ih last

end System

end CrossPool.Lib
