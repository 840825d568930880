import Mathlib.Algebra.Order.Ring.Int
import Mathlib.Tactic.Common

/-!
# Procedures that keep their writes when they raise

A procedure is an `EStateM` computation: an exception does not undo the state
written before it. `wp` is its weakest precondition with two postconditions, one
for a return and one for a raise; a goal about a procedure unfolds along its
binds by `simp`, and `wp_forM` and `wp_anyM` are the rules for its loops.
-/

namespace CrossPool.Lib

variable {ε σ α β : Type}

/-- What must hold before `m` for `post` to hold after a return and `raised`
after a raise. -/
def wp (m : EStateM ε σ α) (post : α → σ → Prop) (raised : σ → Prop) (s : σ) : Prop :=
  match m s with
  | .ok a t => post a t
  | .error _ t => raised t

/-- Read the state through a function that may raise. -/
def query (f : σ → Except ε α) : EStateM ε σ α := fun s =>
  match f s with
  | .ok a => .ok a s
  | .error e => .error e s

variable {post : α → σ → Prop} {raised : σ → Prop} {s : σ}

@[simp] theorem wp_pure (a : α) : wp (pure a : EStateM ε σ α) post raised s = post a s := rfl

@[simp] theorem wp_throw (e : ε) : wp (throw e : EStateM ε σ α) post raised s = raised s := rfl

@[simp] theorem wp_get {post : σ → σ → Prop} : wp (get : EStateM ε σ σ) post raised s = post s s := rfl

@[simp] theorem wp_modify (f : σ → σ) {post : PUnit → σ → Prop} :
    wp (modify f : EStateM ε σ PUnit) post raised s = post ⟨⟩ (f s) := rfl

@[simp] theorem wp_bind (m : EStateM ε σ β) (f : β → EStateM ε σ α) :
    wp (m >>= f) post raised s = wp m (fun b t => wp (f b) post raised t) raised s := by
  simp only [wp, bind, EStateM.bind]
  cases m s <;> rfl

theorem wp_query {f : σ → Except ε α} :
    wp (query f) post raised s = (match f s with | .ok a => post a s | .error _ => raised s) := by
  simp only [wp, query]
  cases f s <;> rfl

/-- A precondition may be established through stronger postconditions. -/
theorem wp_mono {m : EStateM ε σ α} {post' : α → σ → Prop} {raised' : σ → Prop} (holds : wp m post raised s)
    (returns : ∀ a t, post a t → post' a t) (raises : ∀ t, raised t → raised' t) : wp m post' raised' s := by
  unfold wp at *
  split at holds
  · exact returns _ _ holds
  · exact raises _ holds

/-- A procedure that cannot raise returns. -/
theorem ok_of_wp {m : EStateM ε σ α} (holds : wp m post (fun _ => False) s) : ∃ a t, m s = .ok a t ∧ post a t := by
  unfold wp at holds
  split at holds
  · rename_i a t ran
    exact ⟨a, t, ran, holds⟩
  · exact holds.elim

/-- Two specifications of one procedure hold together. -/
theorem wp_and {m : EStateM ε σ α} {post' : α → σ → Prop} {raised' : σ → Prop} (first : wp m post raised s)
    (second : wp m post' raised' s) : wp m (fun a t => post a t ∧ post' a t) (fun t => raised t ∧ raised' t) s := by
  unfold wp at *
  cases result : m s with
  | ok a t =>
    rw [result] at first second
    exact ⟨first, second⟩
  | error e t =>
    rw [result] at first second
    exact ⟨first, second⟩

/-- A loop keeps what its body keeps. -/
theorem wp_forM (Inv : σ → Prop) {items : List β} {body : β → EStateM ε σ PUnit}
    (kept : ∀ item ∈ items, ∀ t, Inv t → wp (body item) (fun _ => Inv) raised t) (start : Inv s) :
    wp (items.forM body) (fun _ => Inv) raised s := by
  induction items generalizing s with
  | nil => exact start
  | cons item rest ih =>
    show wp (body item >>= fun _ => rest.forM body) _ _ s
    rw [wp_bind]
    refine wp_mono (kept item (by simp) s start) ?_ (fun _ h => h)
    intro _ t after
    exact ih (fun other member => kept other (by simp [member])) after

/-- A loop that uses its items up carries a relation between the items left and the
state. -/
theorem wp_forM_rest (Inv : List β → σ → Prop) {items : List β} {body : β → EStateM ε σ PUnit}
    (used : ∀ item rest t, Inv (item :: rest) t → wp (body item) (fun _ => Inv rest) raised t) (start : Inv items s) :
    wp (items.forM body) (fun _ => Inv []) raised s := by
  induction items generalizing s with
  | nil => exact start
  | cons item rest ih =>
    show wp (body item >>= fun _ => rest.forM body) _ _ s
    rw [wp_bind]
    refine wp_mono (used item rest s start) ?_ (fun _ h => h)
    intro _ t after
    exact ih after

/-- A search stops at the first item its body accepts; until then the invariant
holds, and afterwards the body's own postcondition. -/
theorem wp_anyM (Inv Found : σ → Prop) {items : List β} {body : β → EStateM ε σ Bool}
    (tried : ∀ item ∈ items, ∀ t, Inv t → wp (body item) (fun found u => if found then Found u else Inv u) raised t)
    (start : Inv s) : wp (items.anyM body) (fun found u => if found then Found u else Inv u) raised s := by
  induction items generalizing s with
  | nil => exact start
  | cons item rest ih =>
    show wp (body item >>= fun found => match found with
      | true => pure true
      | false => rest.anyM body) _ _ s
    rw [wp_bind]
    refine wp_mono (tried item (by simp) s start) ?_ (fun _ h => h)
    intro found t after
    cases found with
    | true => exact after
    | false => exact ih (fun other member => tried other (by simp [member])) after

/-- A loop that collects the items its body accepts carries a relation between
the items collected so far, the newest first, and the state. -/
theorem wp_filterM_collect (Inv : List β → σ → Prop) {items : List β} {body : β → EStateM ε σ Bool}
    (kept : ∀ item ∈ items, ∀ seen t, Inv seen t →
      wp (body item) (fun accepted u => Inv (cond accepted (item :: seen) seen) u) raised t)
    (start : Inv [] s) : wp (items.filterM body) (fun found u => Inv found.reverse u) raised s := by
  have collects (rest seen : List β)
      (each : ∀ item ∈ rest, ∀ seen t, Inv seen t →
        wp (body item) (fun accepted u => Inv (cond accepted (item :: seen) seen) u) raised t)
      (s : σ) (start : Inv seen s) : wp (rest.filterAuxM body seen) (fun found u => Inv found u) raised s := by
    induction rest generalizing seen s with
    | nil => exact start
    | cons item rest ih =>
      show wp (body item >>= fun found => rest.filterAuxM body (cond found (item :: seen) seen)) _ _ s
      rw [wp_bind]
      refine wp_mono (each item (by simp) seen s start) ?_ (fun _ h => h)
      intro found t after
      exact ih _ (fun other member => each other (by simp [member])) t after
  show wp (items.filterAuxM body [] >>= fun found => pure found.reverse) _ _ s
  rw [wp_bind]
  refine wp_mono (collects items [] kept s start) ?_ (fun _ h => h)
  intro found t after
  rw [wp_pure, List.reverse_reverse]
  exact after

/-- A loop that collects the items its body accepts keeps what the body keeps. -/
theorem wp_filterM (Inv : σ → Prop) {items : List β} {body : β → EStateM ε σ Bool}
    (kept : ∀ item ∈ items, ∀ t, Inv t → wp (body item) (fun _ => Inv) raised t) (start : Inv s) :
    wp (items.filterM body) (fun _ => Inv) raised s :=
  wp_filterM_collect (fun _ => Inv) (fun item member _ t before => kept item member t before) start

/-! ## Queries that may raise -/

section Queries

theorem bind_eq_ok {x : Except ε β} {f : β → Except ε α} {a : α} :
    (x >>= f) = .ok a ↔ ∃ b, x = .ok b ∧ f b = .ok a := by
  cases x with
  | error e => simp [bind, Except.bind]
  | ok b => simp [bind, Except.bind]

theorem map_eq_ok {x : Except ε β} {f : β → α} {a : α} : x.map f = .ok a ↔ ∃ b, x = .ok b ∧ f b = a := by
  cases x with
  | error e => simp [Except.map]
  | ok b => simp [Except.map]

/-- The answers of a mapping query, item by item. -/
theorem forall₂_of_mapM_eq_ok {f : β → Except ε α} {items : List β} {found : List α} (returned : items.mapM f = .ok found) :
    List.Forall₂ (fun item a => f item = .ok a) items found := by
  induction items generalizing found with
  | nil =>
    obtain rfl : [] = found := Except.ok.inj returned
    exact .nil
  | cons item rest ih =>
    simp only [List.mapM_cons, bind_eq_ok] at returned
    obtain ⟨a, first, others, tail, last⟩ := returned
    obtain rfl : a :: others = found := Except.ok.inj last
    exact .cons first (ih tail)

/-- What is known of each item's answer is known of all answers in order. -/
theorem map_of_mapM_eq_ok {γ : Type} {f : β → Except ε α} {h : α → γ} {g : β → γ} {items : List β} {found : List α}
    (each : ∀ item ∈ items, ∀ a, f item = .ok a → h a = g item) (returned : items.mapM f = .ok found) :
    found.map h = items.map g := by
  have answers := forall₂_of_mapM_eq_ok returned
  clear returned
  induction answers with
  | nil => rfl
  | cons first tail ih =>
    rw [List.map_cons, List.map_cons, each _ (by simp) _ first, ih fun other member => each other (by simp [member])]

/-- A mapping query that returns has mapped every item. -/
theorem mapM_eq_ok {f : β → Except ε α} {g : β → α} {items : List β} {found : List α}
    (each : ∀ item ∈ items, ∀ a, f item = .ok a → a = g item) (returned : items.mapM f = .ok found) :
    found = items.map g := by
  have mapped := map_of_mapM_eq_ok (h := id) each returned
  rwa [List.map_id] at mapped

/-- Every answer of a mapping query is some item's. -/
theorem exists_of_mem_mapM {f : β → Except ε α} {items : List β} {found : List α} (returned : items.mapM f = .ok found)
    {a : α} (member : a ∈ found) : ∃ item ∈ items, f item = .ok a := by
  have answers := forall₂_of_mapM_eq_ok returned
  clear returned
  induction answers with
  | nil => cases member
  | cons first _ ih =>
    rcases List.mem_cons.mp member with rfl | later
    · exact ⟨_, by simp, first⟩
    · obtain ⟨item, known, answer⟩ := ih later
      exact ⟨item, by simp [known], answer⟩

/-- Every item of a mapping query has its answer among those found. -/
theorem exists_mem_of_mapM {f : β → Except ε α} {items : List β} {found : List α} (returned : items.mapM f = .ok found)
    {item : β} (member : item ∈ items) : ∃ a ∈ found, f item = .ok a := by
  have answers := forall₂_of_mapM_eq_ok returned
  clear returned
  induction answers with
  | nil => cases member
  | cons first tail ih =>
    rcases List.mem_cons.mp member with rfl | later
    · exact ⟨_, List.mem_cons_self, first⟩
    · obtain ⟨a, among, answer⟩ := ih later
      exact ⟨a, List.mem_cons_of_mem _ among, answer⟩

/-- A mapping query over items that each return returns. -/
theorem mapM_returns {f : β → Except ε α} {items : List β} (each : ∀ item ∈ items, ∃ a, f item = .ok a) :
    ∃ found, items.mapM f = .ok found := by
  induction items with
  | nil => exact ⟨[], rfl⟩
  | cons item rest ih =>
    obtain ⟨a, first⟩ := each item (by simp)
    obtain ⟨others, tail⟩ := ih fun other member => each other (by simp [member])
    exact ⟨a :: others, by simp only [List.mapM_cons, bind_eq_ok]; exact ⟨a, first, others, tail, rfl⟩⟩

/-- An accumulating query carries a relation between the items seen and the
accumulator. -/
theorem foldlM_eq_ok {R : List β → α → Prop} {f : α → β → Except ε α} {items : List β} {start result : α}
    (init : R [] start)
    (each : ∀ seen item acc next, item ∈ items → R seen acc → f acc item = .ok next → R (seen ++ [item]) next)
    (returned : items.foldlM f start = .ok result) : R items result := by
  have carries (seen rest : List β) (acc : α) (within : rest ⊆ items) (before : R seen acc)
      (returned : rest.foldlM f acc = .ok result) : R (seen ++ rest) result := by
    induction rest generalizing seen acc with
    | nil =>
      obtain rfl : acc = result := Except.ok.inj returned
      simpa using before
    | cons item rest ih =>
      simp only [List.foldlM_cons, bind_eq_ok] at returned
      obtain ⟨next, first, tail⟩ := returned
      have after := each seen item acc next (within (by simp)) before first
      have := ih (seen ++ [item]) next (fun other member => within (by simp [member])) after tail
      simpa using this
  simpa using carries [] items start (fun _ h => h) init returned

/-- A loop of checks returns where every check passes. -/
theorem forM_eq_ok {items : List β} {check : β → Except ε Unit} :
    items.forM check = .ok () ↔ ∀ item ∈ items, check item = .ok () := by
  induction items with
  | nil =>
    simp [List.forM, pure, Except.pure]
  | cons item rest ih =>
    change (check item >>= fun _ => rest.forM check) = .ok () ↔ _
    rw [bind_eq_ok, List.forall_mem_cons, ← ih]
    constructor
    · rintro ⟨⟨⟩, first, tail⟩
      exact ⟨first, tail⟩
    · rintro ⟨first, tail⟩
      exact ⟨(), first, tail⟩

/-- An accumulating query whose every step returns, whatever it has, returns. -/
theorem foldlM_returns {f : α → β → Except ε α} {items : List β} (each : ∀ acc, ∀ item ∈ items, ∃ next, f acc item = .ok next)
    (start : α) : ∃ result, items.foldlM f start = .ok result := by
  induction items generalizing start with
  | nil => exact ⟨start, rfl⟩
  | cons item rest ih =>
    obtain ⟨next, first⟩ := each start item (by simp)
    obtain ⟨result, tail⟩ := ih (fun acc other member => each acc other (by simp [member])) next
    exact ⟨result, by simp only [List.foldlM_cons, bind_eq_ok]; exact ⟨next, first, tail⟩⟩

end Queries

/-! ## Procedures within a relation -/

section Within

variable {R : σ → σ → Prop}

/-- However the procedure ends, the state it leaves is related to the one it
started from. -/
def Within (R : σ → σ → Prop) (m : EStateM ε σ α) : Prop :=
  ∀ s, wp m (fun _ t => R s t) (fun t => R s t) s

theorem within_pure (refl : ∀ s, R s s) (a : α) : Within R (pure a : EStateM ε σ α) :=
  fun s => refl s

theorem within_throw (refl : ∀ s, R s s) (e : ε) : Within R (throw e : EStateM ε σ α) :=
  fun s => refl s

theorem within_get (refl : ∀ s, R s s) : Within R (get : EStateM ε σ σ) :=
  fun s => refl s

theorem within_modify {f : σ → σ} (related : ∀ s, R s (f s)) : Within R (modify f : EStateM ε σ PUnit) :=
  fun s => related s

theorem within_bind (trans : ∀ s t u, R s t → R t u → R s u) {m : EStateM ε σ β} {f : β → EStateM ε σ α}
    (first : Within R m) (second : ∀ b, Within R (f b)) : Within R (m >>= f) := by
  intro s
  rw [wp_bind]
  refine wp_mono (first s) ?_ fun _ related => related
  intro b t related
  exact wp_mono (second b t) (fun _ u later => trans s t u related later) fun u later => trans s t u related later

end Within

end CrossPool.Lib
