import Mathlib.Algebra.Order.Ring.Int
import CrossPool.Lib.Threads

/-!
# Sequence locks

A record of several words with a revision word, which its only writer makes odd
before it stores the words and even again afterwards. A reader loads the revision,
the words and the revision again. `safe_readRecord` says that where the revisions
agree, the words are those of the publication that is current at the second load.
-/

namespace CrossPool.Lib

variable {A R I : Type}

/-- Where the words of each record are and which thread publishes it. -/
structure Seqlock (A R I : Type) where
  revision : R → A
  data : R → List A
  owns : I → R → Prop
  single : ∀ {i j r}, owns i r → owns j r → i = j
  revision_inj : ∀ {r r'}, revision r = revision r' → r = r'
  revision_not_data : ∀ r r', revision r ∉ data r'
  data_nodup : ∀ r, (data r).Nodup
  data_disjoint : ∀ {r r' a}, a ∈ data r → a ∈ data r' → r = r'

namespace Seqlock

variable (L : Seqlock A R I)

/-! ## Programs -/

/-- Make the revision odd; the result is the revision that ends the publication. -/
def beginPublication (r : R) : Thread A R Nat :=
  .load (L.revision r) fun previous =>
    if previous % 2 = 0 ∧ previous ≤ 2 ^ 64 - 1 - 2 then
      .store (L.revision r) (previous + 1) (.ret (previous + 2))
    else .raise

def stores : List (A × Nat) → Thread A R Unit
  | [] => .ret ()
  | (address, value) :: rest => .store address value (stores rest)

def publishRecord (r : R) (values : List Nat) : Thread A R Unit := do
  let next ← L.beginPublication r
  stores ((L.data r).zip values)
  .publish (L.revision r) next r values (.ret ())

/-- Load words one after the other, behind those already seen. -/
def loads (seen : List Nat) : List A → Thread A R (List Nat)
  | [] => .ret seen
  | address :: rest => .load address fun value => loads (seen ++ [value]) rest

/-- The words of a record and their revision, unless a publication interferes. -/
def readRecord (r : R) : Thread A R (Option (Nat × List Nat)) :=
  .load (L.revision r) fun first =>
    if first = 0 ∨ first % 2 ≠ 0 then .ret none
    else do
      let values ← loads [] (L.data r)
      .load (L.revision r) fun second => .ret (if first = second then some (first, values) else none)

/-- Read a record and decode it; what is returned is noted. -/
def takeRecord {α : Type} (r : R) (decode : List Nat → Except Unit (Option α)) : Thread A R (Option α) := do
  match ← L.readRecord r with
  | none => .ret none
  | some (revision, values) =>
    match decode values with
    | .error _ => .raise
    | .ok none => .ret none
    | .ok (some value) => .observe r revision values (.ret (some value))

/-! ## Protocol -/

/-- No publication is on its way. -/
structure Closed (w : World A R I) (r : R) : Prop where
  revision : w.memory (L.revision r) = 2 * (w.published r).length
  words : ∀ last, (w.published r).getLast? = some last → (L.data r).map w.memory = last

def Opened (w : World A R I) (r : R) : Prop :=
  w.memory (L.revision r) = 2 * (w.published r).length + 1

/-- The values are those of the publication that ended with the revision. -/
def Seen (w : World A R I) (r : R) (revision : Nat) (values : List Nat) : Prop :=
  ∃ n, revision = 2 * (n + 1) ∧ (w.published r)[n]? = some values

structure Inv (w : World A R I) : Prop where
  record : ∀ r, L.Closed w r ∨ L.Opened w r
  bounded : ∀ r, w.memory (L.revision r) ≤ 2 ^ 64 - 1
  observed :
    ∀ i r, ∀ entry ∈ w.observed i r, Seen w r entry.1 entry.2 ∧ entry.1 ≤ w.memory (L.revision r)
  order : ∀ i r, ((w.observed i r).map Prod.fst).Pairwise (· ≤ ·)

variable [DecidableEq A] [DecidableEq R] [DecidableEq I]

/-- What a thread may do to the words; `allowed` says when a publication may end. -/
inductive Effect (allowed : (R → List (List Nat)) → R → List Nat → Prop) (i : I) (w : World A R I) :
    World A R I → Prop where
  | start (r : R) (owns : L.owns i r) (closed : L.Closed w r) (room : 2 * (w.published r).length ≤ 2 ^ 64 - 1 - 2) :
      Effect allowed i w (w.store (L.revision r) (2 * (w.published r).length + 1))
  | write (r : R) (address : A) (value : Nat) (owns : L.owns i r) (opened : L.Opened w r) (member : address ∈ L.data r) :
      Effect allowed i w (w.store address value)
  | commit (r : R) (values : List Nat) (owns : L.owns i r) (opened : L.Opened w r)
      (written : (L.data r).map w.memory = values) (may : allowed w.published r values)
      (room : 2 * (w.published r).length + 2 ≤ 2 ^ 64 - 1) :
      Effect allowed i w (w.publish (L.revision r) (2 * (w.published r).length + 2) r values)
  | observe (r : R) (revision : Nat) (values : List Nat) (seen : Seen w r revision values)
      (reached : revision ≤ w.memory (L.revision r)) (later : ∀ entry ∈ w.observed i r, entry.1 ≤ revision) :
      Effect allowed i w (w.observe i r revision values)

variable {L} {allowed : (R → List (List Nat)) → R → List Nat → Prop} {i j : I} {w u : World A R I} {r : R}

/-! ## Addresses -/

omit [DecidableEq A] [DecidableEq R] [DecidableEq I] in
theorem revision_ne {r' : R} (ne : r ≠ r') : L.revision r ≠ L.revision r' :=
  fun same => ne (L.revision_inj same)

omit [DecidableEq A] [DecidableEq R] [DecidableEq I] in
theorem revision_ne_data {r' : R} {address : A} (member : address ∈ L.data r') : L.revision r ≠ address := by
  intro same
  rw [← same] at member
  exact L.revision_not_data r r' member

omit [DecidableEq A] [DecidableEq R] [DecidableEq I] in
theorem data_ne {r' : R} {address address' : A} (ne : r ≠ r') (member : address ∈ L.data r) (member' : address' ∈ L.data r') :
    address ≠ address' := by
  intro same
  rw [← same] at member'
  exact ne (L.data_disjoint member member')

omit [DecidableEq A] [DecidableEq R] [DecidableEq I] in
theorem Seen.mono {revision : Nat} {values : List Nat} (seen : Seen w r revision values)
    (grows : w.published r <+: u.published r) : Seen u r revision values := by
  obtain ⟨n, even, found⟩ := seen
  obtain ⟨more, eq⟩ := grows
  refine ⟨n, even, ?_⟩
  rw [← eq, List.getElem?_append_left (List.getElem?_eq_some_iff.mp found).1]
  exact found

/-! ## What a step leaves alone -/

/-- The words and publications of a record are as before. -/
structure Untouched (L : Seqlock A R I) (w u : World A R I) (r : R) : Prop where
  revision : u.memory (L.revision r) = w.memory (L.revision r)
  data : ∀ address ∈ L.data r, u.memory address = w.memory address
  published : u.published r = w.published r

omit [DecidableEq A] [DecidableEq R] [DecidableEq I] in
theorem Untouched.closed (untouched : L.Untouched w u r) (closed : L.Closed w r) : L.Closed u r := by
  refine ⟨by rw [untouched.revision, untouched.published, closed.revision], ?_⟩
  intro last found
  rw [untouched.published] at found
  rw [← closed.words last found]
  exact List.map_congr_left untouched.data

omit [DecidableEq A] [DecidableEq R] [DecidableEq I] in
theorem Untouched.opened (untouched : L.Untouched w u r) (opened : L.Opened w r) : L.Opened u r := by
  unfold Opened at opened ⊢
  rw [untouched.revision, untouched.published, opened]

/-- The record that an effect writes; every other is left alone. -/
theorem Effect.touches (effect : L.Effect allowed i w u) :
    (∀ r, L.Untouched w u r) ∨ ∃ r, L.owns i r ∧ ∀ r' ≠ r, L.Untouched w u r' := by
  cases effect with
  | start r owns closed room =>
    refine .inr ⟨r, owns, fun r' ne => ⟨World.store_of_ne (revision_ne ne), ?_, rfl⟩⟩
    exact fun address member => World.store_of_ne (revision_ne_data member).symm
  | write r address value owns opened member =>
    refine .inr ⟨r, owns, fun r' ne => ⟨World.store_of_ne (revision_ne_data member), ?_, rfl⟩⟩
    exact fun address' member' => World.store_of_ne (data_ne ne member' member)
  | commit r values owns opened written may room =>
    refine .inr ⟨r, owns, fun r' ne => ⟨World.publish_of_ne (revision_ne ne), ?_, World.publish_published_of_ne ne⟩⟩
    exact fun address member => World.publish_of_ne (revision_ne_data member).symm
  | observe => exact .inl fun r => ⟨rfl, fun _ _ => rfl, rfl⟩

/-- Only its owner touches a record. -/
theorem Effect.untouched (effect : L.Effect allowed j w u) (other : ¬L.owns j r) : L.Untouched w u r := by
  rcases effect.touches with all | ⟨r', owns, others⟩
  · exact all r
  · exact others r fun same => other (same ▸ owns)

theorem Effect.observed (effect : L.Effect allowed j w u) (other : j ≠ i) : u.observed i = w.observed i := by
  cases effect with
  | observe r' revision values => exact Function.update_of_ne (Ne.symm other) _ _
  | _ => rfl

/-- Publications change only where one ends. -/
theorem Effect.published (effect : L.Effect allowed j w u) :
    u.published = w.published ∨
      ∃ r values, L.owns j r ∧ allowed w.published r values ∧
        u.published = Function.update w.published r (w.published r ++ [values]) := by
  cases effect with
  | commit r values owns opened written may room => exact .inr ⟨r, values, owns, may, rfl⟩
  | _ => exact .inl rfl

/-- Publications are only added, and revisions only grow. -/
theorem Effect.grows (effect : L.Effect allowed j w u) (r : R) :
    w.published r <+: u.published r ∧ w.memory (L.revision r) ≤ u.memory (L.revision r) := by
  cases effect with
  | start r' owns closed room =>
    refine ⟨List.prefix_rfl, ?_⟩
    by_cases here : r = r'
    · subst here
      rw [closed.revision, World.store_same]
      omega
    · exact Nat.le_of_eq (World.store_of_ne (revision_ne here)).symm
  | write r' address value owns opened member =>
    exact ⟨List.prefix_rfl, Nat.le_of_eq (World.store_of_ne (revision_ne_data member)).symm⟩
  | commit r' values owns opened written may room =>
    by_cases here : r = r'
    · subst here
      unfold Opened at opened
      rw [opened, World.publish_same, World.publish_published]
      exact ⟨List.prefix_append _ _, by omega⟩
    · rw [World.publish_of_ne (revision_ne here), World.publish_published_of_ne here]
      exact ⟨List.prefix_rfl, Nat.le_refl _⟩
  | observe => exact ⟨List.prefix_rfl, Nat.le_refl _⟩

/-- What a thread has observed stays. -/
theorem Effect.remembers (effect : L.Effect allowed j w u) (i : I) (r : R) : w.observed i r <+: u.observed i r := by
  by_cases own : j = i
  · subst own
    cases effect with
    | observe r' revision values =>
      by_cases here : r = r'
      · subst here
        simp only [World.observe, Function.update_self]
        exact List.prefix_append _ _
      · simp only [World.observe, Function.update_self, Function.update_of_ne here]
        exact List.prefix_rfl
    | _ => exact List.prefix_rfl
  · exact congrFun (effect.observed own) r ▸ List.prefix_rfl

theorem Effect.state (effect : L.Effect allowed j w u) (inv : L.Inv w) (r : R) :
    (L.Closed u r ∨ L.Opened u r) ∧ u.memory (L.revision r) ≤ 2 ^ 64 - 1 := by
  have still : L.Untouched w u r → (L.Closed u r ∨ L.Opened u r) ∧ u.memory (L.revision r) ≤ 2 ^ 64 - 1 := by
    intro untouched
    rw [untouched.revision]
    exact ⟨(inv.record r).imp untouched.closed untouched.opened, inv.bounded r⟩
  cases effect with
  | start r' owns closed room =>
    by_cases here : r = r'
    · subst here
      refine ⟨.inr ?_, ?_⟩
      · rw [Opened, World.store_same]
        rfl
      · rw [World.store_same]
        omega
    · apply still
      refine ⟨World.store_of_ne (revision_ne here), ?_, rfl⟩
      exact fun address member => World.store_of_ne (revision_ne_data member).symm
  | write r' address value owns opened member =>
    by_cases here : r = r'
    · subst here
      have revision : (w.store address value).memory (L.revision r) = w.memory (L.revision r) :=
        World.store_of_ne (revision_ne_data member)
      rw [revision]
      refine ⟨.inr ?_, inv.bounded r⟩
      unfold Opened at opened ⊢
      rw [revision, opened]
      rfl
    · apply still
      refine ⟨World.store_of_ne (revision_ne_data member), ?_, rfl⟩
      exact fun address' member' => World.store_of_ne (data_ne here member' member)
  | commit r' values owns opened written may room =>
    by_cases here : r = r'
    · subst here
      refine ⟨.inl ⟨?_, ?_⟩, ?_⟩
      · rw [World.publish_same, World.publish_published, List.length_append, List.length_singleton]
        omega
      · intro last found
        obtain rfl : values = last := by simpa using found
        rw [← written]
        exact List.map_congr_left fun address member => World.publish_of_ne (revision_ne_data member).symm
      · rw [World.publish_same]
        exact room
    · apply still
      refine ⟨World.publish_of_ne (revision_ne here), ?_, World.publish_published_of_ne here⟩
      exact fun address member => World.publish_of_ne (revision_ne_data member).symm
  | observe => exact still ⟨rfl, fun _ _ => rfl, rfl⟩

theorem Effect.inv (effect : L.Effect allowed j w u) (inv : L.Inv w) : L.Inv u := by
  have old : ∀ i r, ∀ entry ∈ w.observed i r, Seen u r entry.1 entry.2 ∧ entry.1 ≤ u.memory (L.revision r) := by
    intro i r entry member
    obtain ⟨seen, reached⟩ := inv.observed i r entry member
    obtain ⟨published, revision⟩ := effect.grows r
    exact ⟨seen.mono published, Nat.le_trans reached revision⟩
  refine ⟨fun r => (effect.state inv r).1, fun r => (effect.state inv r).2, ?_, ?_⟩
  · intro i r entry member
    by_cases own : j = i
    · subst own
      cases effect with
      | observe r' revision values seen reached later =>
        by_cases here : r = r'
        · subst here
          simp only [World.observe, Function.update_self, List.mem_append, List.mem_singleton] at member
          rcases member with member | rfl
          · exact old j r entry member
          · exact ⟨seen, reached⟩
        · simp only [World.observe, Function.update_self, Function.update_of_ne here] at member
          exact old j r entry member
      | start => exact old j r entry member
      | write => exact old j r entry member
      | commit => exact old j r entry member
    · rw [effect.observed own] at member
      exact old i r entry member
  · intro i r
    have before := inv.order i r
    by_cases own : j = i
    · subst own
      cases effect with
      | observe r' revision values seen reached later =>
        by_cases here : r = r'
        · subst here
          simp only [World.observe, Function.update_self, List.map_append, List.map_cons, List.map_nil]
          refine List.pairwise_append.mpr ⟨before, List.pairwise_singleton _ _, ?_⟩
          intro a inOld b inNew
          obtain ⟨entry, member, rfl⟩ := List.mem_map.mp inOld
          rw [List.mem_singleton.mp inNew]
          exact later entry member
        · simp only [World.observe, Function.update_self, Function.update_of_ne here]
          exact before
      | start => exact before
      | write => exact before
      | commit => exact before
    · rw [effect.observed own]
      exact before

/-- The rules of the sequence lock; between calls a thread's own records are closed. -/
def protocol (L : Seqlock A R I) (allowed : (R → List (List Nat)) → R → List Nat → Prop) : Protocol A R I where
  inv := L.Inv
  effect := L.Effect allowed
  idle i w := ∀ r, L.owns i r → L.Closed w r
  keeps inv effect := effect.inv inv
  stable _ idle other effect r owns :=
    (effect.untouched fun owned => other (L.single owned owns)).closed (idle r owns)

/-! ## Reading -/

omit [DecidableEq A] [DecidableEq R] [DecidableEq I] in
theorem Untouched.trans {v : World A R I} (first : L.Untouched w u r) (second : L.Untouched u v r) : L.Untouched w v r where
  revision := second.revision.trans first.revision
  data address member := (second.data address member).trans (first.data address member)
  published := second.published.trans first.published

/-- Under an even revision that does not move, nothing moves. -/
theorem Effect.still (effect : L.Effect allowed j w u) (same : u.memory (L.revision r) = w.memory (L.revision r))
    (even : w.memory (L.revision r) % 2 = 0) : L.Untouched w u r := by
  cases effect with
  | start r' owns closed room =>
    by_cases here : r = r'
    · subst here
      rw [closed.revision, World.store_same] at same
      omega
    · refine ⟨World.store_of_ne (revision_ne here), ?_, rfl⟩
      exact fun address member => World.store_of_ne (revision_ne_data member).symm
  | write r' address value owns opened member =>
    by_cases here : r = r'
    · subst here
      unfold Opened at opened
      omega
    · refine ⟨World.store_of_ne (revision_ne_data member), ?_, rfl⟩
      exact fun address' member' => World.store_of_ne (data_ne here member' member)
  | commit r' values owns opened written may room =>
    by_cases here : r = r'
    · subst here
      unfold Opened at opened
      omega
    · refine ⟨World.publish_of_ne (revision_ne here), ?_, World.publish_published_of_ne here⟩
      exact fun address member => World.publish_of_ne (revision_ne_data member).symm
  | observe => exact ⟨rfl, fun _ _ => rfl, rfl⟩

/-- What a thread knows of a record after the others' steps. -/
theorem rely_record (rely : (L.protocol allowed).Rely i w u) (r : R) :
    w.memory (L.revision r) ≤ u.memory (L.revision r) ∧
      (u.memory (L.revision r) = w.memory (L.revision r) → w.memory (L.revision r) % 2 = 0 → L.Untouched w u r) := by
  refine rely.stable
    (F := fun u =>
      w.memory (L.revision r) ≤ u.memory (L.revision r) ∧
        (u.memory (L.revision r) = w.memory (L.revision r) → w.memory (L.revision r) % 2 = 0 → L.Untouched w u r))
    ⟨Nat.le_refl _, fun _ _ => ⟨rfl, fun _ _ => rfl, rfl⟩⟩ ?_
  intro j _ u v _ known effect
  obtain ⟨reached, same⟩ := known
  have grows := (effect.grows r).2
  refine ⟨Nat.le_trans reached grows, fun unmoved even => ?_⟩
  have before : u.memory (L.revision r) = w.memory (L.revision r) := by omega
  have untouched := same before even
  exact untouched.trans (effect.still (by omega) (by omega))

/-- A thread's own records and observations do not move under it. -/
theorem rely_own (rely : (L.protocol allowed).Rely i w u) (owns : L.owns i r) : L.Untouched w u r := by
  refine rely.stable (F := fun u => L.Untouched w u r) ⟨rfl, fun _ _ => rfl, rfl⟩ ?_
  intro j other u v _ untouched effect
  exact untouched.trans (effect.untouched fun owned => other (L.single owned owns))

theorem rely_observed (rely : (L.protocol allowed).Rely i w u) : u.observed i = w.observed i := by
  refine rely.stable (F := fun u => u.observed i = w.observed i) rfl ?_
  intro j other u v _ same effect
  rw [effect.observed other, same]

/-- As long as the revision stays, the words loaded so far and those still to be
loaded are the values of one publication. -/
theorem safe_loads {post : List Nat → World A R I → Prop} (revision : Nat) (values : List Nat)
    (returns :
      ∀ u read, (L.protocol allowed).Rely i w u → L.Inv u → revision ≤ u.memory (L.revision r) →
        (u.memory (L.revision r) = revision → read = values) → post read u)
    (even : revision % 2 = 0) (rest : List A) (within : rest ⊆ L.data r) (seen : List Nat) {v : World A R I}
    (rely : (L.protocol allowed).Rely i w v) (kept : L.Inv v) (reached : revision ≤ v.memory (L.revision r))
    (agrees : v.memory (L.revision r) = revision → seen ++ rest.map v.memory = values) :
    (L.protocol allowed).Safe i post (loads seen rest) v := by
  induction rest generalizing seen v with
  | nil => exact returns v seen rely kept reached fun same => by simpa using agrees same
  | cons address rest ih =>
    intro u later keptLater
    obtain ⟨grows, still⟩ := rely_record later r
    refine ih (fun a member => within (List.mem_cons_of_mem _ member)) _ (rely.trans later) keptLater (by omega) ?_
    intro same
    have before : v.memory (L.revision r) = revision := by omega
    have untouched := still (by omega) (by omega)
    have loaded := agrees before
    rw [List.map_congr_left fun a member => (untouched.data a (within member)).symm] at loaded
    simpa using loaded

/-- A reader gets nothing, or the publication that is current when it loads the
revision for the second time. A thread that reads its own record gets nothing
only if there is nothing. -/
theorem safe_readRecord {post : Option (Nat × List Nat) → World A R I → Prop}
    (nothing :
      ∀ u, (L.protocol allowed).Rely i w u → L.Inv u → (L.owns i r → L.Closed w r → u.published r = []) → post none u)
    (current :
      ∀ u revision values, (L.protocol allowed).Rely i w u → L.Inv u → L.Closed u r →
        u.memory (L.revision r) = revision → (u.published r).getLast? = some values →
        Seen u r revision values → (∀ entry ∈ u.observed i r, entry.1 ≤ revision) → post (some (revision, values)) u) :
    (L.protocol allowed).Safe i post (L.readRecord r) w := by
  intro v rely kept
  have own : L.owns i r → L.Closed w r → L.Closed v r := fun owns => (rely_own rely owns).closed
  generalize first : v.memory (L.revision r) = revision
  dsimp only
  by_cases skip : revision = 0 ∨ revision % 2 ≠ 0
  · rw [if_pos skip]
    refine nothing v rely kept fun owns closed => ?_
    have closed := (own owns closed).revision
    apply List.length_eq_zero_iff.mp
    omega
  rw [if_neg skip]
  simp only [not_or, not_not] at skip
  obtain ⟨nonzero, even⟩ := skip
  have closed : L.Closed v r := by
    rcases kept.record r with closed | opened
    · exact closed
    · unfold Opened at opened
      omega
  obtain ⟨values, last⟩ : ∃ values, (v.published r).getLast? = some values := by
    cases found : (v.published r).getLast? with
    | some values => exact ⟨values, rfl⟩
    | none =>
      have empty := List.getLast?_eq_none_iff.mp found
      have := closed.revision
      rw [empty] at this
      simp only [List.length_nil] at this
      omega
  apply Protocol.safe_bind
  apply safe_loads (w := v) revision values ?_ even _ (List.Subset.refl _) [] .refl kept (by omega)
  · exact fun _ => by simpa using closed.words values last
  -- the second load decides
  intro u read later keptLater reached agrees x rely' keptX
  show post _ x
  obtain ⟨grows, still⟩ := rely_record rely' r
  by_cases unmoved : revision = x.memory (L.revision r)
  · rw [if_pos unmoved]
    have same : u.memory (L.revision r) = revision := by omega
    obtain rfl := agrees same
    have untouched : L.Untouched v x r := by
      obtain ⟨-, stillLater⟩ := rely_record (later.trans rely') r
      exact stillLater (by omega) (by omega)
    have closedX := untouched.closed closed
    have lastX : (x.published r).getLast? = some read := by rw [untouched.published, last]
    refine current x revision read ((rely.trans later).trans rely') keptX closedX unmoved.symm lastX ?_ ?_
    · have count := closedX.revision
      rw [List.getLast?_eq_getElem?] at lastX
      refine ⟨(x.published r).length - 1, ?_, lastX⟩
      have := (List.getElem?_eq_some_iff.mp lastX).1
      omega
    · rw [rely_observed (later.trans rely')]
      intro entry member
      have := (kept.observed i r entry member).2
      omega
  · rw [if_neg unmoved]
    refine nothing x ((rely.trans later).trans rely') keptX fun owns _ => ?_
    have untouched := rely_own (later.trans rely') owns
    exact absurd (untouched.revision.trans first).symm unmoved

/-! ## Publishing -/

/-- The words that a writer has stored so far. -/
def Stored (w : World A R I) (pairs : List (A × Nat)) : Prop :=
  ∀ pair ∈ pairs, w.memory pair.1 = pair.2

/-- What a writer knows in the middle of a publication. -/
structure Writing (L : Seqlock A R I) (i : I) (F : (R → List (List Nat)) → Prop) (r : R) (length : Nat)
    (w : World A R I) (done : List (A × Nat)) : Prop where
  opened : L.Opened w r
  count : (w.published r).length = length
  others : ∀ r' ≠ r, L.owns i r' → L.Closed w r'
  fact : F w.published
  stored : Stored w done

section Publish

variable {F : (R → List (List Nat)) → Prop} {n : Nat}

/-- A fact about the publications that only a thread's own may end. -/
def Stable (L : Seqlock A R I) (allowed : (R → List (List Nat)) → R → List Nat → Prop) (i : I)
    (F : (R → List (List Nat)) → Prop) : Prop :=
  ∀ j ≠ i, ∀ w u, L.Inv w → F w.published → L.Effect allowed j w u → F u.published

theorem Stable.rely (stable : Stable L allowed i F) (rely : (L.protocol allowed).Rely i w u) (fact : F w.published) :
    F u.published :=
  Protocol.Rely.stable (F := fun u => F u.published) fact rely stable

theorem Writing.rely {done : List (A × Nat)} (owns : L.owns i r) (stable : Stable L allowed i F)
    (within : ∀ pair ∈ done, pair.1 ∈ L.data r) (writing : L.Writing i F r n w done)
    (rely : (L.protocol allowed).Rely i w u) : L.Writing i F r n u done := by
  have untouched := rely_own rely owns
  refine ⟨untouched.opened writing.opened, ?_, ?_, stable.rely rely writing.fact, ?_⟩
  · rw [untouched.published, writing.count]
  · exact fun r' ne owned => (rely_own rely owned).closed (writing.others r' ne owned)
  · intro pair member
    rw [untouched.data _ (within pair member), writing.stored pair member]

omit [DecidableEq R] [DecidableEq I] in
theorem Writing.store {done : List (A × Nat)} {address : A} {value : Nat} (writing : L.Writing i F r n w done)
    (member : address ∈ L.data r) (fresh : ∀ pair ∈ done, pair.1 ≠ address) :
    L.Writing i F r n (w.store address value) (done ++ [(address, value)]) := by
  have revision : (w.store address value).memory (L.revision r) = w.memory (L.revision r) :=
    World.store_of_ne (revision_ne_data member)
  refine ⟨?_, writing.count, ?_, writing.fact, ?_⟩
  · unfold Opened
    rw [revision, writing.opened]
    rfl
  · intro r' ne owned
    refine Untouched.closed ⟨World.store_of_ne (revision_ne_data member), ?_, rfl⟩ (writing.others r' ne owned)
    exact fun address' member' => World.store_of_ne (data_ne ne member' member)
  · intro pair inDone
    rcases List.mem_append.mp inDone with old | new
    · rw [World.store_of_ne (fresh pair old), writing.stored pair old]
    · rw [List.mem_singleton.mp new, World.store_same]

theorem safe_stores {post : Unit → World A R I → Prop} (owns : L.owns i r) (stable : Stable L allowed i F)
    {pairs : List (A × Nat)} (within : ∀ pair ∈ pairs, pair.1 ∈ L.data r) (distinct : (pairs.map Prod.fst).Nodup)
    (returns : ∀ u, L.Writing i F r n u pairs → post () u) (done rest : List (A × Nat)) (split : done ++ rest = pairs)
    (writing : L.Writing i F r n w done) : (L.protocol allowed).Safe i post (stores rest) w := by
  induction rest generalizing done w with
  | nil =>
    rw [List.append_nil] at split
    exact returns w (split ▸ writing)
  | cons pair rest ih =>
    obtain ⟨address, value⟩ := pair
    intro u rely kept
    have member : address ∈ L.data r := within (address, value) (by rw [← split]; simp)
    have now := writing.rely owns stable (fun pair inDone => within pair (by rw [← split]; simp [inDone])) rely
    have fresh : ∀ pair ∈ done, pair.1 ≠ address := by
      rw [← split, List.map_append, List.nodup_append] at distinct
      intro pair inDone
      exact distinct.2.2 pair.1 (List.mem_map_of_mem inDone) address (by simp)
    refine ⟨.write r address value owns now.opened member, ?_⟩
    exact ih (done ++ [(address, value)]) (by simpa using split) (now.store member fresh)

/-- A publication is safe if nobody else can end the fact that allows it. -/
theorem safe_publishRecord {values : List Nat} (owns : L.owns i r) (idle : ∀ r, L.owns i r → L.Closed w r)
    (size : values.length = (L.data r).length) (stable : Stable L allowed i F) (fact : F w.published)
    (enough : ∀ published, F published → allowed published r values) :
    (L.protocol allowed).Safe i (fun _ => (L.protocol allowed).idle i) (L.publishRecord r values) w := by
  apply Protocol.safe_bind
  intro v rely kept
  have idleV : ∀ r, L.owns i r → L.Closed v r := fun r owned => (rely_own rely owned).closed (idle r owned)
  have factV := stable.rely rely fact
  rw [(idleV r owns).revision]
  dsimp only
  split
  case isFalse => exact idleV
  rename_i room
  -- the revision becomes odd
  intro u rely' kept'
  have idleU : ∀ r, L.owns i r → L.Closed u r := fun r owned => (rely_own rely' owned).closed (idleV r owned)
  have factU : F u.published := stable.rely rely' factV
  have same : u.published r = v.published r := (rely_own rely' owns).published
  rw [← same] at room ⊢
  refine ⟨.start r owns (idleU r owns) room.2, ?_⟩
  have pairs : ∀ pair ∈ (L.data r).zip values, pair.1 ∈ L.data r := fun pair member => (List.of_mem_zip member).1
  have keys : ((L.data r).zip values).map Prod.fst = L.data r := List.map_fst_zip (by omega)
  apply Protocol.safe_bind
  refine safe_stores (n := (u.published r).length) owns stable pairs (by rw [keys]; exact L.data_nodup r) ?_ [] _ rfl ?_
  · -- all words are stored: the revision becomes even
    intro x writing y later keptY
    have now := writing.rely owns stable pairs later
    have written : (L.data r).map y.memory = values := by
      have each : ((L.data r).zip values).map (fun pair => y.memory pair.1) = ((L.data r).zip values).map Prod.snd :=
        List.map_congr_left now.stored
      have seconds : ((L.data r).zip values).map Prod.snd = values := List.map_snd_zip (by omega)
      rw [seconds] at each
      rw [← each]
      conv => lhs; rw [← keys]
      rw [List.map_map]
      rfl
    have commit : L.Effect allowed i y (y.publish (L.revision r) (2 * (y.published r).length + 2) r values) := by
      refine .commit r values owns now.opened written (enough _ now.fact) ?_
      rw [now.count]
      omega
    rw [now.count] at commit
    refine ⟨commit, ?_⟩
    intro r' owned
    by_cases here : r' = r
    · subst here
      refine ⟨?_, ?_⟩
      · rw [World.publish_same, World.publish_published, List.length_append, now.count, List.length_singleton]
        omega
      · intro last found
        obtain rfl : values = last := by simpa using found
        rw [← written]
        exact List.map_congr_left fun address member => World.publish_of_ne (revision_ne_data member).symm
    · refine Untouched.closed ⟨World.publish_of_ne (revision_ne here), ?_, World.publish_published_of_ne here⟩
        (now.others r' here owned)
      exact fun address member => World.publish_of_ne (revision_ne_data member).symm
  · refine ⟨?_, rfl, ?_, factU, ?_⟩
    · rw [Opened, World.store_same]
      rfl
    · intro r' ne owned
      refine Untouched.closed ⟨World.store_of_ne (revision_ne ne), ?_, rfl⟩ (idleU r' owned)
      exact fun address member => World.store_of_ne (revision_ne_data member).symm
    · intro pair member
      cases member

/-- A reader gets nothing, or a publication of the record that is then noted, and knows
afterwards what that publication implied and nobody else can end. -/
theorem safe_takeRecord {α : Type} {decode : List Nat → Except Unit (Option α)} {post : Option α → World A R I → Prop}
    {G : α → (R → List (List Nat)) → Prop} (idle : (L.protocol allowed).idle i w) (stable : ∀ a, Stable L allowed i (G a))
    (fact :
      ∀ u values a, (L.protocol allowed).Rely i w u → L.Closed u r → (u.published r).getLast? = some values →
        decode values = .ok (some a) → G a u.published)
    (nothing :
      ∀ u, (L.protocol allowed).Rely i w u → (L.protocol allowed).idle i u → u.observed i = w.observed i →
        (L.owns i r →
          u.published r = [] ∨
            ∃ values, L.Closed u r ∧ (u.published r).getLast? = some values ∧ decode values = .ok none) →
        post none u)
    (current :
      ∀ u a revision values, (L.protocol allowed).idle i u → G a u.published → decode values = .ok (some a) →
        u.observed i = Function.update (w.observed i) r (w.observed i r ++ [(revision, values)]) → post (some a) u) :
    (L.protocol allowed).Safe i post (L.takeRecord r decode) w := by
  apply Protocol.safe_bind
  apply safe_readRecord
  · intro u rely kept empty
    exact nothing u rely (rely.idle idle) (rely_observed rely) fun owns => .inl (empty owns (idle r owns))
  · intro u revision values rely kept closed same last seen later
    dsimp only
    split
    · exact rely.idle idle
    · next none =>
      exact nothing u rely (rely.idle idle) (rely_observed rely) fun owns => .inr ⟨values, closed, last, none⟩
    · next value decoded =>
      have known := fact u values value rely closed last decoded
      intro v more keptV
      have knownV : G value v.published := (stable value).rely more known
      have grows := rely_record more r
      have published : u.published r <+: v.published r := by
        refine Protocol.Rely.stable (F := fun v => u.published r <+: v.published r) List.prefix_rfl more ?_
        intro j _ x y _ before effect
        exact before.trans (effect.grows r).1
      refine ⟨.observe r revision values (seen.mono published) (by omega) ?_, ?_⟩
      · rw [rely_observed more]
        exact later
      · refine current _ value revision values ?_ knownV decoded ?_
        · intro r' owns
          have closedV := more.idle (rely.idle idle) r' owns
          exact ⟨closedV.revision, closedV.words⟩
        · simp only [World.observe, Function.update_self]
          rw [rely_observed more, rely_observed rely]

end Publish

end Seqlock

end CrossPool.Lib
