import CrossPool.Control.Evolution
import CrossPool.Control.Membership

/-!
# Generations over whole runs of the daemon

Every section of every handler is one of four things to the retained generation:
it evolves it, leases an arena from it while it is executable, retires it after
all its owners are gone, or installs a new one where none is retained. All
invariants over runs are derived from that.
-/

namespace CrossPool.Control

open CrossPool.Lib

section Turnover

variable {Doc : Type}

/-- Whatever changes the declared membership also counts a new revision, unless
a process redeclares its registration. -/
structure Amends (s t : Plane Doc) : Prop where
  revision : s.membershipRevision ≤ t.membershipRevision
  redeclared : t.redeclared = false → s.redeclared = false
  membership : t.membershipRevision = s.membershipRevision → t.redeclared = false →
    SameMembership s.registrations t.registrations
  wellKept : WellKept s.registrations → WellKept t.registrations

/-- The plan of the retained generation stays, and so does its policy unless it
is closed. -/
structure Upholds (s t : Plane Doc) : Prop extends Amends s t where
  instancePlans : t.instancePlans = s.instancePlans
  policy : (t.policy = s.policy ∧ t.policies = s.policies) ∨
    (t.policy = none ∧ t.policies = s.policy.elim s.policies s.policies.erase)

/-- What most sections may do: evolve the retained generation, amend the
membership and drop leases. -/
structure Quiet (gone : ProcUniqId → Prop) (s t : Plane Doc) : Prop where
  retired : t.retired = s.retired
  fabric : Option.Rel (Evolves gone) s.fabric t.fabric
  leases : ∀ rank lease, t.broker.leases.lookup rank = some lease → s.broker.leases.lookup rank = some lease
  upholds : Upholds s t

/-- Every PE of the plan has an owner. -/
def Covered (g : GenerationState) : Prop :=
  ∀ pe < g.peCount, ∃ owner, g.agentOwners.lookup pe = some owner

/-- What one section may do. -/
inductive Turns [DecidableEq Doc] (config : Config) (gone : ProcUniqId → Prop) (s t : Plane Doc) : Prop where
  | quiet : Quiet gone s t → Turns config gone s t
  | leases (g : GenerationState) : s.fabric = some g → g.phase = .executable → t.fabric = s.fabric →
      t.retired = s.retired → Upholds s t → Turns config gone s t
  | retires (g : GenerationState) : s.fabric = some g → g.phase = .stopped → (∀ owner ∈ g.owners, gone owner) →
      t = { s.closePolicy with fabric := none, instancePlans := [], servingStartup := ⟨none, ∅⟩, retired := g :: s.retired } →
      Turns config gone s t
  | installs (membership : FabricMembership Doc) (generation : GenerationId) (now : Nat) : s.fabric = none →
      s.admissionClosed = false →
      (s.redeclared = false →
        FabricMembership.capture config s.registrations s.membershipRevision = .ok (some membership)) →
      Covered (membership.form generation now) →
      t = { s.install membership generation now with policies := generation :: s.policies } → Turns config gone s t

/-- What holds of the retained generation and of those before it. -/
structure Sane (gone : ProcUniqId → Prop) (s : Plane Doc) : Prop where
  latched : ∀ g, s.fabric = some g → Latched g
  covered : ∀ g, s.fabric = some g → Covered g
  ended : ∀ g, s.fabric = some g → g.phase = .stopped → Ended gone g
  stopped : ∀ g ∈ s.retired, g.phase = .stopped
  departed : ∀ g ∈ s.retired, ∀ owner ∈ g.owners, gone owner
  before : ∀ g ∈ s.retired, Latched g ∧ Covered g ∧ Ended gone g
  wellKept : WellKept s.registrations
  policies : s.policies = s.policy.toList
  owned : ∀ policy, s.policy = some policy → ∃ g, s.fabric = some g ∧ g.plan.generation = policy

variable {config : Config} {gone gone' : ProcUniqId → Prop} {s t u : Plane Doc}

theorem Amends.of_same (same : SameMembership s.registrations t.registrations)
    (revision : t.membershipRevision = s.membershipRevision) (redeclared : t.redeclared = s.redeclared) : Amends s t where
  revision := revision.ge
  redeclared := fun kept => redeclared.symm.trans kept
  membership := fun _ _ => same
  wellKept := fun kept => kept.same same

theorem Amends.trans (first : Amends s t) (second : Amends t u) : Amends s u where
  revision := first.revision.trans second.revision
  redeclared := fun kept => first.redeclared (second.redeclared kept)
  membership := by
    intro revision kept
    have early := first.revision
    have late := second.revision
    exact (first.membership (by omega) (second.redeclared kept)).trans (second.membership (by omega) kept)
  wellKept := fun kept => second.wellKept (first.wellKept kept)

/-- Records that are no part of a membership or a plan are written freely. -/
theorem Upholds.of_same (same : SameMembership s.registrations t.registrations)
    (revision : t.membershipRevision = s.membershipRevision) (redeclared : t.redeclared = s.redeclared)
    (instancePlans : t.instancePlans = s.instancePlans) (policy : t.policy = s.policy) (policies : t.policies = s.policies) :
    Upholds s t :=
  ⟨.of_same same revision redeclared, instancePlans, Or.inl ⟨policy, policies⟩⟩

theorem Upholds.refl (s : Plane Doc) : Upholds s s :=
  .of_same (.refl _) rfl rfl rfl rfl rfl

theorem Upholds.trans (first : Upholds s t) (second : Upholds t u) : Upholds s u where
  toAmends := first.toAmends.trans second.toAmends
  instancePlans := second.instancePlans.trans first.instancePlans
  policy := by
    rcases first.policy with ⟨policy, policies⟩ | ⟨policy, policies⟩
    · rcases second.policy with ⟨policy', policies'⟩ | ⟨policy', policies'⟩
      · exact Or.inl ⟨policy'.trans policy, policies'.trans policies⟩
      · exact Or.inr ⟨policy', by rw [policies', policy, policies]⟩
    · rcases second.policy with ⟨policy', policies'⟩ | ⟨policy', policies'⟩
      · exact Or.inr ⟨policy'.trans policy, policies'.trans policies⟩
      · exact Or.inr ⟨policy', by rw [policies', policy, Option.elim_none, policies]⟩

/-- A closed policy leaves none open. -/
theorem Upholds.policies (upholds : Upholds s t) (only : s.policies = s.policy.toList) : t.policies = t.policy.toList := by
  rcases upholds.policy with ⟨policy, policies⟩ | ⟨policy, policies⟩
  · rw [policies, policy]
    exact only
  · rw [policies, policy, only]
    cases s.policy with
    | none => rfl
    | some policy => simp

theorem Quiet.refl (s : Plane Doc) : Quiet gone s s := by
  refine ⟨rfl, ?_, fun _ _ found => found, .refl s⟩
  cases s.fabric with
  | none => exact .none
  | some g => exact .some (.refl g)

theorem Quiet.trans (first : Quiet gone s t) (second : Quiet gone t u) : Quiet gone s u where
  retired := second.retired.trans first.retired
  fabric := by
    have before := first.fabric
    have after := second.fabric
    revert before after
    generalize s.fabric = x
    generalize t.fabric = y
    generalize u.fabric = z
    rintro (earlier | -) (later | -)
    · exact .some (earlier.trans later)
    · exact .none
  leases := fun rank lease found => first.leases rank lease (second.leases rank lease found)
  upholds := first.upholds.trans second.upholds

/-- Records other than the generation and its leases are written freely. -/
theorem Quiet.of_same (retired : t.retired = s.retired) (fabric : t.fabric = s.fabric) (upholds : Upholds s t)
    (leases : ∀ rank lease, t.broker.leases.lookup rank = some lease → s.broker.leases.lookup rank = some lease) :
    Quiet gone s t := by
  refine ⟨retired, ?_, leases, upholds⟩
  rw [fabric]
  exact (Quiet.refl s).fabric

theorem Sane.mono (sane : Sane gone s) (more : ∀ owner, gone owner → gone' owner) : Sane gone' s where
  latched := sane.latched
  covered := sane.covered
  ended := fun g found stopped => (sane.ended g found stopped).mono more
  stopped := sane.stopped
  departed := fun g listed owner member => more owner (sane.departed g listed owner member)
  before := fun g listed => ⟨(sane.before g listed).1, (sane.before g listed).2.1, (sane.before g listed).2.2.mono more⟩
  wellKept := sane.wellKept
  policies := sane.policies
  owned := sane.owned

theorem Evolves.covered {g g' : GenerationState} (evolves : Evolves gone g g') (covered : Covered g) : Covered g' := by
  unfold Covered GenerationState.peCount at *
  rw [evolves.plan, evolves.agentOwners]
  exact covered

theorem Evolves.ended {g g' : GenerationState} (evolves : Evolves gone g g') (ended : g.phase = .stopped → Ended gone g)
    (stopped : g'.phase = .stopped) : Ended gone g' := by
  by_cases before : g.phase = .stopped
  · exact (ended before).of_same evolves.plan evolves.instanceOwners evolves.agentOwners (evolves.stopped before).2
  · exact (evolves.stops before stopped).ended

/-- Sections keep the invariant. -/
theorem Turns.sane [DecidableEq Doc] (turns : Turns config gone s t) (sane : Sane gone s) : Sane gone t := by
  have carried (retired : t.retired = s.retired) : (∀ g ∈ t.retired, g.phase = .stopped) ∧
      (∀ g ∈ t.retired, ∀ owner ∈ g.owners, gone owner) ∧ ∀ g ∈ t.retired, Latched g ∧ Covered g ∧ Ended gone g := by
    rw [retired]
    exact ⟨sane.stopped, sane.departed, sane.before⟩
  cases turns with
  | quiet quiet =>
    obtain ⟨stopped, departed, before⟩ := carried quiet.retired
    have evolved (g' : GenerationState) (found : t.fabric = some g') : ∃ g, s.fabric = some g ∧ Evolves gone g g' := by
      have related := quiet.fabric
      rw [found] at related
      cases earlier : s.fabric with
      | none => rw [earlier] at related; cases related
      | some g =>
        rw [earlier] at related
        cases related with
        | some evolves => exact ⟨g, rfl, evolves⟩
    refine ⟨?_, ?_, ?_, stopped, departed, before, quiet.upholds.wellKept sane.wellKept,
      quiet.upholds.policies sane.policies, ?_⟩
    · intro g' found
      obtain ⟨g, earlier, evolves⟩ := evolved g' found
      exact evolves.latched (sane.latched g earlier)
    · intro g' found
      obtain ⟨g, earlier, evolves⟩ := evolved g' found
      exact evolves.covered (sane.covered g earlier)
    · intro g' found
      obtain ⟨g, earlier, evolves⟩ := evolved g' found
      exact evolves.ended (sane.ended g earlier)
    · intro policy found
      rcases quiet.upholds.policy with ⟨kept, -⟩ | ⟨closed, -⟩
      · obtain ⟨g, earlier, generation⟩ := sane.owned policy (kept.symm.trans found)
        have related := quiet.fabric
        rw [earlier] at related
        cases after : t.fabric with
        | none => rw [after] at related; cases related
        | some g' =>
          rw [after] at related
          cases related with
          | some evolves => exact ⟨g', rfl, by rw [evolves.plan]; exact generation⟩
      · rw [closed] at found
        cases found
  | leases g found executable fabric retired upholds =>
    obtain ⟨stopped, departed, before⟩ := carried retired
    refine ⟨?_, ?_, ?_, stopped, departed, before, upholds.wellKept sane.wellKept, upholds.policies sane.policies, ?_⟩
    all_goals rw [fabric]
    · exact sane.latched
    · exact sane.covered
    · exact sane.ended
    · intro policy found
      rcases upholds.policy with ⟨kept, -⟩ | ⟨closed, -⟩
      · exact sane.owned policy (kept.symm.trans found)
      · rw [closed] at found
        cases found
  | retires g found stopped departed dropped =>
    subst dropped
    refine ⟨?_, ?_, ?_, ?_, ?_, ?_, sane.wellKept, ?_, ?_⟩
    all_goals simp only [Plane.closePolicy, reduceCtorEq, false_implies, implies_true, List.forall_mem_cons]
    · exact ⟨stopped, sane.stopped⟩
    · exact ⟨departed, sane.departed⟩
    · exact ⟨⟨sane.latched g found, sane.covered g found, sane.ended g found stopped⟩, sane.before⟩
    · rw [sane.policies]
      cases s.policy with
      | none => rfl
      | some policy => simp
  | installs membership generation now empty admission captured covered formed =>
    subst formed
    have unpoliced : s.policy = none := by
      by_contra retained
      obtain ⟨policy, held⟩ := Option.ne_none_iff_exists'.mp retained
      obtain ⟨g, found, -⟩ := sane.owned policy held
      rw [empty] at found
      cases found
    refine ⟨?_, ?_, ?_, sane.stopped, sane.departed, sane.before, sane.wellKept, ?_, ?_⟩
    · intro g found
      obtain rfl := Option.some.inj found
      rintro (failed | failed | failed) <;> exact absurd rfl failed
    · intro g found
      obtain rfl := Option.some.inj found
      exact covered
    · intro g found stopped
      obtain rfl := Option.some.inj found
      cases stopped
    · simp [Plane.install, sane.policies, unpoliced]
    · intro policy held
      obtain rfl := Option.some.inj held
      exact ⟨_, rfl, rfl⟩

/-- Every section amends the membership. -/
theorem Turns.amends [DecidableEq Doc] (turns : Turns config gone s t) : Amends s t := by
  cases turns with
  | quiet quiet => exact quiet.upholds.toAmends
  | leases _ _ _ _ _ upholds => exact upholds.toAmends
  | retires _ _ _ _ dropped =>
    subst dropped
    exact .of_same (.refl _) rfl rfl
  | installs _ _ _ _ _ _ _ formed =>
    subst formed
    exact .of_same (.refl _) rfl rfl

/-! ## The discipline of the daemon's sections -/

/-- The outside world as far as the daemon depends on it: how it moves, what it
answers, and which processes are then gone for good. -/
structure Outside (η : Type) where
  gone : η → ProcUniqId → Prop
  passes : η → η → Prop
  admits : η → Host → Prop
  stays : ∀ w v owner, passes w v → gone w owner → gone v owner
  seen : ∀ w host owner, admits w host → host.alive owner = false → gone w owner

/-- Sections turn generations over and keep them sane. -/
def Outside.discipline [DecidableEq Doc] {η : Type} (outside : Outside η) (config : Config) : Discipline η (Plane Doc) Host where
  inv w s := Sane (outside.gone w) s
  effect w s t := Turns config (outside.gone w) s t
  passes := outside.passes
  admits := outside.admits
  refl _ s := .quiet (.refl s)
  keeps sane turns := turns.sane sane
  ages sane passes := sane.mono fun owner => outside.stays _ _ owner passes

/-! ## Quiet sections -/

section Sections

variable {α β : Type}

theorem quiet_pure (a : α) : Within (Quiet gone) (pure a : Act Doc α) :=
  within_pure Quiet.refl a

theorem quiet_throw (e : Raised) : Within (Quiet gone) (throw e : Act Doc α) :=
  within_throw Quiet.refl e

theorem quiet_get : Within (Quiet gone) (get : Act Doc (Plane Doc)) :=
  within_get Quiet.refl

theorem quiet_refuse (kind : DaemonErrorKind) (message : String) : Within (Quiet gone) (refuse kind message : Act Doc α) :=
  quiet_throw _

theorem quiet_bind {m : Act Doc β} {f : β → Act Doc α} (first : Within (Quiet gone) m)
    (second : ∀ b, Within (Quiet gone) (f b)) : Within (Quiet gone) (m >>= f) :=
  within_bind (fun s t u (before : Quiet gone s t) (after : Quiet gone t u) => before.trans after) first second

theorem quiet_check (result : Except DaemonError α) : Within (Quiet gone) (check result : Act Doc α) := by
  unfold check
  split
  · exact quiet_pure _
  · exact quiet_throw _

/-- A controller operation that evolves any generation is quiet. -/
theorem quiet_onFabric {operation : GenerationState → Outcome} (evolves : ∀ g, Evolves gone g (operation g).state) :
    Within (Quiet gone) (onFabric operation : Act Doc Unit) := by
  intro s
  simp only [onFabric, wp_bind, wp_get]
  cases found : s.fabric with
  | none => exact .refl s
  | some g =>
    have quiet : Quiet gone s { s with fabric := some (operation g).state } := by
      refine ⟨rfl, ?_, fun _ _ found => found, .of_same (.refl _) rfl rfl rfl rfl rfl⟩
      rw [found]
      exact .some (evolves g)
    simp only [wp_bind, wp_modify]
    split
    · exact quiet
    · exact quiet

theorem quiet_modify {f : Plane Doc → Plane Doc} (upholds : ∀ s, Upholds s (f s))
    (same : ∀ s, (f s).retired = s.retired ∧ (f s).fabric = s.fabric ∧
      ∀ rank lease, (f s).broker.leases.lookup rank = some lease → s.broker.leases.lookup rank = some lease) :
    Within (Quiet gone) (modify f : Act Doc PUnit) :=
  within_modify fun s => .of_same (same s).1 (same s).2.1 (upholds s) (same s).2.2

/-- Writes that leave the generation and the broker alone. -/
theorem quiet_records {f : Plane Doc → Plane Doc} (upholds : ∀ s, Upholds s (f s))
    (same : ∀ s, (f s).retired = s.retired ∧ (f s).fabric = s.fabric ∧ (f s).broker = s.broker) :
    Within (Quiet gone) (modify f : Act Doc PUnit) :=
  quiet_modify upholds fun s => ⟨(same s).1, (same s).2.1, fun _ _ found => (same s).2.2 ▸ found⟩

theorem quiet_refuseReplacement (role : FabricRole) (device : Nat) (proc : ProcUniqId) (now : Nat) (message : String) :
    Within (Quiet gone) (refuseReplacement role device proc now message : Act Doc Unit) := by
  refine quiet_bind quiet_get fun s => ?_
  split
  · exact quiet_pure _
  split
  · exact quiet_throw _
  split
  · exact quiet_bind (quiet_onFabric fun g => (recordOwnerFailure_noted _).abort) fun _ => quiet_refuse _ _
  · exact quiet_pure _

theorem quiet_requireStartup (role : FabricRole) (device : Nat) (proc : ProcUniqId) (message : String) :
    Within (Quiet gone) (requireStartup role device proc message : Act Doc Unit) := by
  refine quiet_bind quiet_get fun s => ?_
  split
  · split
    · exact quiet_refuse _ _
    · exact quiet_refuse _ _
  · exact quiet_pure _

end Sections

/-! ## Every handler is tame -/

section Handlers

variable [DecidableEq Doc] {η α : Type} {outside : Outside η} {config : Config}

theorem tame_quiet {body : Host → Act Doc α} (quiet : ∀ gone host, Within (Quiet gone) (body host)) :
    (outside.discipline config).Tame (.locked body) :=
  Discipline.tame_locked fun v t host _ _ => wp_mono (quiet (outside.gone v) host t) (fun _ _ => .quiet) fun _ => .quiet

theorem tame_checked (result : Except DaemonError α) : (outside.discipline config).Tame (checked result : Task Doc α) := by
  unfold checked
  split
  · exact Discipline.tame_pure
  · exact Discipline.tame_raise

/-- A new registration stands for the key it was made for. -/
theorem safe_newRegistration {κ C : Type} (key : κ) (pid abiVersion : Nat) (contract : C) (w : η) (s : Plane Doc) :
    (outside.discipline config).Safe (fun registration _ _ => registration.key = key)
      (newRegistration key pid abiVersion contract : Task Doc (Registration κ C)) w s := by
  refine Discipline.safe_locked fun v t host _ _ _ => ?_
  split
  · exact .quiet (.refl t)
  · simp only [wp_bind, wp_get, wp_modify, wp_pure]
    exact ⟨.quiet (.of_same rfl rfl (.of_same (.refl _) rfl rfl rfl rfl rfl) fun _ _ found => found), trivial⟩

theorem tame_existingAlive {κ C : Type} (existing : Option (Registration κ C)) :
    (outside.discipline config).Tame (existingAlive existing : Task Doc Bool) := by
  cases existing with
  | none => exact Discipline.tame_pure
  | some registration => exact Discipline.tame_observe

/-- What is gone stays gone. -/
theorem lasting (owner : ProcUniqId) (x y : η × Plane Doc) (move : (outside.discipline config).Moves x y)
    (left : outside.gone x.1 owner) : outside.gone y.1 owner := by
  cases move with
  | effect _ _ => exact left
  | passes _ passes => exact outside.stays _ _ owner passes left

/-- The generation of a stopped snapshot is stopped and owned as it was, or no
longer retained. -/
def Snapped (serial : Nat) (owners : List ProcUniqId) (s : Plane Doc) : Prop :=
  serial < s.retired.length ∨
    ∃ g, s.fabric = some g ∧ s.retired.length = serial ∧ g.phase = .stopped ∧ g.owners = owners

theorem Turns.snapped {serial : Nat} {owners : List ProcUniqId} (turns : Turns config gone s t) (snapped : Snapped serial owners s) :
    Snapped serial owners t := by
  rcases snapped with past | ⟨g, found, length, stopped, owned⟩
  · left
    cases turns with
    | quiet quiet => rw [quiet.retired]; exact past
    | leases g found executable fabric retired => rw [retired]; exact past
    | retires g found stopped departed dropped =>
      subst dropped
      simp only [List.length_cons]
      omega
    | installs membership generation now empty admission captured covered formed =>
      subst formed
      exact past
  · cases turns with
    | quiet quiet =>
      have related := quiet.fabric
      rw [found] at related
      cases after : t.fabric with
      | none => rw [after] at related; cases related
      | some g' =>
        rw [after] at related
        cases related with
        | some evolves =>
          refine Or.inr ⟨g', after, by rw [quiet.retired]; exact length, (evolves.stopped stopped).1, ?_⟩
          unfold GenerationState.owners at *
          rw [evolves.agentOwners, evolves.instanceOwners]
          exact owned
    | leases _ _ _ fabric retired =>
      exact Or.inr ⟨g, fabric.trans found, by rw [retired]; exact length, stopped, owned⟩
    | retires _ _ _ _ dropped =>
      left
      subst dropped
      simp only [List.length_cons]
      omega
    | installs _ _ _ empty =>
      rw [empty] at found
      cases found

theorem stoppedSnapshot_snapped (s : Plane Doc) :
    wp stoppedSnapshot (fun stopped t => Turns config gone s t ∧ ∀ serial owners, stopped = some (serial, owners) → Snapped serial owners t)
      (fun t => Turns config gone s t) s := by
  simp only [stoppedSnapshot, wp_bind, wp_get]
  cases found : s.fabric with
  | none => exact ⟨.quiet (.refl s), by simp⟩
  | some g =>
    simp only
    split
    · rename_i stopped
      refine ⟨.quiet (.refl s), ?_⟩
      rintro serial owners snapped
      simp only [Plane.snapshot, found, Option.map_some, Option.some.injEq, Prod.mk.injEq] at snapped
      obtain ⟨rfl, rfl⟩ := snapped
      exact Or.inr ⟨g, found, rfl, stopped, rfl⟩
    · exact ⟨.quiet (.refl s), by simp⟩

theorem dropGeneration_turns {serial : Nat} {owners : List ProcUniqId} {anyAlive : Bool} (snapped : Snapped serial owners s)
    (departed : anyAlive = false → ∀ owner ∈ owners, gone owner) :
    wp (dropGeneration serial anyAlive) (fun _ t => Turns config gone s t) (fun t => Turns config gone s t) s := by
  simp only [dropGeneration, wp_bind, wp_get]
  cases found : s.fabric with
  | none => exact .quiet (.refl s)
  | some g =>
    simp only
    split
    · rename_i drops
      obtain ⟨retains, none⟩ := drops
      simp only [Plane.retains, decide_eq_true_eq] at retains
      rcases snapped with past | ⟨g', same, -, stopped, owned⟩
      · omega
      · obtain rfl := Option.some.inj (found.symm.trans same)
        refine .retires g found stopped ?_ rfl
        rw [owned]
        exact departed none
    · exact .quiet (.refl s)

/-- A generation is retired only after each of its owners was seen dead. -/
theorem tame_retireTerminalGeneration : (outside.discipline config).Tame (retireTerminalGeneration : Task Doc Unit) := by
  intro w s
  have first : (outside.discipline config).Safe (fun stopped _ s => ∀ serial owners, stopped = some (serial, owners) → Snapped serial owners s)
      (.locked fun _ => stoppedSnapshot : Task Doc _) w s :=
    Discipline.safe_locked fun v t host _ _ _ => stoppedSnapshot_snapped t
  refine Discipline.safe_bind (Discipline.safe_mono first ?_)
  intro stopped v t snapped
  match stopped with
  | none => exact trivial
  | some (serial, owners) =>
    have probes : (outside.discipline config).Safe (fun any v _ => any = false → ∀ owner ∈ owners, outside.gone v owner)
        (.observeAny (fun host owner => host.alive owner) owners : Task Doc Bool) v t :=
      Discipline.safe_observeAny outside.seen outside.stays owners
    have stable (x y : η × Plane Doc) (move : (outside.discipline config).Moves x y) :
        Snapped serial owners x.2 → Snapped serial owners y.2 := by
      cases move with
      | effect _ turns => exact Turns.snapped turns
      | passes _ _ => exact fun snapped => snapped
    refine Discipline.safe_bind (Discipline.safe_mono
      (Discipline.safe_frame stable probes (snapped serial owners rfl)) ?_)
    rintro anyAlive v t ⟨departed, snapped⟩
    refine Discipline.safe_locked fun v' t' host rely _ _ => ?_
    have later : Snapped serial owners t' := rely.stable stable snapped
    have gone' : anyAlive = false → ∀ owner ∈ owners, outside.gone v' owner := by
      intro none owner listed
      exact rely.stable (lasting owner) (departed none owner listed)
    exact wp_mono (dropGeneration_turns later gone') (fun _ _ turns => ⟨turns, trivial⟩) fun _ turns => turns

/-! ### Plan formation -/

theorem length_of_mapM_eq_some {κ : Type} {f : κ → Option α} {items : List κ} {found : List α}
    (returned : items.mapM f = some found) : found.length = items.length := by
  induction items generalizing found with
  | nil =>
    simp only [List.mapM_nil, Option.pure_def, Option.some.injEq] at returned
    simp [← returned]
  | cons item rest ih =>
    simp only [List.mapM_cons, Option.bind_eq_bind, Option.pure_def, Option.bind_eq_some_iff, Option.some.injEq] at returned
    obtain ⟨first, -, others, mapped, rfl⟩ := returned
    simp [ih mapped]

/-- A captured membership names one owner for each PE, in PE order. -/
theorem capture_agentOwners {book : RegistrationBook Doc} {revision : Nat} {membership : FabricMembership Doc}
    (captured : FabricMembership.capture config book revision = .ok (some membership)) :
    membership.agentOwners.map (·.1) = List.range membership.pePlacements.length := by
  unfold FabricMembership.capture at captured
  split at captured
  · rename_i atnagents atnFound
    split at captured
    · rename_i ffnagents ffnFound
      split at captured
      · obtain ⟨instances, -, captured⟩ := bind_eq_ok.mp captured
        split at captured
        · simp only at captured
          split at captured
          · cases captured
          · obtain rfl := Option.some.inj (Except.ok.inj captured)
            have atnCount := length_of_mapM_eq_some atnFound
            have ffnCount := length_of_mapM_eq_some ffnFound
            have placed : config.pePlacements.length = atnagents.length + ffnagents.length := by
              simp [Config.pePlacements, atnCount, ffnCount]
            rw [placed]
            apply List.map_fst_zip
            simp
        · cases captured
      · cases captured
    · cases captured
  · cases captured

omit [DecidableEq Doc] in
/-- Owners listed in PE order cover the plan they are installed with. -/
theorem install_covered {membership : FabricMembership Doc}
    (owned : membership.agentOwners.map (·.1) = List.range membership.pePlacements.length) (generation : GenerationId)
    (now : Nat) :
    Covered (membership.form generation now) := by
  intro pe known
  rw [← Option.isSome_iff_exists]
  simp only [FabricMembership.form, GenerationState.installed, AList.lookup_to_alist, List.dlookup_isSome, List.keys, List.map_map]
  have member : pe ∈ membership.agentOwners.map (·.1) := by
    rw [owned, List.mem_range]
    exact known
  exact member

/-- As long as no revision is counted, a captured membership is that of the
registrations. -/
structure Current (config : Config) (membership : FabricMembership Doc) (s : Plane Doc) : Prop where
  revision : membership.revision ≤ s.membershipRevision
  captured : s.membershipRevision = membership.revision → s.redeclared = false →
    FabricMembership.capture config s.registrations s.membershipRevision = .ok (some membership)

theorem Amends.current {membership : FabricMembership Doc} (amends : Amends s t) (current : Current config membership s) :
    Current config membership t where
  revision := current.revision.trans amends.revision
  captured := by
    intro revision kept
    have early := current.revision
    have late := amends.revision
    have same : t.membershipRevision = s.membershipRevision := by omega
    rw [same, ← FabricMembership.capture_congr config (amends.membership same kept)]
    exact current.captured (by omega) (amends.redeclared kept)

theorem capture_revision {book : RegistrationBook Doc} {revision : Nat} {membership : FabricMembership Doc}
    (captured : FabricMembership.capture config book revision = .ok (some membership)) : membership.revision = revision := by
  unfold FabricMembership.capture at captured
  split at captured
  · split at captured
    · split at captured
      · obtain ⟨instances, -, captured⟩ := bind_eq_ok.mp captured
        split at captured
        · simp only at captured
          split at captured
          · cases captured
          · obtain rfl := Option.some.inj (Except.ok.inj captured)
            rfl
        · cases captured
      · cases captured
    · cases captured
  · cases captured

theorem captureMembership_current (s : Plane Doc) :
    wp (captureMembership config) (fun found t => Turns config gone s t ∧ ∀ membership, found = some membership →
        membership.agentOwners.map (·.1) = List.range membership.pePlacements.length ∧ Current config membership t)
      (fun t => Turns config gone s t) s := by
  simp only [captureMembership, wp_bind, wp_get]
  split
  · exact ⟨.quiet (.refl s), by simp⟩
  split
  · exact ⟨.quiet (.refl s), by simp⟩
  · unfold check
    split
    · rename_i found captured
      refine ⟨.quiet (.refl s), ?_⟩
      rintro membership rfl
      exact ⟨capture_agentOwners captured, (capture_revision captured).le, fun _ _ => captured⟩
    · exact .quiet (.refl s)

/-- A commit installs what is still current, or closes the policy it created. -/
theorem commitMembership_turns {membership : FabricMembership Doc}
    (owned : membership.agentOwners.map (·.1) = List.range membership.pePlacements.length)
    (current : Current config membership s) (generation : GenerationId) (now : Nat) :
    wp (commitMembership membership generation now) (fun _ t => Turns config gone s t) (fun t => Turns config gone s t) s := by
  have closes : Turns config gone s { s with policies := (generation :: s.policies).erase generation } := by
    rw [List.erase_cons_head]
    exact .quiet (.refl s)
  simp only [commitMembership, wp_bind, wp_get, wp_modify]
  split
  · exact closes
  rename_i empty
  split
  · exact closes
  · rename_i fresh
    rw [not_or, not_not] at fresh
    have none : s.fabric = none := by simpa using empty
    have admission : s.admissionClosed = false := by simpa using fresh.1
    exact .installs membership generation now none admission (current.captured fresh.2) (install_covered owned generation now) rfl

/-- A plan is installed only where no generation is retained, and only from the
membership of that instant. -/
theorem tame_ensureFabricPlan : (outside.discipline config).Tame (ensureFabricPlan config : Task Doc Unit) := by
  intro w s
  refine Discipline.safe_bind (Discipline.safe_mono
    (Discipline.safe_locked fun v t host _ _ _ => captureMembership_current t) ?_)
  intro found v t fresh
  match found with
  | none => exact trivial
  | some membership =>
    obtain ⟨owned, current⟩ := fresh membership rfl
    have stable (x y : η × Plane Doc) (move : (outside.discipline config).Moves x y) :
        Current config membership x.2 → Current config membership y.2 := by
      cases move with
      | effect _ turns => exact (Turns.amends turns).current
      | passes _ _ => exact fun current => current
    have commits (generation : GenerationId) (v : η) (t : Plane Doc) (current : Current config membership t) :
        (outside.discipline config).Safe (fun _ _ _ => True)
          (.locked fun host => commitMembership membership generation host.now : Task Doc Unit) v t := by
      refine Discipline.safe_locked fun v' t' host rely _ _ => ?_
      have later : Current config membership t' := rely.stable stable current
      exact wp_mono (commitMembership_turns owned later generation host.now) (fun _ _ turns => ⟨turns, trivial⟩)
        fun _ turns => turns
    have probes (v : η) (t : Plane Doc) (current : Current config membership t) :
        (outside.discipline config).Safe (fun _ _ t => True ∧ Current config membership t)
          (.observeAny (fun host owner => !host.alive owner) membership.owners : Task Doc Bool) v t :=
      Discipline.safe_frame stable (Discipline.tame_observeAny _ v t) current
    refine Discipline.safe_bind (Discipline.safe_mono (probes v t current) ?_)
    rintro someDead v t ⟨-, current⟩
    cases someDead with
    | true => exact trivial
    | false =>
      refine Discipline.safe_bind (Discipline.safe_mono (probes v t current) ?_)
      rintro someDead v t ⟨-, current⟩
      cases someDead with
      | true => exact trivial
      | false =>
        refine Discipline.safe_bind (Discipline.safe_observe fun v' t' host rely _ _ => ?_)
        exact commits host.generation v' t' (rely.stable stable current)

/-! ### The watchdog -/

theorem mem_of_lookup {κ : Type} [DecidableEq κ] {pairs : List (κ × α)} {key : κ} {value : α}
    (found : pairs.lookup key = some value) : (key, value) ∈ pairs := by
  induction pairs with
  | nil => cases found
  | cons pair rest ih =>
    obtain ⟨k, v⟩ := pair
    rw [List.lookup_cons] at found
    split at found
    · rename_i same
      obtain rfl : key = k := by simpa using same
      obtain rfl := Option.some.inj found
      exact List.mem_cons_self
    · exact List.mem_cons_of_mem _ (ih found)

/-- An owner counts as dead only when it was seen dead. -/
theorem gone_of_observedAlive {liveness : List (ProcUniqId × Bool)}
    (seen : ∀ pair ∈ liveness, pair.2 = false → gone pair.1) (owner : ProcUniqId) (dead : observedAlive liveness owner = false) :
    gone owner := by
  unfold observedAlive at dead
  cases found : liveness.lookup owner with
  | none => simp [found] at dead
  | some alive =>
    rw [found] at dead
    exact seen (owner, alive) (mem_of_lookup found) dead

/-- A probe that found a process dead. -/
def Outside.Found (outside : Outside η) (w : η) (proc : ProcUniqId) (alive : Bool) : Prop :=
  alive = false → outside.gone w proc

theorem tame_watchdog : (outside.discipline config).Tame (watchdog config : Task Doc Unit) := by
  have probes (procs : List ProcUniqId) (w : η) (s : Plane Doc) :
      (outside.discipline config).Safe (fun found v _ => ∀ pair ∈ found, outside.Found v pair.1 pair.2)
        (.observeAll (fun host proc => host.alive proc) procs : Task Doc _) w s := by
    refine Discipline.safe_observeAll ?_ ?_ procs
    · exact fun v host proc admitted => outside.seen v host proc admitted
    · exact fun w v proc alive passes fact dead => outside.stays w v proc passes (fact dead)
  have lasts (found : List (ProcUniqId × Bool)) (x y : η × Plane Doc) (move : (outside.discipline config).Moves x y)
      (fact : ∀ pair ∈ found, outside.Found x.1 pair.1 pair.2) :
      ∀ pair ∈ found, outside.Found y.1 pair.1 pair.2 :=
    fun pair listed dead => lasting pair.1 x y move (fact pair listed dead)
  refine Discipline.tame_bind Discipline.tame_observe fun now => ?_
  refine Discipline.tame_bind (tame_quiet fun gone host => quiet_bind quiet_get fun s => quiet_pure _) fun captured => ?_
  intro w s
  refine Discipline.safe_bind (Discipline.safe_mono (probes _ w s) fun liveness v t first => ?_)
  refine Discipline.safe_bind (Discipline.safe_mono (Discipline.safe_frame (lasts liveness) (probes _ v t) first) ?_)
  rintro rest v t ⟨second, first⟩
  have both : ∀ pair ∈ liveness ++ rest, outside.Found v pair.1 pair.2 := by
    intro pair listed
    rcases List.mem_append.mp listed with early | late
    · exact first pair early
    · exact second pair late
  have noted : (outside.discipline config).Safe (fun _ _ _ => True) (.locked fun _ => noteLiveness captured.1 liveness : Task Doc Unit) v t := by
    refine tame_quiet (fun gone host => ?_) v t
    unfold noteLiveness
    refine quiet_records (fun s => .of_same ⟨?_, ?_, ?_, rfl⟩ rfl rfl rfl rfl rfl) fun s => ⟨rfl, rfl, rfl⟩
    all_goals exact RegistrationTable.observe_agrees _ _
  refine Discipline.safe_bind (Discipline.safe_mono (Discipline.safe_frame (lasts (liveness ++ rest)) noted both) ?_)
  rintro - v t ⟨-, both⟩
  have reconciles : (outside.discipline config).Safe (fun _ _ _ => True)
      (.locked fun _ => reconcileSnapshot config captured.2 (liveness ++ rest) now : Task Doc Bool) v t := by
    refine Discipline.safe_locked fun v' t' host rely _ _ => ?_
    have seen := gone_of_observedAlive (rely.stable (lasts (liveness ++ rest)) both)
    have quiet : Within (Quiet (outside.gone v')) (reconcileSnapshot config captured.2 (liveness ++ rest) now : Act Doc Bool) := by
      refine quiet_bind quiet_get fun s => ?_
      split
      · exact quiet_pure _
      split
      · exact quiet_bind (quiet_onFabric fun g => reconcile_evolves seen) fun _ => quiet_pure _
      · exact quiet_pure _
    exact wp_mono (quiet t') (fun _ _ after => ⟨.quiet after, trivial⟩) fun _ after => .quiet after
  refine Discipline.safe_bind (Discipline.safe_mono reconciles ?_)
  rintro current v t -
  cases current with
  | true => exact tame_retireTerminalGeneration v t
  | false => exact trivial

/-! ### Arenas -/

omit [DecidableEq Doc] in
theorem wp_check {result : Except DaemonError α} {post : α → Plane Doc → Prop} {raised : Plane Doc → Prop}
    (passes : ∀ a, result = .ok a → post a s) (fails : raised s) : wp (check result : Act Doc α) post raised s := by
  unfold check
  split
  · exact passes _ rfl
  · exact fails

/-- An arena is leased only from an executable generation. -/
theorem executable_of_requireExecutable {fabric : Option GenerationState} {rank : InstanceRankId} {proc : ProcUniqId}
    (passed : requireExecutable fabric rank proc = .ok ()) : ∃ g, fabric = some g ∧ g.phase = .executable := by
  unfold requireExecutable at passed
  split at passed
  · cases passed
  · rename_i g
    split at passed
    all_goals first | cases passed | skip
    rename_i executable
    exact ⟨g, rfl, executable⟩

theorem leaseArena_turns {C : Type} (device : Nat) (rank : InstanceRankId)
    (registration : Registration InstanceRankId (InstanceContract Doc)) (atnagent : Registration Nat C) (now : Nat)
    (s : Plane Doc) :
    wp (leaseArena device rank registration atnagent now) (fun _ t => Turns config gone s t) (fun t => Turns config gone s t) s := by
  have still : Turns config gone s s := .quiet (.refl s)
  simp only [leaseArena, wp_bind, wp_get]
  split
  · rename_i current agent _ _
    split
    · exact still
    split
    · exact still
    simp only [wp_bind]
    refine wp_check (fun _ _ => wp_check (fun _ _ => wp_check (fun _ executable => wp_check (fun publication _ => ?_)
      still) still) still) still
    split
    · exact still
    · rw [wp_bind]
      refine wp_check (fun broker _ => ?_) still
      obtain ⟨g, found, serving⟩ := executable_of_requireExecutable executable
      exact .leases g found serving rfl rfl (.of_same (.refl _) rfl rfl rfl rfl rfl)
  · exact still
  · exact still

theorem tame_acquireInstanceTransportArena (rank : InstanceRankId) (owner : ProcessRef) :
    (outside.discipline config).Tame (acquireInstanceTransportArena config rank owner : Task Doc Unit) := by
  refine Discipline.tame_bind (tame_checked _) fun _ => ?_
  refine Discipline.tame_bind Discipline.tame_observe fun now => ?_
  refine Discipline.tame_bind (tame_quiet fun gone host => quiet_bind quiet_get fun s => quiet_pure _) fun registration => ?_
  cases registration with
  | none => exact Discipline.tame_raise
  | some registration =>
    refine Discipline.tame_bind Discipline.tame_observe fun valid => ?_
    refine Discipline.tame_bind (tame_checked _) fun _ => ?_
    refine Discipline.tame_bind (tame_quiet fun gone host => quiet_bind quiet_get fun s => quiet_pure _) fun atnagent => ?_
    cases atnagent with
    | none => exact Discipline.tame_raise
    | some atnagent => exact Discipline.tame_locked fun v t host _ _ => leaseArena_turns _ _ _ _ _ t

/-- A lookup under the lock. -/
theorem tame_query {look : Plane Doc → α} : (outside.discipline config).Tame (.locked fun _ => do pure (look (← get)) : Task Doc α) :=
  tame_quiet fun _ _ => quiet_bind quiet_get fun _ => quiet_pure _

/-- Publishing leaves the leases alone. -/
theorem publish_leases {broker after : TransportBroker} {device : Nat} {owner : ProcUniqId}
    {publications : List TransportArenaPublication} (returned : broker.publish device owner publications = .ok after) :
    after.leases = broker.leases := by
  unfold TransportBroker.publish at returned
  split at returned
  · cases returned
  · obtain ⟨state, -, returned⟩ := bind_eq_ok.mp returned
    dsimp only at returned
    split at returned
    · obtain ⟨_, thrown, _⟩ := bind_eq_ok.mp returned
      cases thrown
    · split at returned
      · cases returned
      · cases returned
        rfl

/-- Closing admission leaves the leases alone. -/
theorem quiesce_leases {broker after : TransportBroker} {device : Nat} {owner : ProcUniqId}
    (returned : broker.quiesce device owner = .ok after) : after.leases = broker.leases := by
  obtain ⟨state, -, returned⟩ := bind_eq_ok.mp returned
  cases returned
  rfl

theorem tame_upsertAtnagentTransportArenas (device : Nat) (bindings : List ArenaBinding) (publisher : ProcessRef) :
    (outside.discipline config).Tame (upsertAtnagentTransportArenas config device bindings publisher : Task Doc Unit) := by
  refine Discipline.tame_bind Discipline.tame_observe fun now => ?_
  split
  · exact Discipline.tame_raise
  refine Discipline.tame_bind tame_query fun registration => ?_
  cases registration with
  | none => exact Discipline.tame_raise
  | some registration =>
    refine Discipline.tame_bind Discipline.tame_observe fun valid => ?_
    refine Discipline.tame_bind (tame_checked _) fun _ => Discipline.tame_bind (tame_checked _) fun _ => ?_
    refine tame_quiet fun gone host s => ?_
    have still : Quiet gone s s := .refl s
    simp only [wp_bind, wp_get]
    split
    · exact still
    · rw [wp_bind]
      refine wp_check (fun publications _ => ?_) still
      rw [wp_bind]
      refine wp_check (fun broker published => ?_) still
      refine .of_same rfl rfl (.of_same (.refl _) rfl rfl rfl rfl rfl) ?_
      exact fun rank lease found => publish_leases published ▸ found

theorem tame_quiesceAtnagentTransportLeases (device : Nat) (publisher : ProcessRef) :
    (outside.discipline config).Tame (quiesceAtnagentTransportLeases config device publisher : Task Doc Unit) := by
  refine Discipline.tame_bind Discipline.tame_observe fun now => ?_
  split
  · exact Discipline.tame_raise
  refine Discipline.tame_bind tame_query fun registration => ?_
  cases registration with
  | none => exact Discipline.tame_raise
  | some registration =>
    refine Discipline.tame_bind Discipline.tame_observe fun valid => ?_
    refine Discipline.tame_bind (tame_checked _) fun _ => ?_
    split
    · exact Discipline.tame_raise
    refine tame_quiet fun gone host s => ?_
    have still : Quiet gone s s := .refl s
    simp only [wp_bind, wp_get]
    split
    · exact still
    · rw [wp_bind]
      refine wp_check (fun broker quiesced => ?_) still
      refine .of_same rfl rfl (.of_same (.refl _) rfl rfl rfl rfl rfl) ?_
      exact fun rank lease found => quiesce_leases quiesced ▸ found

/-! ### Registrations and reports -/

/-- An installed AtnAgent leaves the leases alone. -/
theorem installAtnagent_leases (broker : TransportBroker) (device : Nat) (owner : ProcUniqId) :
    (broker.installAtnagent device owner).leases = broker.leases := by
  unfold TransportBroker.installAtnagent
  split
  · split
    · rfl
    · rfl
  · rfl

/-- Removing an Instance rank only drops its lease. -/
theorem removeInstance_leases (broker : TransportBroker) (removed rank : InstanceRankId) (lease : TransportArenaLease)
    (found : (broker.removeInstance removed).leases.lookup rank = some lease) : broker.leases.lookup rank = some lease := by
  unfold TransportBroker.removeInstance at found
  by_cases same : rank = removed
  · subst same
    simp at found
  · rwa [AList.lookup_erase_ne same] at found

theorem tame_admitAgentStartup (role : FabricRole) (device pid createTime abiVersion : Nat) :
    (outside.discipline config).Tame (admitAgentStartup config role device pid createTime abiVersion : Task Doc Unit) := by
  refine Discipline.tame_bind (tame_quiet fun gone host => quiet_bind quiet_get fun s => ?_) fun serial => ?_
  · split
    · exact quiet_refuse _ _
    split
    · exact quiet_refuse _ _
    split
    · exact quiet_refuse _ _
    split
    · exact quiet_pure _
    split
    · exact quiet_pure _
    · exact quiet_refuse _ _
  refine Discipline.tame_bind Discipline.tame_observe fun identity => ?_
  cases identity with
  | none => exact Discipline.tame_raise
  | some actual =>
    refine Discipline.tame_bind Discipline.tame_observe fun live => ?_
    split
    · exact Discipline.tame_raise
    refine tame_quiet fun gone host => quiet_bind quiet_get fun s => ?_
    have admits {f : Plane Doc → AList fun _ : FabricRole × Nat => ProcUniqId} : Within (Quiet gone)
        (modify fun s => { s with registrations := { s.registrations with agentStartups := f s } } : Act Doc PUnit) :=
      quiet_records (fun s => .of_same ⟨.refl _, .refl _, .refl _, rfl⟩ rfl rfl rfl rfl rfl) fun s => ⟨rfl, rfl, rfl⟩
    split
    · exact quiet_refuse _ _
    split
    · split
      · exact quiet_refuse _ _
      · exact admits
    · exact admits

theorem tame_awaitArenaUsers (device : Nat) (proc : ProcUniqId) (existing : Option (Registration Nat (AtnAgentContract Doc)))
    (alive : Bool) : (outside.discipline config).Tame (awaitArenaUsers device proc existing alive : Task Doc Unit) := by
  unfold awaitArenaUsers
  split
  · exact Discipline.tame_pure
  split
  · refine Discipline.tame_bind tame_query fun owners => ?_
    refine Discipline.tame_bind (Discipline.tame_observeAny _) fun anyAlive => ?_
    split
    · exact Discipline.tame_raise
    · refine tame_quiet fun gone host => quiet_bind quiet_get fun s => ?_
      split
      · exact quiet_pure _
      · exact quiet_refuse _ _
  · exact Discipline.tame_pure

omit [DecidableEq Doc] in
/-- A commit that counts a revision exactly if it changed what is declared. -/
theorem Upholds.of_install (changed : Bool) {redeclares : Bool}
    (revision : t.membershipRevision = s.membershipRevision + changed.toNat)
    (redeclared : t.redeclared = (s.redeclared || redeclares))
    (same : changed = false → redeclares = false → SameMembership s.registrations t.registrations)
    (wellKept : WellKept s.registrations → WellKept t.registrations) (instancePlans : t.instancePlans = s.instancePlans)
    (policy : t.policy = s.policy) (policies : t.policies = s.policies) : Upholds s t := by
  refine ⟨⟨by omega, ?_, ?_, wellKept⟩, instancePlans, Or.inl ⟨policy, policies⟩⟩
  · intro kept
    rw [redeclared, Bool.or_eq_false_iff] at kept
    exact kept.1
  · intro unrevised kept
    rw [redeclared, Bool.or_eq_false_iff] at kept
    apply same
    · cases changed with
      | false => rfl
      | true =>
        rw [Bool.toNat_true] at revision
        omega
    · exact kept.2

theorem commitAtnagent_quiet {device : Nat} {registration : Registration Nat (AtnAgentContract Doc)}
    (existing : Option (Registration Nat (AtnAgentContract Doc))) (alive : Bool) (keyed : registration.key = device)
    (kept : WellKept s.registrations) :
    wp (commitAtnagent device registration existing alive) (fun _ t => Quiet gone s t) (fun t => Quiet gone s t) s := by
  simp only [commitAtnagent, wp_bind, wp_get]
  split
  · exact .refl s
  rw [wp_bind]
  refine wp_check (fun result installed => ?_) (.refl s)
  obtain ⟨changed, table⟩ := result
  obtain ⟨entry, present⟩ := RegistrationTable.installSnapshot_present installed
  rw [keyed] at present
  have wellKept : WellKept { s.registrations with atnagents := table } :=
    ⟨kept.instances, RegistrationTable.installSnapshot_keyed kept.atnagents installed, kept.ffnagents, kept.specified⟩
  have same (unchanged : changed = false) (plain : s.registrations.atnagents.redeclares registration alive = false) :
      SameMembership s.registrations { s.registrations with atnagents := table } := by
    subst unchanged
    exact ⟨.refl _, (RegistrationTable.installSnapshot_unchanged kept.atnagents installed).2 plain, .refl _, rfl⟩
  simp only [wp_bind, wp_modify, present]
  cases changed with
  | true =>
    refine .of_same rfl rfl (.of_install true rfl rfl (by simp) (fun _ => wellKept) rfl rfl rfl) fun _ _ found => ?_
    simpa only [installAtnagent_leases] using found
  | false =>
    refine .of_same rfl rfl (.of_install false rfl rfl same (fun _ => wellKept) rfl rfl rfl) fun _ _ found => ?_
    simpa only [installAtnagent_leases] using found

theorem commitFfnagent_quiet {device : Nat} {registration : Registration Nat (FfnAgentContract Doc)}
    (existing : Option (Registration Nat (FfnAgentContract Doc))) (alive : Bool) (modelSpecs : List Doc)
    (kept : WellKept s.registrations) :
    wp (commitFfnagent device registration existing alive modelSpecs) (fun _ t => Quiet gone s t) (fun t => Quiet gone s t)
      s := by
  simp only [commitFfnagent, wp_bind, wp_get]
  split
  · exact .refl s
  split
  · exact .refl s
  rename_i agreed
  rw [wp_bind]
  refine wp_check (fun result installed => ?_) (.refl s)
  obtain ⟨changed, table⟩ := result
  have wellKept : WellKept { s.registrations with ffnagents := table, ffnModelSpecs := some modelSpecs } :=
    ⟨kept.instances, kept.atnagents, RegistrationTable.installSnapshot_keyed kept.ffnagents installed,
      fun _ _ _ => Option.some_ne_none _⟩
  have same (unchanged : changed = false) (plain : s.registrations.ffnagents.redeclares registration alive = false) :
      SameMembership s.registrations { s.registrations with ffnagents := table, ffnModelSpecs := some modelSpecs } := by
    subst unchanged
    obtain ⟨⟨old, found⟩, agrees⟩ := RegistrationTable.installSnapshot_unchanged kept.ffnagents installed
    have specs : s.registrations.ffnModelSpecs = some modelSpecs := by
      by_contra differs
      exact agreed ⟨kept.specified _ old found, differs⟩
    exact ⟨.refl _, .refl _, agrees plain, specs.symm⟩
  simp only [wp_bind, wp_modify]
  cases changed with
  | true => exact .of_same rfl rfl (.of_install true rfl rfl (by simp) (fun _ => wellKept) rfl rfl rfl) fun _ _ found => found
  | false => exact .of_same rfl rfl (.of_install false rfl rfl same (fun _ => wellKept) rfl rfl rfl) fun _ _ found => found

theorem commitInstance_quiet {rank : InstanceRankId} {contract : InstanceContract Doc}
    {registration : Registration InstanceRankId (InstanceContract Doc)}
    (existing : Option (Registration InstanceRankId (InstanceContract Doc))) (alive : Bool) (kept : WellKept s.registrations) :
    wp (commitInstance rank contract registration existing alive) (fun _ t => Quiet gone s t) (fun t => Quiet gone s t)
      s := by
  simp only [commitInstance, wp_bind, wp_get]
  split
  · exact .refl s
  split
  · exact .refl s
  split
  · exact .refl s
  split
  · exact .refl s
  rw [wp_bind]
  refine wp_check (fun result installed => ?_) (.refl s)
  obtain ⟨changed, table⟩ := result
  have wellKept : WellKept { s.registrations with instances := table } :=
    ⟨RegistrationTable.installSnapshot_keyed kept.instances installed, kept.atnagents, kept.ffnagents, kept.specified⟩
  have same (unchanged : changed = false) (plain : s.registrations.instances.redeclares registration alive = false) :
      SameMembership s.registrations { s.registrations with instances := table } := by
    subst unchanged
    exact ⟨(RegistrationTable.installSnapshot_unchanged kept.instances installed).2 plain, .refl _, .refl _, rfl⟩
  simp only [wp_bind, wp_modify]
  cases changed with
  | true =>
    refine .of_same rfl rfl (.of_install true rfl rfl (by simp) (fun _ => wellKept) rfl rfl rfl) fun _ _ found => ?_
    exact removeInstance_leases _ _ _ _ found
  | false => exact .of_same rfl rfl (.of_install false rfl rfl same (fun _ => wellKept) rfl rfl rfl) fun _ _ found => found

/-- A section that is quiet where the registrations are well kept. -/
theorem tame_kept {body : Host → Act Doc α} (quiet : ∀ gone host s, WellKept s.registrations →
    wp (body host) (fun _ t => Quiet gone s t) (fun t => Quiet gone s t) s) :
    (outside.discipline config).Tame (.locked body) :=
  Discipline.tame_locked fun v t host sane _ =>
    wp_mono (quiet (outside.gone v) host t sane.wellKept) (fun _ _ => .quiet) fun _ => .quiet

theorem tame_registerAtnagent (device pid abiVersion : Nat) (contract : AtnAgentContract Doc) :
    (outside.discipline config).Tame (registerAtnagent config device pid abiVersion contract) := by
  intro w s
  refine Discipline.safe_bind (Discipline.safe_mono (safe_newRegistration _ _ _ _ w s) fun registration v t keyed => ?_)
  revert v t
  refine Discipline.tame_bind tame_retireTerminalGeneration fun _ => ?_
  split
  · exact Discipline.tame_raise
  split
  · exact Discipline.tame_raise
  refine Discipline.tame_bind (tame_quiet fun gone host => ?_) fun existing => ?_
  · refine quiet_bind (quiet_requireStartup _ _ _ _) fun _ => ?_
    exact quiet_bind (quiet_refuseReplacement _ _ _ _ _) fun _ => quiet_bind quiet_get fun s => quiet_pure _
  refine Discipline.tame_bind (tame_existingAlive _) fun alive => ?_
  refine Discipline.tame_bind (tame_awaitArenaUsers _ _ _ _) fun _ => ?_
  refine Discipline.tame_bind (tame_kept fun gone host s kept => ?_) fun _ => tame_ensureFabricPlan
  exact commitAtnagent_quiet _ _ keyed kept

theorem tame_registerFfnagent (device pid abiVersion : Nat) (contract : FfnAgentContract Doc) (modelSpecs : List Doc) :
    (outside.discipline config).Tame (registerFfnagent config device pid abiVersion contract modelSpecs) := by
  intro w s
  refine Discipline.safe_bind (Discipline.safe_mono (safe_newRegistration _ _ _ _ w s) fun registration v t keyed => ?_)
  revert v t
  refine Discipline.tame_bind tame_retireTerminalGeneration fun _ => ?_
  split
  · exact Discipline.tame_raise
  split
  · exact Discipline.tame_raise
  refine Discipline.tame_bind (tame_quiet fun gone host => ?_) fun existing => ?_
  · refine quiet_bind (quiet_requireStartup _ _ _ _) fun _ => ?_
    exact quiet_bind (quiet_refuseReplacement _ _ _ _ _) fun _ => quiet_bind quiet_get fun s => quiet_pure _
  refine Discipline.tame_bind (tame_existingAlive _) fun alive => ?_
  refine Discipline.tame_bind (tame_kept fun gone host s kept => ?_) fun _ => tame_ensureFabricPlan
  exact commitFfnagent_quiet _ _ _ kept

theorem tame_registerInstance (rank : InstanceRankId) (pid abiVersion : Nat) (contract : InstanceContract Doc) :
    (outside.discipline config).Tame (registerInstance config rank pid abiVersion contract) := by
  intro w s
  refine Discipline.safe_bind (Discipline.safe_mono (safe_newRegistration _ _ _ _ w s) fun registration v t keyed => ?_)
  revert v t
  refine Discipline.tame_bind tame_retireTerminalGeneration fun _ => ?_
  split
  · exact Discipline.tame_raise
  refine Discipline.tame_bind (tame_checked _) fun _ => ?_
  dsimp only
  split
  · exact Discipline.tame_raise
  split
  · exact Discipline.tame_raise
  refine Discipline.tame_bind (tame_quiet fun gone host => quiet_bind quiet_get fun s => ?_) fun existing => ?_
  · split
    · exact quiet_refuse _ _
    split
    · exact quiet_pure _
    split
    · exact quiet_bind (quiet_onFabric fun g => (recordOwnerFailure_noted _).quiesce) fun _ => quiet_refuse _ _
    · exact quiet_pure _
  refine Discipline.tame_bind (tame_existingAlive _) fun alive => ?_
  refine Discipline.tame_bind (tame_kept fun gone host s kept => ?_) fun _ => tame_ensureFabricPlan
  exact commitInstance_quiet _ _ kept

theorem tame_deregisterInstance (rank : InstanceRankId) (owner : ProcessRef) :
    (outside.discipline config).Tame (deregisterInstance config rank owner : Task Doc Unit) := by
  refine Discipline.tame_bind (tame_checked _) fun _ => Discipline.tame_bind tame_query fun registration => ?_
  cases registration with
  | none => exact Discipline.tame_raise
  | some registration =>
    refine Discipline.tame_bind Discipline.tame_observe fun valid => Discipline.tame_bind (tame_checked _) fun _ => ?_
    refine tame_kept fun gone host s kept => ?_
    simp only [wp_bind, wp_get]
    refine wp_check (fun table removed => ?_) (.refl s)
    simp only [wp_modify]
    have erased : Quiet gone s { s with registrations := { s.registrations with instances := table },
                                        broker := s.broker.removeInstance rank,
                                        membershipRevision := s.membershipRevision + 1 } := by
      refine .of_same rfl rfl (.of_install true rfl (Bool.or_false _).symm nofun (fun _ => ?_) rfl rfl rfl) ?_
      · exact ⟨RegistrationTable.removeSnapshot_keyed kept.instances removed, kept.atnagents, kept.ffnagents, kept.specified⟩
      · exact fun _ _ found => removeInstance_leases _ _ _ _ found
    exact wp_mono (quiet_onFabric (fun g => instanceDeparted_evolves _ _ _) _) (fun _ _ evolved => erased.trans evolved)
      fun _ evolved => erased.trans evolved

theorem tame_recordFabricParticipant (report : ParticipantReport) :
    (outside.discipline config).Tame (recordFabricParticipant report : Task Doc Unit) := by
  refine tame_quiet fun gone host => quiet_bind quiet_get fun s => ?_
  split
  · exact quiet_refuse _ _
  split
  · exact quiet_onFabric fun g => rejectReport_evolves _
  split
  · exact quiet_onFabric fun g => recordParticipant_evolves report
  · exact quiet_onFabric fun g => rejectReport_evolves _

theorem tame_requestFabricQuiesce (owner : ProcessRef) (generation : GenerationId) :
    (outside.discipline config).Tame (requestFabricQuiesce owner generation : Task Doc Unit) := by
  refine tame_quiet fun gone host => quiet_bind quiet_get fun s => ?_
  split
  · exact quiet_refuse _ _
  split
  · exact quiet_refuse _ _
  simp only
  split
  · exact quiet_refuse _ _
  · exact quiet_onFabric fun g => quiesce_evolves

theorem tame_publishInstanceInitialized (rank : InstanceRankId) (owner : ProcessRef) (generation : GenerationId)
    (listener : Doc) :
    (outside.discipline config).Tame (publishInstanceInitialized config rank owner generation listener : Task Doc Unit) := by
  refine Discipline.tame_bind (tame_checked _) fun _ => Discipline.tame_bind tame_query fun registration => ?_
  cases registration with
  | none => exact Discipline.tame_raise
  | some registration =>
    refine Discipline.tame_bind Discipline.tame_observe fun valid => Discipline.tame_bind (tame_checked _) fun _ => ?_
    refine tame_quiet fun gone host => quiet_bind quiet_get fun s => ?_
    split
    · exact quiet_refuse _ _
    split
    · exact quiet_refuse _ _
    split
    · split
      · exact quiet_refuse _ _
      · exact quiet_onFabric fun g => recordInitialized_evolves _ _ _
    · refine quiet_bind (quiet_onFabric fun g => recordInitialized_evolves _ _ _) fun _ => ?_
      exact quiet_records (fun s => .of_same (.refl _) rfl rfl rfl rfl rfl) fun s => ⟨rfl, rfl, rfl⟩

theorem tame_stepContextStateCapacity (error : Option String) :
    (outside.discipline config).Tame (stepContextStateCapacity error : Task Doc Unit) := by
  refine tame_quiet fun gone host => quiet_bind quiet_get fun s => ?_
  split
  · exact quiet_pure _
  split
  · exact quiet_pure _
  split
  · exact quiet_pure _
  split
  · exact quiet_pure _
  · exact quiet_bind (quiet_onFabric fun g => (recordControlFailure_noted _).abort) fun _ => quiet_throw _

theorem tame_heartbeat {κ C : Type} (key : κ) (process : ProcessRef) (query : Plane Doc → κ → Option (Registration κ C))
    {commit : Plane Doc → Registration κ C → Nat → Except DaemonError (Plane Doc)}
    (same : ∀ s registration now after, commit s registration now = .ok after →
      SameMembership s.registrations after.registrations) :
    (outside.discipline config).Tame (heartbeat key process query commit) := by
  refine Discipline.tame_bind Discipline.tame_observe fun now => Discipline.tame_bind tame_query fun registration => ?_
  cases registration with
  | none => exact Discipline.tame_raise
  | some registration =>
    refine Discipline.tame_bind Discipline.tame_observe fun valid => Discipline.tame_bind (tame_checked _) fun _ => ?_
    refine tame_kept fun gone host s _ => ?_
    simp only [wp_bind, wp_get]
    refine wp_check (fun after committed => ?_) (.refl s)
    exact .of_same rfl rfl (.of_same (same s registration now after committed) rfl rfl rfl rfl rfl) fun _ _ found => found

theorem tame_start : (outside.discipline config).Tame (start : Task Doc Unit) := by
  refine tame_quiet fun gone host => quiet_bind quiet_get fun s => ?_
  split
  · exact quiet_pure _
  · exact quiet_records (fun s => .of_same (.refl _) rfl rfl rfl rfl rfl) fun s => ⟨rfl, rfl, rfl⟩

theorem tame_close (deadline : Nat) : (outside.discipline config).Tame (close deadline : Task Doc Unit) := by
  refine Discipline.tame_bind (tame_quiet fun gone host => ?_) fun deadline => ?_
  · exact quiet_bind (quiet_records (fun s => .of_same (.refl _) rfl rfl rfl rfl rfl) fun s => ⟨rfl, rfl, rfl⟩) fun _ => quiet_bind quiet_get fun s => quiet_pure _
  refine Discipline.tame_bind Discipline.tame_observe fun now => ?_
  refine Discipline.tame_bind (tame_quiet fun gone host => quiet_bind quiet_get fun s => quiet_pure _) fun captured => ?_
  refine Discipline.tame_bind (Discipline.tame_observeAny _) fun instanceAlive => ?_
  split
  · exact Discipline.tame_pure
  refine Discipline.tame_bind (tame_quiet fun gone host => quiet_bind quiet_get fun s => ?_) fun _ => ?_
  · split
    · exact quiet_pure _
    split
    · exact quiet_onFabric fun g => quiesce_evolves
    · exact quiet_pure _
  refine Discipline.tame_bind (Discipline.tame_observeAny _) fun anyAlive => ?_
  split
  · exact Discipline.tame_pure
  · refine tame_quiet fun gone host => quiet_records (fun s => ?_) fun s => ⟨rfl, rfl, rfl⟩
    exact ⟨.of_same (.refl _) rfl rfl, rfl, Or.inr ⟨rfl, rfl⟩⟩

/-- Every handler of the daemon is tame. -/
theorem tame_handler (request : Request Doc) : (outside.discipline config).Tame (request.handler config) := by
  cases request with
  | start => exact tame_start
  | admitAgentStartup role device pid createTime abiVersion => exact tame_admitAgentStartup _ _ _ _ _
  | registerAtnagent device pid abiVersion contract => exact tame_registerAtnagent _ _ _ _
  | registerFfnagent device pid abiVersion contract modelSpecs => exact tame_registerFfnagent _ _ _ _ _
  | registerInstance rank pid abiVersion contract => exact tame_registerInstance _ _ _ _
  | deregisterInstance rank owner => exact tame_deregisterInstance _ _
  | recordFabricParticipant report => exact tame_recordFabricParticipant report
  | requestFabricQuiesce owner generation => exact tame_requestFabricQuiesce _ _
  | publishInstanceInitialized rank owner generation listener => exact tame_publishInstanceInitialized _ _ _ _
  | stepContextStateCapacity error => exact tame_stepContextStateCapacity error
  | heartbeatAtnagent device process =>
    unfold Request.handler heartbeatAtnagent
    refine tame_heartbeat _ _ _ fun s registration now after committed => ?_
    obtain ⟨table, written, returned⟩ := bind_eq_ok.mp committed
    obtain rfl := Except.ok.inj returned
    exact ⟨.refl _, RegistrationTable.commitHeartbeat_agrees written, .refl _, rfl⟩
  | heartbeatFfnagent device process =>
    unfold Request.handler heartbeatFfnagent
    refine tame_heartbeat _ _ _ fun s registration now after committed => ?_
    obtain ⟨table, written, returned⟩ := bind_eq_ok.mp committed
    obtain rfl := Except.ok.inj returned
    exact ⟨.refl _, .refl _, RegistrationTable.commitHeartbeat_agrees written, rfl⟩
  | heartbeatInstance rank process =>
    unfold Request.handler heartbeatInstance
    refine tame_heartbeat _ _ _ fun s registration now after committed => ?_
    obtain ⟨table, written, returned⟩ := bind_eq_ok.mp committed
    obtain rfl := Except.ok.inj returned
    exact ⟨RegistrationTable.commitHeartbeat_agrees written, .refl _, .refl _, rfl⟩
  | watchdog => exact tame_watchdog
  | upsertAtnagentTransportArenas device bindings publisher => exact tame_upsertAtnagentTransportArenas _ _ _
  | quiesceAtnagentTransportLeases device publisher => exact tame_quiesceAtnagentTransportLeases _ _
  | acquireInstanceTransportArena rank owner => exact tame_acquireInstanceTransportArena _ _
  | close deadline => exact tame_close deadline

end Handlers

end Turnover

end CrossPool.Control
