import CrossPool.Control.Generations

/-!
# Plan formation against membership changes

A plan is formed from a membership that was captured before, with probes and
planning in between. Only the membership revision ties the commit to the capture.
Every section that changes what is declared counts a revision, with one
exception: a registration that takes the place of one its own process made with
other contents, after that process was probed dead. In a run without that, each
generation is installed from the membership of that very instant.
-/

namespace CrossPool.Control

open CrossPool.Lib

section Formation

variable {Doc : Type} [DecidableEq Doc]

/-- The owner maps and Instance plans installed in `t` are those of `membership`. -/
structure FormedFrom (membership : FabricMembership Doc) (t : Plane Doc) (g : GenerationState) : Prop where
  agentOwners : g.agentOwners =
    (membership.agentOwners.map fun owner => (⟨owner.1, owner.2⟩ : Sigma fun _ : Nat => ProcUniqId)).toAList
  instanceOwners : g.instanceOwners =
    (membership.instanceOwners.map fun owner => (⟨owner.1, owner.2⟩ : Sigma fun _ : InstanceRankId => ProcUniqId)).toAList
  instancePlans : t.instancePlans = membership.instancePlans

/-- What a step that installs a generation leaves behind. -/
structure Installs (config : Config) (s t : Plane Doc) (g : GenerationState) : Prop where
  admission : s.admissionClosed = false ∧ t.admissionClosed = false
  formed : ∃ membership, FabricMembership.capture config t.registrations t.membershipRevision = .ok (some membership) ∧
    FormedFrom membership t g

/-- A step that finds a generation installed leaves it in its place, with its
plan, or drops it. -/
structure Replaces (s t : Plane Doc) (g g' : GenerationState) : Prop where
  plan : g'.plan = g.plan
  agentOwners : g'.agentOwners = g.agentOwners
  instanceOwners : g'.instanceOwners = g.instanceOwners
  instancePlans : t.instancePlans = s.instancePlans

variable {config : Config} {gone : ProcUniqId → Prop} {s t : Plane Doc} {g g' : GenerationState}

theorem Turns.formed (turns : Turns config gone s t) (empty : s.fabric = none) (found : t.fabric = some g)
    (kept : s.redeclared = false) : Installs config s t g := by
  cases turns with
  | quiet quiet =>
    have related := quiet.fabric
    rw [empty, found] at related
    cases related
  | leases _ _ _ fabric =>
    rw [fabric, empty] at found
    cases found
  | retires _ retained =>
    rw [empty] at retained
    cases retained
  | installs membership generation now _ admission captured _ formed =>
    subst formed
    obtain rfl := Option.some.inj found
    exact ⟨⟨admission, admission⟩, membership, captured kept, rfl, rfl, rfl⟩

theorem Turns.replaces (turns : Turns config gone s t) (before : s.fabric = some g) (found : t.fabric = some g') :
    Replaces s t g g' := by
  cases turns with
  | quiet quiet =>
    have related := quiet.fabric
    rw [before, found] at related
    cases related with
    | some evolves => exact ⟨evolves.plan, evolves.agentOwners, evolves.instanceOwners, quiet.upholds.instancePlans⟩
  | leases _ _ _ fabric _ upholds =>
    obtain rfl := Option.some.inj (before.symm.trans (fabric.symm.trans found))
    exact ⟨rfl, rfl, rfl, upholds.instancePlans⟩
  | retires _ _ _ _ dropped =>
    subst dropped
    cases found
  | installs _ _ _ empty =>
    rw [empty] at before
    cases before

/-- In every run, as long as no process has redeclared its registration: whenever
a generation is installed, admission is open, and its owner maps and Instance
plans are those of the registrations at that instant. In every run, a generation
is never installed over another, and the open capacity policies are exactly the
retained one, which belongs to the installed generation. -/
theorem plan_formation (config : Config) {m : Monitor (ProcUniqId → Bool) (Plane Doc) Host Raised Nat}
    (reached : (daemon Doc config).Reachable m) :
    (∀ event after g, (daemon Doc config).step m event after → m.shared.redeclared = false →
      m.shared.fabric = none → after.shared.fabric = some g → Installs config m.shared after.shared g) ∧
    (∀ event after g g', (daemon Doc config).step m event after →
      m.shared.fabric = some g → after.shared.fabric = some g' → Replaces m.shared after.shared g g') ∧
    m.shared.policies = m.shared.policy.toList ∧
    (∀ policy, m.shared.policy = some policy → ∃ g, m.shared.fabric = some g ∧ g.plan.generation = policy) := by
  have sane : Sane (fun _ => True) m.shared := (freely_sound reached).inv
  refine ⟨?_, ?_, sane.policies, sane.owned⟩
  · intro event after g taken kept empty found
    rcases turns_of_moves (freely_moves reached taken) with turns | same
    · exact turns.formed empty found kept
    · rw [same, empty] at found
      cases found
  · intro event after g g' taken before found
    rcases turns_of_moves (freely_moves reached taken) with turns | same
    · exact turns.replaces before found
    · obtain rfl := Option.some.inj (before.symm.trans (same ▸ found))
      exact ⟨rfl, rfl, rfl, by rw [same]⟩

end Formation

/-! ## Two runs of a small deployment -/

section Deployment

/-- Both Agents are registered, and one thread registers the Instance rank with
profile 0 up to the commit of its plan. -/
def formPlan : List (Errand Nat) :=
  serve .start 1 ++ deployAgents 0 10 5 5 ++ .call 0 (registerRank 12 0) :: List.replicate 12 (.run 0)

/-- A commit by thread 0 that installs a generation. -/
def commitInstalls (m : Monitor (ProcUniqId → Bool) (Plane Nat) Host Raised Nat) (holds : Plane Nat → Plane Nat → Bool) :
    Bool :=
  match (Errand.run 0).next smallConfig m with
  | some after => m.shared.fabric.isNone && after.shared.fabric.isSome && holds m.shared after.shared
  | none => false

/-- The step behind such a commit. -/
theorem step_of_commitInstalls {m : Monitor (ProcUniqId → Bool) (Plane Nat) Host Raised Nat}
    {holds : Plane Nat → Plane Nat → Bool} (commits : commitInstalls m holds) :
    ∃ event after g, (daemon Nat smallConfig).step m event after ∧ m.shared.fabric = none ∧ after.shared.fabric = some g ∧
      holds m.shared after.shared := by
  unfold commitInstalls at commits
  split at commits
  · rename_i after leads
    simp only [Bool.and_eq_true, Option.isNone_iff_eq_none, Option.isSome_iff_exists] at commits
    obtain ⟨⟨empty, g, found⟩, holds⟩ := commits
    obtain ⟨event, -, taken⟩ := Errand.agrees _ _ _ _ leads
    exact ⟨event, after, g, taken, empty, found, holds⟩
  · cases commits

theorem plan_formation_formPlan :
    ∃ m event after g, (daemon Nat smallConfig).Reachable m ∧ (daemon Nat smallConfig).step m event after ∧
      m.shared.redeclared = false ∧ m.shared.fabric = none ∧ after.shared.fabric = some g ∧
        Installs smallConfig m.shared after.shared g := by
  obtain ⟨m, reached, holds⟩ := (idleDaemon_reached smallConfig).drive (Errand.next smallConfig) (Errand.agrees smallConfig) formPlan
    (fun m => commitInstalls m fun s _ => !s.redeclared) (by decide +kernel)
  obtain ⟨event, after, g, taken, empty, found, kept⟩ := step_of_commitInstalls holds
  have kept : m.shared.redeclared = false := by simpa using kept
  obtain ⟨installs, -⟩ := plan_formation smallConfig reached.reachable
  exact ⟨m, event, after, g, reached.reachable, taken, kept, empty, found, installs event after g taken kept empty found⟩

/-- While the first thread waits for its commit, a second one registers the same
rank and process with profile 1, and the process dies before that thread probes
it. -/
def redeclare : List (Errand Nat) :=
  formPlan ++ .call 1 (registerRank 12 1) :: List.replicate 3 (.run 1) ++ .die ⟨12, 12⟩ :: List.replicate 2 (.run 1)

/-- The Instance plans of a plane are not those its registrations give. -/
def plansAreStale (t : Plane Nat) : Bool :=
  match FabricMembership.capture smallConfig t.registrations t.membershipRevision with
  | .ok (some membership) => t.instancePlans ≠ membership.instancePlans
  | _ => false

/-- The plan that is then installed has an Instance plan that the registrations
of that instant do not have. -/
theorem redeclared_plan_is_stale :
    ∃ m event after g membership, (daemon Nat smallConfig).ReachableUnder Truthful m ∧
      (daemon Nat smallConfig).step m event after ∧ m.shared.fabric = none ∧ after.shared.fabric = some g ∧
        FabricMembership.capture smallConfig after.shared.registrations after.shared.membershipRevision =
          .ok (some membership) ∧
        after.shared.instancePlans ≠ membership.instancePlans := by
  obtain ⟨m, reached, holds⟩ := (idleDaemon_reached smallConfig).drive (Errand.next smallConfig) (Errand.agrees smallConfig) redeclare
    (fun m => commitInstalls m fun _ t => plansAreStale t) (by decide +kernel)
  obtain ⟨event, after, g, taken, empty, found, stale⟩ := step_of_commitInstalls holds
  unfold plansAreStale at stale
  split at stale
  · rename_i membership captured
    exact ⟨m, event, after, g, membership, reached, taken, empty, found, captured, by simpa using stale⟩
  · cases stale

end Deployment

end CrossPool.Control
