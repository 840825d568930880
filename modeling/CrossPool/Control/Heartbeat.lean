import CrossPool.Control.Barrier

/-!
# Heartbeats and plan acquisition

The Agent learns of the installed generation twice: from the plan its control
loop requests, and from the snapshots its heartbeat thread leaves in a single
slot. The two requests are answered at different moments. A snapshot taken
before the generation was installed may still be in flight, or in the slot, when
the plan is retained, and the control loop then refuses it.
-/

namespace CrossPool.Control

open CrossPool.Lib

/-- The fields of a heartbeat response the Agent reads. -/
structure HeartbeatResponse where
  generation : Option GenerationId
  fabricPhase : Option GenerationPhase
  deriving DecidableEq, Repr

/-- The daemon's snapshot for a heartbeat, of the generation it retains. -/
def heartbeatResponse (fabric : Option GenerationState) : HeartbeatResponse where
  generation := fabric.map (·.plan.generation)
  fabricPhase := fabric.map (·.phase)

/-- The plan the Agent retains and the daemon phase it acts on. -/
structure FabricView where
  fabricPlan : Option DeploymentPlan
  fabricPhase : Option GenerationPhase
  deriving DecidableEq, Repr

/-- Apply one daemon-authoritative snapshot. -/
def FabricView.handleHeartbeatResponse (view : FabricView) (response : HeartbeatResponse) : Except String FabricView :=
  match view.fabricPlan with
  | some plan =>
    if response.generation ≠ some plan.generation then
      .error "daemon heartbeat returned a different Fabric generation"
    else .ok { view with fabricPhase := response.fabricPhase }
  | none => .ok { view with fabricPhase := response.fabricPhase }

/-- The heartbeat thread has at most one request under way. -/
inductive HeartbeatThread where
  | idle
  | requested
  | answered (response : HeartbeatResponse)

/-- The control loop is elsewhere, or waits for the plan it requested. -/
inductive PlanRequest where
  | idle
  | requested
  | answered (plan : DeploymentPlan)

/-- The daemon's retained generation and one Agent's two threads. -/
structure HeartbeatState where
  fabric : Option GenerationState
  thread : HeartbeatThread
  latestResponse : Option HeartbeatResponse
  planRequest : PlanRequest
  view : FabricView
  raised : Option String

/-- What can happen next, on the daemon or on either thread. -/
inductive HeartbeatStep where
  | install | operate (op : ControllerOp)
  | request | snapshot | lose | deliver
  | consume | requestPlan | answerPlan | refusePlan | retain

/-- The slot is consumed and its response handled; a raise ends the control loop. -/
def HeartbeatState.consumeResponse (s : HeartbeatState) (response : HeartbeatResponse) : HeartbeatState :=
  match s.view.handleHeartbeatResponse response with
  | .ok view => { s with latestResponse := none, view := view }
  | .error message => { s with latestResponse := none, raised := some message }

/-- The plan is retained, and the lifecycle starts from the join. -/
def HeartbeatState.retainPlan (s : HeartbeatState) (plan : DeploymentPlan) : HeartbeatState :=
  { s with planRequest := .idle, view := ⟨some plan, some .preparingJoin⟩ }

/-- Steps of the daemon, which installs one generation, of the heartbeat thread
and of the control loop. A request may fail at any moment before its response is
used. -/
inductive HeartbeatState.Step : HeartbeatState → HeartbeatStep → HeartbeatState → Prop where
  | install {s : HeartbeatState} (plan agentOwners instanceOwners now) : s.fabric = none →
      Step s .install { s with fabric := some (.installed plan agentOwners instanceOwners now) }
  | operate {s : HeartbeatState} (op : ControllerOp) (fabric : GenerationState) : s.fabric = some fabric →
      Step s (.operate op) { s with fabric := some (op.apply fabric).state }
  | request {s : HeartbeatState} : s.thread = .idle → Step s .request { s with thread := .requested }
  | snapshot {s : HeartbeatState} : s.thread = .requested →
      Step s .snapshot { s with thread := .answered (heartbeatResponse s.fabric) }
  | lose {s : HeartbeatState} : Step s .lose { s with thread := .idle }
  | deliver {s : HeartbeatState} (response : HeartbeatResponse) : s.thread = .answered response →
      Step s .deliver { s with thread := .idle, latestResponse := some response }
  | consume {s : HeartbeatState} (response : HeartbeatResponse) : s.planRequest = .idle → s.raised = none →
      s.latestResponse = some response → Step s .consume (s.consumeResponse response)
  | requestPlan {s : HeartbeatState} : s.planRequest = .idle → s.raised = none → s.view.fabricPlan = none →
      Step s .requestPlan { s with planRequest := .requested }
  | answerPlan {s : HeartbeatState} (fabric : GenerationState) : s.planRequest = .requested → s.fabric = some fabric →
      Step s .answerPlan { s with planRequest := .answered fabric.plan }
  | refusePlan {s : HeartbeatState} : s.view.fabricPlan = none → Step s .refusePlan { s with planRequest := .idle }
  | retain {s : HeartbeatState} (plan : DeploymentPlan) : s.planRequest = .answered plan →
      Step s .retain (s.retainPlan plan)

/-- A registered Agent without a plan, and a daemon without a generation. -/
def registered : HeartbeatState :=
  ⟨none, .idle, none, .idle, ⟨none, none⟩, none⟩

/-- Every interleaving of the daemon, the heartbeat thread and the control loop. -/
def heartbeats : System HeartbeatState HeartbeatStep where
  init s := s = registered
  step := HeartbeatState.Step

/-- A response on its way to the control loop, in flight or in the slot. -/
def HeartbeatState.Holds (s : HeartbeatState) (response : HeartbeatResponse) : Prop :=
  s.thread = .answered response ∨ s.latestResponse = some response

/-- No snapshot from before the installation is on its way. -/
def HeartbeatState.NoStale (s : HeartbeatState) : Prop :=
  ∀ response, s.Holds response → response.generation ≠ none

/-- Plans are retained only when no older snapshot is on its way. -/
def RetainsFresh (s : HeartbeatState) (label : HeartbeatStep) : Prop :=
  label = .retain → s.NoStale

/-! ## The installed generation is the only one -/

/-- What the Agent holds of a generation is of the one the daemon installed. -/
structure OneGeneration (s : HeartbeatState) : Prop where
  snapshot : ∀ response generation, s.Holds response → response.generation = some generation →
    ∃ fabric, s.fabric = some fabric ∧ fabric.plan.generation = generation
  answered : ∀ plan, s.planRequest = .answered plan → ∃ fabric, s.fabric = some fabric ∧ fabric.plan = plan
  retained : ∀ plan, s.view.fabricPlan = some plan → ∃ fabric, s.fabric = some fabric ∧ fabric.plan = plan

theorem consumeResponse_same (s : HeartbeatState) (response : HeartbeatResponse) :
    (s.consumeResponse response).fabric = s.fabric ∧ (s.consumeResponse response).thread = s.thread ∧
      (s.consumeResponse response).latestResponse = none ∧ (s.consumeResponse response).planRequest = s.planRequest ∧
        (s.consumeResponse response).view.fabricPlan = s.view.fabricPlan := by
  unfold HeartbeatState.consumeResponse
  split
  · rename_i view handled
    refine ⟨rfl, rfl, rfl, rfl, ?_⟩
    unfold FabricView.handleHeartbeatResponse at handled
    split at handled
    · split at handled
      · cases handled
      · obtain rfl := Except.ok.inj handled; rfl
    · obtain rfl := Except.ok.inj handled; rfl
  · exact ⟨rfl, rfl, rfl, rfl, rfl⟩

/-- What a step leaves on its way was there before or is a new snapshot. -/
theorem step_holds {s t : HeartbeatState} {label : HeartbeatStep} (step : s.Step label t) {response : HeartbeatResponse}
    (held : t.Holds response) : s.Holds response ∨ response = heartbeatResponse t.fabric := by
  cases step with
  | request => rcases held with ⟨⟨⟩⟩ | slot; exact Or.inl (Or.inr slot)
  | snapshot =>
    rcases held with answered | slot
    · exact Or.inr (HeartbeatThread.answered.inj answered).symm
    · exact Or.inl (Or.inr slot)
  | lose => rcases held with ⟨⟨⟩⟩ | slot; exact Or.inl (Or.inr slot)
  | deliver sent answered =>
    rcases held with ⟨⟨⟩⟩ | slot
    obtain rfl := Option.some.inj slot
    exact Or.inl (Or.inl answered)
  | consume sent _ _ _ =>
    obtain ⟨-, thread, slot, -, -⟩ := consumeResponse_same s sent
    rcases held with answered | found
    · exact Or.inl (Or.inl (thread.symm.trans answered))
    · exact absurd (slot.symm.trans found) (by simp)
  | _ => exact Or.inl held

/-- A step keeps the installed generation's plan. -/
theorem step_plan {s t : HeartbeatState} {label : HeartbeatStep} (step : s.Step label t) {fabric : GenerationState}
    (installed : s.fabric = some fabric) : ∃ after, t.fabric = some after ∧ after.plan = fabric.plan := by
  cases step with
  | install plan agentOwners instanceOwners now absent => rw [absent] at installed; cases installed
  | operate op before found =>
    obtain rfl := Option.some.inj (found.symm.trans installed)
    exact ⟨_, rfl, (apply_effect op).plan⟩
  | consume response _ _ _ => exact ⟨fabric, (consumeResponse_same s response).1.trans installed, rfl⟩
  | _ => exact ⟨fabric, installed, rfl⟩

theorem step_oneGeneration {s t : HeartbeatState} {label : HeartbeatStep} (one : OneGeneration s) (step : s.Step label t) :
    OneGeneration t := by
  -- The plan a state had stays the daemon's plan.
  have carried {plan : DeploymentPlan} : (∃ fabric, s.fabric = some fabric ∧ fabric.plan = plan) →
      ∃ fabric, t.fabric = some fabric ∧ fabric.plan = plan := by
    rintro ⟨fabric, installed, same⟩
    obtain ⟨after, found, kept⟩ := step_plan step installed
    exact ⟨after, found, kept.trans same⟩
  refine ⟨?_, ?_, ?_⟩
  · intro response generation held known
    rcases step_holds step held with before | rfl
    · obtain ⟨fabric, installed, same⟩ := one.snapshot response generation before known
      obtain ⟨after, found, kept⟩ := step_plan step installed
      exact ⟨after, found, (congrArg _ kept).trans same⟩
    · simpa [heartbeatResponse] using known
  · intro plan answered
    cases step with
    | answerPlan fabric _ installed => exact ⟨fabric, installed, PlanRequest.answered.inj answered⟩
    | consume response _ _ _ =>
      exact carried (one.answered plan ((consumeResponse_same s response).2.2.2.1.symm.trans answered))
    | requestPlan => cases answered
    | refusePlan => cases answered
    | retain => cases answered
    | _ => exact carried (one.answered plan answered)
  · intro plan retained
    cases step with
    | consume response _ _ _ =>
      exact carried (one.retained plan ((consumeResponse_same s response).2.2.2.2.symm.trans retained))
    | retain held answered =>
      obtain rfl := Option.some.inj retained
      exact carried (one.answered _ answered)
    | _ => exact carried (one.retained plan retained)

theorem reachable_oneGeneration {s : HeartbeatState} (reached : heartbeats.Reachable s) : OneGeneration s := by
  refine System.ReachableUnder.invariant ?_ ?_ reached
  · rintro _ rfl
    refine ⟨?_, ?_, ?_⟩
    · rintro response generation (⟨⟨⟩⟩ | ⟨⟨⟩⟩)
    · rintro plan ⟨⟩
    · rintro plan ⟨⟩
  · intro _ _ _ _ one _ step
    exact step_oneGeneration one step

/-! ## Fresh retention -/

/-- No raise so far, and no older snapshot on its way to an Agent with a plan. -/
structure Agreeing (s : HeartbeatState) : Prop where
  quiet : s.raised = none
  fresh : s.view.fabricPlan ≠ none → s.NoStale

/-- An agreeing Agent's responses carry its plan's generation. -/
theorem Agreeing.carries {s : HeartbeatState} (agreeing : Agreeing s) (one : OneGeneration s) {plan : DeploymentPlan}
    (retained : s.view.fabricPlan = some plan) {response : HeartbeatResponse} (held : s.Holds response) :
    response.generation = some plan.generation := by
  have known : response.generation ≠ none := agreeing.fresh (by simp [retained]) response held
  obtain ⟨generation, carried⟩ := Option.ne_none_iff_exists'.mp known
  obtain ⟨fabric, installed, same⟩ := one.snapshot response generation held carried
  obtain ⟨fabric', installed', plans⟩ := one.retained plan retained
  obtain rfl := Option.some.inj (installed.symm.trans installed')
  rw [carried, ← same, plans]

theorem step_agreeing {s t : HeartbeatState} {label : HeartbeatStep} (one : OneGeneration s) (agreeing : Agreeing s)
    (fresh : RetainsFresh s label) (step : s.Step label t) : Agreeing t := by
  have held_fresh (retained : s.view.fabricPlan ≠ none) : t.NoStale := by
    intro response held
    rcases step_holds step held with before | rfl
    · exact agreeing.fresh retained response before
    · obtain ⟨plan, found⟩ := Option.ne_none_iff_exists'.mp retained
      obtain ⟨fabric, installed, -⟩ := one.retained plan found
      obtain ⟨after, now, -⟩ := step_plan step installed
      simp [heartbeatResponse, now]
  cases step with
  | consume response _ _ slot =>
    refine ⟨?_, ?_⟩
    · unfold HeartbeatState.consumeResponse FabricView.handleHeartbeatResponse
      cases retained : s.view.fabricPlan with
      | none => exact agreeing.quiet
      | some plan =>
        have agrees := agreeing.carries one retained (Or.inr slot)
        simp only [agrees, ne_eq, not_true_eq_false, if_false]
        exact agreeing.quiet
    · rw [(consumeResponse_same s response).2.2.2.2]
      exact held_fresh
  | retain plan answered => exact ⟨agreeing.quiet, fun _ => fresh rfl⟩
  | _ => exact ⟨agreeing.quiet, held_fresh⟩

theorem fresh_agreeing {s : HeartbeatState} (reached : heartbeats.ReachableUnder RetainsFresh s) : Agreeing s := by
  refine System.ReachableUnder.invariant ?_ ?_ reached
  · rintro _ rfl
    exact ⟨rfl, fun retained => absurd rfl retained⟩
  · intro _ _ _ before agreeing fresh step
    exact step_agreeing (reachable_oneGeneration before.reachable) agreeing fresh step

/-! ## Stale retention -/

/-- A stale response in the slot of an Agent with a plan raises when consumed. -/
theorem consume_raises {s : HeartbeatState} {plan : DeploymentPlan} {response : HeartbeatResponse}
    (retained : s.view.fabricPlan = some plan) (stale : response.generation = none) :
    (s.consumeResponse response).raised ≠ none := by
  simp [HeartbeatState.consumeResponse, FabricView.handleHeartbeatResponse, retained, stale]

/-- Retaining a plan while an older snapshot is on its way can raise. -/
theorem stale_raises {s : HeartbeatState} {plan : DeploymentPlan} (answered : s.planRequest = .answered plan)
    (quiet : s.raised = none) (stale : ¬ s.NoStale) : ∃ t, heartbeats.Later s t ∧ t.raised ≠ none := by
  simp only [HeartbeatState.NoStale, not_forall, not_not] at stale
  obtain ⟨response, held, old⟩ := stale
  have retained : heartbeats.Later s (s.retainPlan plan) :=
    (System.LaterUnder.refl s).step trivial (HeartbeatState.Step.retain plan answered)
  rcases held with inFlight | slot
  · have delivered := retained.step trivial (HeartbeatState.Step.deliver response inFlight)
    exact ⟨_, delivered.step trivial (HeartbeatState.Step.consume response rfl quiet rfl), consume_raises rfl old⟩
  · exact ⟨_, retained.step trivial (HeartbeatState.Step.consume response rfl quiet slot), consume_raises rfl old⟩

/-- Where every plan is retained with no older snapshot on its way, the Agent
never raises and every response it can consume carries its plan's generation.
Retaining one otherwise can raise, from every reachable state. -/
theorem heartbeat_agrees (s : HeartbeatState) :
    (heartbeats.ReachableUnder RetainsFresh s → s.raised = none ∧
      ∀ plan response, s.view.fabricPlan = some plan → s.latestResponse = some response →
        response.generation = some plan.generation) ∧
    (heartbeats.Reachable s → ∀ plan, s.planRequest = .answered plan → s.raised = none → ¬ s.NoStale →
      ∃ t, heartbeats.Later s t ∧ t.raised ≠ none) := by
  refine ⟨?_, ?_⟩
  · intro reached
    have agreeing := fresh_agreeing reached
    refine ⟨agreeing.quiet, ?_⟩
    intro plan response retained slot
    exact agreeing.carries (reachable_oneGeneration reached.reachable) retained (Or.inr slot)
  · intro _ plan answered quiet stale
    exact stale_raises answered quiet stale

/-! ## Two orders of the same events -/

/-- A plan of two PEs. -/
def twoPePlan : DeploymentPlan :=
  ⟨⟨0, 1⟩, [⟨.atnAgent, 0⟩, ⟨.ffnAgent, 1⟩]⟩

/-- The generation of that plan as the daemon installs it. -/
def twoPeFabric : GenerationState :=
  .installed twoPePlan ∅ ∅ 0

/-- The plan arrives while the slot holds a snapshot the daemon took in state
`fabric`. -/
def planAnswered (fabric : Option GenerationState) : HeartbeatState :=
  ⟨some twoPeFabric, .idle, some (heartbeatResponse fabric), .answered twoPePlan, ⟨none, none⟩, none⟩

/-- Snapshot and delivery after the installation, then the plan. -/
theorem heartbeat_agrees_afterInstall :
    heartbeats.ReachableUnder RetainsFresh ((planAnswered (some twoPeFabric)).retainPlan twoPePlan) ∧
      ((planAnswered (some twoPeFabric)).retainPlan twoPePlan).raised = none ∧
        (heartbeatResponse (some twoPeFabric)).generation = some twoPePlan.generation := by
  have answered : heartbeats.ReachableUnder RetainsFresh (planAnswered (some twoPeFabric)) := by
    refine .next (.next (.next (.next (.next (.next (.start rfl)
      ?_ (HeartbeatState.Step.install twoPePlan ∅ ∅ 0 rfl)) ?_ (HeartbeatState.Step.request rfl))
      ?_ (HeartbeatState.Step.snapshot rfl)) ?_ (HeartbeatState.Step.deliver _ rfl))
      ?_ (HeartbeatState.Step.requestPlan rfl rfl rfl)) ?_ (HeartbeatState.Step.answerPlan twoPeFabric rfl rfl)
    all_goals rintro ⟨⟩
  have retained : heartbeats.ReachableUnder RetainsFresh ((planAnswered (some twoPeFabric)).retainPlan twoPePlan) := by
    refine .next answered ?_ (HeartbeatState.Step.retain twoPePlan rfl)
    rintro - response (⟨⟨⟩⟩ | ⟨⟨⟩⟩)
    decide
  obtain ⟨quiet, carries⟩ := (heartbeat_agrees _).1 retained
  exact ⟨retained, quiet, carries twoPePlan _ rfl rfl⟩

/-- Snapshot before the installation, delivery after it: the Agent raises on its
own daemon's heartbeat. -/
theorem heartbeat_raises_beforeInstall :
    ∃ s, heartbeats.Reachable s ∧ s.raised = some "daemon heartbeat returned a different Fabric generation" := by
  have answered : heartbeats.Reachable (planAnswered none) := by
    refine .next (.next (.next (.next (.next (.next (.start rfl) trivial (HeartbeatState.Step.request rfl))
      trivial (HeartbeatState.Step.snapshot rfl)) trivial (HeartbeatState.Step.install twoPePlan ∅ ∅ 0 rfl))
      trivial (HeartbeatState.Step.requestPlan rfl rfl rfl)) trivial (HeartbeatState.Step.answerPlan twoPeFabric rfl rfl))
      trivial (HeartbeatState.Step.deliver _ rfl)
  have retained := answered.step (HeartbeatState.Step.retain twoPePlan rfl)
  exact ⟨_, retained.step (HeartbeatState.Step.consume _ rfl rfl rfl), rfl⟩

end CrossPool.Control
