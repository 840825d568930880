import CrossPool.Lib.Runs
import CrossPool.Control.Agent

/-!
# Generation barriers

The generation phase bounds every recorded participant phase, over any finite
sequence of controller operations. `Effect` says once what a call can do to the
phase and to the participants: an optional committed report, then one phase
move. The bounds, and the fact that recorded phases never go back, are each
proved from it. An Agent that acts on a phase the daemon once published, however
late, therefore starts a collective native call only after every PE has passed
the barrier before it.
-/

namespace CrossPool.Control

open CrossPool.Lib

/-- The controller operations on an installed generation; `stop` is the
watchdog's retirement of an aborting one. -/
inductive ControllerOp where
  | recordInitialized (instanceRank : InstanceRankId) (owner : ProcUniqId) (generation : GenerationId)
  | recordParticipant (report : ParticipantReport) (now : Nat)
  | instanceDeparted (instanceRank : InstanceRankId) (failure : OwnerFailure) (leasesQuiescing : Bool) (now : Nat)
  | quiesce (now : Nat)
  | abort (now : Nat)
  | stop (now : Nat)

/-- The outcome of one controller operation. -/
def ControllerOp.apply (g : GenerationState) : ControllerOp → Outcome
  | recordInitialized instanceRank owner generation => g.recordInitialized instanceRank owner generation
  | recordParticipant report now => g.recordParticipant report now
  | instanceDeparted instanceRank failure leasesQuiescing now =>
    g.instanceDeparted instanceRank failure leasesQuiescing now
  | quiesce now => g.quiesce now
  | abort now => g.abort now
  | stop now => if g.phase = .aborting then g.transition .stopped now else .ok g

/-- Every sequence of controller operations from any installed generation. -/
def controller : System GenerationState ControllerOp where
  init g := ∃ plan agentOwners instanceOwners now, g = .installed plan agentOwners instanceOwners now
  step g op g' := g' = (op.apply g).state

/-- The participant phases a generation phase admits of a recorded PE. -/
def admits : GenerationPhase → List ParticipantPhase
  | .preparingJoin => [.joinReady]
  | .joining => [.joinReady, .joining, .joined]
  | .preparingExecution => [.joined, .executionReady]
  | .activating => [.executionReady, .active]
  | .executable => [.active]
  | .quiescing => [.active, .quiesced]
  | .draining => [.quiesced, .draining, .drained]
  | .finalizing => [.drained, .finalized]
  | .aborting => []
  | .stopped => []

/-- The generation phase bounds every recorded participant phase, and every PE is
recorded once the join barrier has passed. -/
structure PhaseBounds (g : GenerationState) : Prop where
  recorded : g.phase ≠ .aborting → g.phase ≠ .stopped → ∀ pe report,
    g.participants.lookup pe = some report → report.phase ∈ admits g.phase
  complete : g.phase ≠ .preparingJoin → g.phase ≠ .aborting → g.phase ≠ .stopped → ∀ pe < g.peCount,
    ∃ report, g.participants.lookup pe = some report

/-- A report that passed every check of `record_participant`. -/
structure Committed (g : GenerationState) (report : ParticipantReport) : Prop where
  known : report.pe < g.peCount
  live : g.phase ≠ .stopped
  edge : ∀ old, g.participants.lookup report.pe = some old →
    report.phase = old.phase ∨ old.phase.allows report.phase (g.phase = .aborting)
  allowed : (∀ old, g.participants.lookup report.pe = some old → report.phase ≠ old.phase) →
    report.phase ∈ allowedPhases g.phase

/-- Where a call can leave the phase, the participants given. -/
inductive PhaseMove (g : GenerationState) : GenerationPhase → Prop where
  | stay : PhaseMove g g.phase
  | abort : PhaseMove g .aborting
  | quiesce : g.phase = .executable → PhaseMove g .quiescing
  | stop : g.phase = .aborting → PhaseMove g .stopped
  | pass (unanimous : ParticipantPhase) (next : GenerationPhase) : barrier g.phase = some (unanimous, next) →
      (∀ pe < g.peCount, ∃ report, g.participants.lookup pe = some report) →
      (∀ pe report, g.participants.lookup pe = some report → report.phase = unanimous) → PhaseMove g next

/-- What one controller operation can do: commit at most one report, then move
the phase. -/
structure Effect (g g' : GenerationState) : Prop where
  plan : g'.plan = g.plan
  participants : g'.participants = g.participants ∨
    ∃ report, Committed g report ∧ g'.participants = g.participants.insert report.pe report
  phase : PhaseMove { g with participants := g'.participants } g'.phase

/-! ## What each operation does -/

section Operations

variable {g g₀ : GenerationState}

/-- `g` differs from `g₀` at most in its failure slots, initialized instances and
phase clock, and in its phase by one move. -/
structure Moved (g₀ g : GenerationState) : Prop where
  plan : g.plan = g₀.plan
  participants : g.participants = g₀.participants
  phase : PhaseMove g₀ g.phase

theorem Moved.refl (g : GenerationState) : Moved g g :=
  ⟨rfl, rfl, .stay⟩

/-- Without a commit a moved state is an effect. -/
theorem Moved.effect (moved : Moved g₀ g) : Effect g₀ g where
  plan := moved.plan
  participants := Or.inl moved.participants
  phase := by rw [moved.participants]; exact moved.phase

theorem transition_state_of_allows (now : Nat) {phase : GenerationPhase} (edge : g.phase.allows phase) :
    (g.transition phase now).state.phase = phase ∧ (g.transition phase now).state.plan = g.plan ∧
      (g.transition phase now).state.participants = g.participants := by
  unfold GenerationState.transition
  by_cases same : g.phase = phase
  · simp [same]
  · simp [same, edge]

theorem allows_aborting (live : g.phase ≠ .aborting) (unstopped : g.phase ≠ .stopped) :
    g.phase.allows .aborting := by
  simp [GenerationPhase.allows, live, unstopped]

theorem abort_moved (now : Nat) : Moved g (g.abort now).state := by
  unfold GenerationState.abort
  split
  · exact .refl g
  · rename_i live
    obtain ⟨phase, plan, participants⟩ := transition_state_of_allows now
      (allows_aborting (fun h => live (Or.inl h)) (fun h => live (Or.inr h)))
    exact ⟨plan, participants, by rw [phase]; exact .abort⟩

theorem quiesce_moved (now : Nat) : Moved g (g.quiesce now).state := by
  have aborts (live : g.phase ≠ .aborting) (unstopped : g.phase ≠ .stopped) :
      Moved g (g.transition .aborting now).state := by
    obtain ⟨phase, plan, participants⟩ := transition_state_of_allows now (allows_aborting live unstopped)
    exact ⟨plan, participants, by rw [phase]; exact .abort⟩
  unfold GenerationState.quiesce
  split
  · rename_i phase; exact aborts (by simp [phase]) (by simp [phase])
  · rename_i phase; exact aborts (by simp [phase]) (by simp [phase])
  · rename_i phase; exact aborts (by simp [phase]) (by simp [phase])
  · rename_i phase; exact aborts (by simp [phase]) (by simp [phase])
  · rename_i executable
    have edge : g.phase.allows .quiescing := by rw [executable]; rfl
    obtain ⟨phase, plan, participants⟩ := transition_state_of_allows now edge
    exact ⟨plan, participants, by rw [phase]; exact .quiesce executable⟩
  all_goals exact .refl g

/-- Failure slots and initialized instances do not take part in a move. -/
theorem Moved.of_same {g₁ : GenerationState} (moved : Moved g₁ g) (plan : g₁.plan = g₀.plan)
    (participants : g₁.participants = g₀.participants) (phase : g₁.phase = g₀.phase) : Moved g₀ g where
  plan := moved.plan.trans plan
  participants := moved.participants.trans participants
  phase := by
    have move := moved.phase
    generalize g.phase = after at move ⊢
    cases move with
    | stay => rw [phase]; exact .stay
    | abort => exact .abort
    | quiesce executable => exact .quiesce (phase ▸ executable)
    | stop aborting => exact .stop (phase ▸ aborting)
    | pass unanimous next opens complete agree =>
      have count : g₁.peCount = g₀.peCount := by simp only [GenerationState.peCount, plan]
      exact .pass unanimous _ (phase ▸ opens) (by rw [← count, ← participants]; exact complete)
        (by rw [← participants]; exact agree)

theorem recordControlFailure_same (message : String) :
    (g.recordControlFailure message).plan = g.plan ∧
      (g.recordControlFailure message).participants = g.participants ∧
        (g.recordControlFailure message).phase = g.phase := by
  unfold GenerationState.recordControlFailure
  split <;> exact ⟨rfl, rfl, rfl⟩

theorem recordOwnerFailure_same (failure : OwnerFailure) :
    (g.recordOwnerFailure failure).plan = g.plan ∧
      (g.recordOwnerFailure failure).participants = g.participants ∧
        (g.recordOwnerFailure failure).phase = g.phase := by
  unfold GenerationState.recordOwnerFailure
  split <;> exact ⟨rfl, rfl, rfl⟩

theorem recordInvocationFailure_same (failure : InvocationFailure) :
    (g.recordInvocationFailure failure).plan = g.plan ∧
      (g.recordInvocationFailure failure).participants = g.participants ∧
        (g.recordInvocationFailure failure).phase = g.phase := by
  unfold GenerationState.recordInvocationFailure
  split
  · exact ⟨rfl, rfl, rfl⟩
  · split
    · exact recordControlFailure_same _
    · exact ⟨rfl, rfl, rfl⟩

theorem rejectReport_moved (message : String) (now : Nat) : Moved g (g.rejectReport message now).state := by
  obtain ⟨plan, participants, phase⟩ := recordControlFailure_same (g := g) message
  exact (abort_moved now).of_same plan participants phase

theorem mem_keys_iff_lookup {pe : Nat} : pe ∈ g.participants.keys ↔ ∃ report, g.participants.lookup pe = some report := by
  rw [← AList.mem_keys, ← AList.lookup_isSome, Option.isSome_iff_exists]

/-- A completed barrier opens a phase along an exact edge. -/
theorem barrier_allows {phase next : GenerationPhase} {unanimous : ParticipantPhase}
    (opens : barrier phase = some (unanimous, next)) : phase.allows next := by
  revert opens
  cases phase <;> simp only [barrier, Option.some.injEq, Prod.mk.injEq, reduceCtorEq, false_implies, and_imp] <;>
    rintro - rfl <;> rfl

theorem advanceBarrier_moved (now : Nat) : Moved g (g.advanceBarrier now).state := by
  unfold GenerationState.advanceBarrier
  split
  · exact .refl g
  rename_i full
  split
  · rename_i unanimous next opens
    split
    · rename_i agree
      obtain ⟨phase, plan, participants⟩ := transition_state_of_allows now (barrier_allows opens)
      refine ⟨plan, participants, ?_⟩
      rw [phase]
      refine .pass unanimous next opens ?_ ?_
      · intro pe known
        rw [← mem_keys_iff_lookup, ← List.mem_toFinset, not_not.mp full, Finset.mem_range]
        exact known
      · intro pe report found
        have member : report.phase ∈ g.recordedPhases := by
          refine List.mem_toFinset.mpr (List.mem_map.mpr ⟨⟨pe, report⟩, ?_, rfl⟩)
          exact AList.mem_lookup_iff.mp found
        rwa [agree, Finset.mem_singleton] at member
    · exact .refl g
  · exact .refl g

/-- Recording a report changes the participants and the failure slots only. -/
theorem noteReport_same (report : ParticipantReport) :
    (g.noteReport report).plan = g.plan ∧
      (g.noteReport report).participants = g.participants.insert report.pe report ∧
        (g.noteReport report).phase = g.phase := by
  let inserted : GenerationState := { g with participants := g.participants.insert report.pe report }
  have invocation (failure : InvocationFailure) := recordInvocationFailure_same (g := inserted) failure
  have control (g : GenerationState) (failure : String) := recordControlFailure_same (g := g) failure
  unfold GenerationState.noteReport
  cases report.invocationFailure with
  | none =>
    cases report.controlFailure with
    | none => exact ⟨rfl, rfl, rfl⟩
    | some failure => exact control inserted failure
  | some failure =>
    obtain ⟨plan, participants, phase⟩ := invocation failure
    cases report.controlFailure with
    | none => exact ⟨plan, participants, phase⟩
    | some message =>
      obtain ⟨plan', participants', phase'⟩ := control (inserted.recordInvocationFailure failure) message
      exact ⟨plan'.trans plan, participants'.trans participants, phase'.trans phase⟩

theorem applyReports_moved (now : Nat) : Moved g (g.applyReports now).state := by
  unfold GenerationState.applyReports
  split
  · exact abort_moved now
  split
  · exact quiesce_moved now
  · exact advanceBarrier_moved now

theorem commit_moved (report : ParticipantReport) (now : Nat) :
    Moved { g with participants := g.participants.insert report.pe report }
      ((g.noteReport report).applyReports now).state := by
  obtain ⟨plan, participants, phase⟩ := noteReport_same (g := g) report
  exact (applyReports_moved now).of_same plan participants phase

theorem edge_of_edgeRejection {previous : Option ParticipantReport} {report : ParticipantReport} {aborting : Bool}
    (passed : edgeRejection previous report aborting = none) :
    ∀ old, previous = some old → report.phase = old.phase ∨ old.phase.allows report.phase aborting := by
  rintro old rfl
  unfold edgeRejection at passed
  split at passed
  · contradiction
  · rename_i found
    obtain rfl := Option.some.inj found
    split at passed
    · cases passed
    · rename_i fine
      by_cases same : report.phase = old.phase
      · exact Or.inl same
      · exact Or.inr (not_not.mp fun refused => fine ⟨same, refused⟩)

theorem recordParticipant_effect (report : ParticipantReport) (now : Nat) :
    Effect g (g.recordParticipant report now).state := by
  unfold GenerationState.recordParticipant
  simp only
  split
  · exact (Moved.refl g).effect
  split
  · exact (rejectReport_moved _ _).effect
  split
  · exact (rejectReport_moved _ _).effect
  rename_i known
  split
  · exact (Moved.refl g).effect
  rename_i live
  split
  · exact (rejectReport_moved _ _).effect
  rename_i edge
  split
  · exact (rejectReport_moved _ _).effect
  split
  · exact (rejectReport_moved _ _).effect
  rename_i fine
  have committed : Committed g report := by
    refine ⟨not_le.mp known, live, edge_of_edgeRejection edge, fun changed => ?_⟩
    by_contra outside
    refine fine ⟨?_, outside⟩
    unfold phaseChanged
    split
    · rfl
    · rename_i old found
      exact decide_eq_true (changed old found)
  have moved := commit_moved (g := g) report now
  refine ⟨moved.plan, Or.inr ⟨report, committed, moved.participants⟩, ?_⟩
  rw [moved.participants]
  exact moved.phase

/-- Every operation but a report moves the phase and records nothing. -/
theorem apply_moved (op : ControllerOp) (quiet : ∀ report now, op ≠ .recordParticipant report now) :
    Moved g (op.apply g).state := by
  cases op with
  | recordInitialized instanceRank owner generation =>
    simp only [ControllerOp.apply, GenerationState.recordInitialized]
    split
    · exact .refl g
    split
    · exact .refl g
    split
    · exact .refl g
    · exact ⟨rfl, rfl, .stay⟩
  | recordParticipant report now => exact absurd rfl (quiet report now)
  | instanceDeparted instanceRank failure leasesQuiescing now =>
    simp only [ControllerOp.apply, GenerationState.instanceDeparted]
    split
    · exact ⟨rfl, rfl, .stay⟩
    split
    · exact ⟨rfl, rfl, .stay⟩
    · obtain ⟨plan, participants, phase⟩ := recordOwnerFailure_same
        (g := { g with initializedInstances := g.initializedInstances.erase instanceRank }) failure
      exact (quiesce_moved now).of_same plan participants phase
  | quiesce now => exact quiesce_moved now
  | abort now => exact abort_moved now
  | stop now =>
    simp only [ControllerOp.apply]
    split
    · rename_i aborting
      have edge : g.phase.allows .stopped := by rw [aborting]; rfl
      obtain ⟨phase, plan, participants⟩ := transition_state_of_allows now edge
      exact ⟨plan, participants, by rw [phase]; exact .stop aborting⟩
    · exact .refl g

/-- Every controller operation is an `Effect`. -/
theorem apply_effect (op : ControllerOp) : Effect g (op.apply g).state := by
  by_cases reports : ∃ report now, op = .recordParticipant report now
  · obtain ⟨report, now, rfl⟩ := reports
    exact recordParticipant_effect report now
  · push Not at reports
    exact (apply_moved op reports).effect

end Operations

/-! ## The bounds are kept -/

theorem installed_bounds (plan agentOwners instanceOwners now) :
    PhaseBounds (.installed plan agentOwners instanceOwners now) where
  recorded := by
    intro _ _ pe report found
    exact absurd found (by simp [GenerationState.installed])
  complete := by
    intro started
    exact absurd rfl started

theorem allowedPhases_subset_admits {phase : GenerationPhase} {next : ParticipantPhase}
    (live : phase ≠ .aborting) (allowed : next ∈ allowedPhases phase) : next ∈ admits phase := by
  revert live allowed
  cases phase <;> cases next <;> decide

/-- Committing a report keeps the bounds of the phase it was committed in. -/
theorem Committed.bounds {g : GenerationState} {report : ParticipantReport} (committed : Committed g report)
    (bounds : PhaseBounds g) : PhaseBounds { g with participants := g.participants.insert report.pe report } where
  recorded := by
    intro live unstopped pe found lookup
    by_cases same : pe = report.pe
    · subst same
      rw [AList.lookup_insert] at lookup
      obtain rfl := Option.some.inj lookup
      by_cases changed : ∀ old, g.participants.lookup report.pe = some old → report.phase ≠ old.phase
      · exact allowedPhases_subset_admits live (committed.allowed changed)
      · push Not at changed
        obtain ⟨old, before, phase⟩ := changed
        rw [phase]
        exact bounds.recorded live unstopped _ _ before
    · rw [AList.lookup_insert_ne same] at lookup
      exact bounds.recorded live unstopped _ _ lookup
  complete := by
    intro started live unstopped pe known
    by_cases same : pe = report.pe
    · subst same
      exact ⟨report, AList.lookup_insert _⟩
    · obtain ⟨old, before⟩ := bounds.complete started live unstopped pe known
      exact ⟨old, by rw [AList.lookup_insert_ne same]; exact before⟩

/-- Moving the phase keeps the bounds. -/
theorem PhaseMove.bounds {g g' : GenerationState} (move : PhaseMove g g'.phase) (plan : g'.plan = g.plan)
    (participants : g'.participants = g.participants) (bounds : PhaseBounds g) : PhaseBounds g' := by
  have count : g'.peCount = g.peCount := by simp only [GenerationState.peCount, plan]
  generalize after : g'.phase = phase at move
  cases move with
  | stay =>
    constructor
    · rw [after, participants]; exact bounds.recorded
    · rw [after, participants, count]; exact bounds.complete
  | abort =>
    constructor
    · intro live; exact absurd after live
    · intro _ live; exact absurd after live
  | quiesce executable =>
    have recorded := bounds.recorded (by simp [executable]) (by simp [executable])
    have complete := bounds.complete (by simp [executable]) (by simp [executable]) (by simp [executable])
    constructor
    · intro _ _ pe report found
      rw [participants] at found
      have := recorded pe report found
      rw [executable] at this
      rw [after]
      revert this
      cases report.phase <;> decide
    · intro _ _ _
      rw [participants, count]
      exact complete
  | stop _ =>
    constructor
    · intro _ unstopped; exact absurd after unstopped
    · intro _ _ unstopped; exact absurd after unstopped
  | pass unanimous next opens complete agree =>
    constructor
    · intro _ unstopped pe report found
      rw [participants] at found
      rw [agree pe report found, after]
      rw [after] at unstopped
      revert opens unstopped
      cases g.phase <;> simp only [barrier, Option.some.injEq, Prod.mk.injEq, reduceCtorEq, false_implies, and_imp] <;>
        rintro rfl rfl <;> decide
    · intro _ _ _
      rw [participants, count]
      exact complete

/-- One operation keeps the bounds. -/
theorem Effect.bounds {g g' : GenerationState} (effect : Effect g g') (bounds : PhaseBounds g) : PhaseBounds g' := by
  have middle : PhaseBounds { g with participants := g'.participants } := by
    rcases effect.participants with same | ⟨report, committed, inserted⟩
    · rw [same]; exact bounds
    · rw [inserted]; exact committed.bounds bounds
  exact effect.phase.bounds effect.plan rfl middle

/-- In every reachable state the generation phase bounds the recorded phases. -/
theorem reachable_bounds {g : GenerationState} (reached : controller.Reachable g) : PhaseBounds g := by
  refine System.ReachableUnder.invariant ?_ ?_ reached
  · rintro s ⟨plan, agentOwners, instanceOwners, now, rfl⟩
    exact installed_bounds plan agentOwners instanceOwners now
  · rintro s op t - bounds - rfl
    exact (apply_effect op).bounds bounds

/-! ## Recorded phases never go back -/

/-- Every PE recorded in `g` is recorded in `g'` with the same or a later phase. -/
structure Climbs (g g' : GenerationState) : Prop where
  plan : g'.plan = g.plan
  recorded : ∀ pe report, g.participants.lookup pe = some report →
    ∃ later, g'.participants.lookup pe = some later ∧ report.phase.rank ≤ later.phase.rank

theorem Climbs.refl (g : GenerationState) : Climbs g g :=
  ⟨rfl, fun _ report found => ⟨report, found, le_rfl⟩⟩

theorem Climbs.trans {g₁ g₂ g₃ : GenerationState} (first : Climbs g₁ g₂) (second : Climbs g₂ g₃) : Climbs g₁ g₃ where
  plan := second.plan.trans first.plan
  recorded := by
    intro pe report found
    obtain ⟨middle, found₂, le₂⟩ := first.recorded pe report found
    obtain ⟨last, found₃, le₃⟩ := second.recorded pe middle found₂
    exact ⟨last, found₃, le₂.trans le₃⟩

theorem Effect.climbs {g g' : GenerationState} (effect : Effect g g') : Climbs g g' where
  plan := effect.plan
  recorded := by
    intro pe report found
    rcases effect.participants with same | ⟨new, committed, inserted⟩
    · exact ⟨report, by rw [same]; exact found, le_rfl⟩
    · rw [inserted]
      by_cases here : pe = new.pe
      · subst here
        refine ⟨new, AList.lookup_insert _, ?_⟩
        rcases committed.edge report found with phase | edge
        · rw [phase]
        · exact (ParticipantPhase.rank_lt_of_allows edge).le
      · exact ⟨report, by rw [AList.lookup_insert_ne here]; exact found, le_rfl⟩

theorem later_climbs {g g' : GenerationState} (reached : controller.Reachable g) (later : controller.Later g g') :
    Climbs g g' := by
  refine System.LaterUnder.relation Climbs.refl (fun _ _ _ => Climbs.trans) ?_ reached later
  rintro s op t - rfl
  exact (apply_effect op).climbs

/-! ## The collective calls of an Agent -/

/-- The barrier every PE must have passed before a collective native call. -/
def NativeCall.after : NativeCall → Option ParticipantPhase
  | .join => some .joinReady
  | .activate => some .executionReady
  | .drain => some .quiesced
  | .finalize => some .drained
  | .prepareExecution | .quiesce => none

/-- A collective call outside fail-stop cleanup is made in a phase whose bound is
at or past the call's barrier. -/
theorem call_admits {phase : GenerationPhase} {report : Option ParticipantPhase} {turn : LifecycleTurn}
    {call : NativeCall} {passed : ParticipantPhase} (acts : lifecycle phase report = some turn)
    (calls : turn.call = some call) (before : call.after = some passed) (live : phase ≠ .aborting) :
    phase ≠ .preparingJoin ∧ phase ≠ .stopped ∧ ∀ recorded ∈ admits phase, passed.rank ≤ recorded.rank := by
  unfold lifecycle at acts
  split at acts <;> first | contradiction | skip
  all_goals
    obtain rfl := Option.some.inj acts
    simp only [Option.some.injEq, reduceCtorEq] at calls
  all_goals
    obtain rfl := calls
    simp only [NativeCall.after, Option.some.injEq, reduceCtorEq] at before
  all_goals
    subst before
    decide

/-- The generation phase bounds every PE's recorded phase in every reachable
state, and an Agent that acts on a phase published in such a state, at any later
moment, starts native join, activation, drain or finalization only when every PE
has passed the barrier before it. Fail-stop cleanup waits for no barrier. -/
theorem barrier_sound {g : GenerationState} (reached : controller.Reachable g) :
    PhaseBounds g ∧
      ∀ g', controller.Later g g' → ∀ report turn call passed, lifecycle g.phase report = some turn →
        turn.call = some call → call.after = some passed → g.phase ≠ .aborting →
          ∀ pe < g'.peCount, ∃ recorded, g'.participants.lookup pe = some recorded ∧
            passed.rank ≤ recorded.phase.rank := by
  have bounds := reachable_bounds reached
  refine ⟨bounds, ?_⟩
  intro g' later report turn call passed acts calls before live pe known
  obtain ⟨started, unstopped, admitted⟩ := call_admits acts calls before live
  have climbs := later_climbs reached later
  have same : g'.peCount = g.peCount := by simp only [GenerationState.peCount, climbs.plan]
  obtain ⟨recorded, found⟩ := bounds.complete started live unstopped pe (same ▸ known)
  obtain ⟨last, lastFound, le⟩ := climbs.recorded pe recorded found
  exact ⟨last, lastFound, (admitted _ (bounds.recorded live unstopped pe recorded found)).trans le⟩

/-- A generation of two PEs whose second `join_ready` report has just opened the
join. -/
def joinOpened : GenerationState :=
  let plan : DeploymentPlan := ⟨⟨0, 1⟩, [⟨.atnAgent, 0⟩, ⟨.ffnAgent, 1⟩]⟩
  let ready (pe : Nat) : ParticipantReport := { owner := ⟨pe + 1, 1⟩, generation := ⟨0, 1⟩, pe := pe, phase := .joinReady }
  ((((GenerationState.installed plan ∅ ∅ 0).recordParticipant (ready 0) 1).state).recordParticipant (ready 1) 2).state

theorem joinOpened_reachable : controller.Reachable joinOpened := by
  refine System.Reachable.step (a := .recordParticipant _ 2) (System.Reachable.step (a := .recordParticipant _ 1)
    (.start ⟨_, _, _, _, rfl⟩) rfl) rfl

theorem barrier_sound_joinOpened :
    joinOpened.phase = .joining ∧ PhaseBounds joinOpened ∧
      ∀ g', controller.Later joinOpened g' → ∀ pe < g'.peCount, ∃ recorded,
        g'.participants.lookup pe = some recorded ∧ ParticipantPhase.joinReady.rank ≤ recorded.phase.rank := by
  have opened : joinOpened.phase = .joining := by decide
  refine ⟨opened, (barrier_sound joinOpened_reachable).1, fun g' later => ?_⟩
  refine (barrier_sound joinOpened_reachable).2 g' later (some .joining) ⟨some .join, .joined⟩ .join .joinReady ?_ rfl rfl ?_
  · rw [opened]; rfl
  · rw [opened]; decide

/-! ## Fail-stop cleanup -/

/-- What a PE of the generation reports. -/
def joinReport (pe : Nat) (phase : ParticipantPhase) : ParticipantReport :=
  { owner := ⟨pe + 1, 1⟩, generation := ⟨0, 1⟩, pe := pe, phase := phase }

/-- The first PE joins, the generation is aborted, and the PE quiesces. -/
def abortedOperations : List ControllerOp :=
  [.recordParticipant (joinReport 0 .joining) 3, .recordParticipant (joinReport 0 .joined) 4, .abort 5,
    .recordParticipant (joinReport 0 .quiesced) 6]

/-- The second PE has reported no more than that it is ready to join. -/
def abortedJoin : GenerationState :=
  abortedOperations.foldl (fun g op => (op.apply g).state) joinOpened

theorem abortedJoin_reachable : controller.Reachable abortedJoin := by
  have runs : ∀ (ops : List ControllerOp) (g : GenerationState), controller.Reachable g →
      controller.Reachable (ops.foldl (fun g op => (op.apply g).state) g) := by
    intro ops
    induction ops with
    | nil => exact fun g reached => reached
    | cons op ops ih => exact fun g reached => ih _ (reached.step (a := op) rfl)
  exact runs abortedOperations joinOpened joinOpened_reachable

/-- An Agent that has quiesced in an aborted generation drains, though the other PE is
only ready to join. -/
theorem abort_drains_early :
    controller.Reachable abortedJoin ∧ abortedJoin.phase = .aborting ∧
      (abortedJoin.participants.lookup 0).map (·.phase) = some .quiesced ∧
      (abortedJoin.participants.lookup 1).map (·.phase) = some .joinReady ∧
      ¬ ∀ g', controller.Later abortedJoin g' → ∀ report turn call passed, lifecycle abortedJoin.phase report = some turn →
        turn.call = some call → call.after = some passed →
          ∀ pe < g'.peCount, ∃ recorded, g'.participants.lookup pe = some recorded ∧
            passed.rank ≤ recorded.phase.rank := by
  have aborting : abortedJoin.phase = .aborting := by decide +kernel
  have other : (abortedJoin.participants.lookup 1).map (·.phase) = some .joinReady := by decide +kernel
  refine ⟨abortedJoin_reachable, aborting, by decide +kernel, other, ?_⟩
  intro all
  obtain ⟨recorded, found, passed⟩ :=
    all abortedJoin (.refl abortedJoin) (some .quiesced) ⟨some .drain, .draining⟩ .drain .quiesced (by rw [aborting]; rfl) rfl rfl 1
      (by decide +kernel)
  rw [found] at other
  have ready : recorded.phase = .joinReady := Option.some.inj other
  rw [ready] at passed
  exact absurd passed (by decide +kernel)

end CrossPool.Control
