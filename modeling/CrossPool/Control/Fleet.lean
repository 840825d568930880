import CrossPool.Control.Retirement

/-!
# All Agents of a generation

The daemon's controller together with one honest Agent for each PE. An Agent acts
on the phase of its last heartbeat, which may be stale, and retries each report
until an acknowledgement arrives; the daemon may commit a report any number of
times before. The native failure is canonical: once published it stays the same
for all PEs.

As long as the generation is neither ABORTING nor STOPPED, an Agent that is not
sending has the report the daemon recorded, and a report under way is recorded or
passes every check now. A phase that an Agent acts on is never behind the
daemon's: the barrier cannot have opened without that very Agent.
-/

namespace CrossPool.Control

open CrossPool.Lib

/-- One Agent: its last acknowledged report, the report it is sending, the
heartbeat answer under way, and the phase it acts on. -/
structure HonestAgent where
  last : Option ParticipantReport
  sending : Option ParticipantReport
  answer : GenerationPhase
  view : GenerationPhase

/-- The daemon, the canonical native failure, and the Agents by PE. -/
structure Fleet where
  daemon : GenerationState
  canonical : Option InvocationFailure
  agents : Nat → HonestAgent

/-- What can happen next. -/
inductive FleetStep where
  | daemon (op : ControllerOp)
  | publish (failure : InvocationFailure)
  | answer (pe : Nat)
  | consume (pe : Nat)
  | advance (pe : Nat)
  | reportInvocationFailure (pe : Nat)
  | reportControlFailure (pe : Nat) (message : String)
  | deliver (pe : Nat) (now : Nat)
  | acknowledge (pe : Nat)

namespace Fleet

/-- Write to one Agent. -/
def setAgent (s : Fleet) (pe : Nat) (agent : HonestAgent) : Fleet :=
  { s with agents := Function.update s.agents pe agent }

/-- The Agent of a PE as it identifies itself in reports. -/
def identity (owners : Nat → ProcessRef) (s : Fleet) (pe : Nat) : AgentIdentity :=
  ⟨owners pe, s.daemon.plan.generation, pe⟩

/-- The steps of daemon and Agents. Quiesce requests are daemon operations; only
Agents report. -/
inductive Step (owners : Nat → ProcessRef) : Fleet → FleetStep → Fleet → Prop where
  | daemon {s : Fleet} (op : ControllerOp) : (∀ report now, op ≠ .recordParticipant report now) →
      Step owners s (.daemon op) { s with daemon := (op.apply s.daemon).state }
  | publish {s : Fleet} (failure : InvocationFailure) : s.canonical = none →
      Step owners s (.publish failure) { s with canonical := some failure }
  | answer {s : Fleet} (pe : Nat) : pe < s.daemon.peCount →
      Step owners s (.answer pe) (s.setAgent pe { s.agents pe with answer := s.daemon.phase })
  | consume {s : Fleet} (pe : Nat) : pe < s.daemon.peCount →
      Step owners s (.consume pe) (s.setAgent pe { s.agents pe with view := (s.agents pe).answer })
  | advance {s : Fleet} (pe : Nat) (turn : LifecycleTurn) : pe < s.daemon.peCount → (s.agents pe).sending = none →
      lifecycle (s.agents pe).view ((s.agents pe).last.map (·.phase)) = some turn →
      Step owners s (.advance pe) (s.setAgent pe
        { s.agents pe with sending := some ((s.identity owners pe).candidate (s.agents pe).last turn.report none none) })
  | reportInvocationFailure {s : Fleet} (pe : Nat) (failure : InvocationFailure) (report : ParticipantReport) :
      pe < s.daemon.peCount → (s.agents pe).sending = none → s.canonical = some failure →
      (s.agents pe).last = some report → report.phase ≠ .joinReady → report.phase ≠ .joining →
      report.phase ≠ .finalized → report.invocationFailure ≠ some failure →
      Step owners s (.reportInvocationFailure pe) (s.setAgent pe { s.agents pe with
        sending := some ((s.identity owners pe).candidate (s.agents pe).last report.phase (some failure) none) })
  | reportControlFailure {s : Fleet} (pe : Nat) (message : String) (report : ParticipantReport) :
      pe < s.daemon.peCount → (s.agents pe).sending = none → (s.agents pe).last = some report →
      report.controlFailure = none → message ≠ "" →
      Step owners s (.reportControlFailure pe message) (s.setAgent pe { s.agents pe with
        sending := some ((s.identity owners pe).candidate (s.agents pe).last report.phase none (some message)) })
  -- A conflict is not recoverable: the Agent raises and stops sending that report.
  | deliver {s : Fleet} (pe now : Nat) (report : ParticipantReport) : pe < s.daemon.peCount →
      (s.agents pe).sending = some report →
      Step owners s (.deliver pe now)
        { s.setAgent pe { s.agents pe with
            sending := if (s.daemon.recordParticipant report now).error = none then some report else none } with
          daemon := (s.daemon.recordParticipant report now).state }
  | acknowledge {s : Fleet} (pe : Nat) (report : ParticipantReport) : pe < s.daemon.peCount →
      (s.agents pe).sending = some report → s.daemon.participants.lookup pe = some report →
      Step owners s (.acknowledge pe) (s.setAgent pe { s.agents pe with last := some report, sending := none })

end Fleet

/-- The Agents of an installed generation, before their first reports. An Agent
that acquires the plan acts on PREPARING_JOIN. -/
def fleet (owners : Nat → ProcessRef) : System Fleet FleetStep where
  init s := (∃ plan agentOwners instanceOwners now, s.daemon = .installed plan agentOwners instanceOwners now) ∧
    s.canonical = none ∧ ∀ pe, s.agents pe = ⟨none, none, .preparingJoin, .preparingJoin⟩
  step := Fleet.Step owners

/-! ## The order of generation phases -/

namespace GenerationPhase

/-- Position of a generation phase; both ends of a failed generation are last. -/
def rank : GenerationPhase → Nat
  | preparingJoin => 0
  | joining => 1
  | preparingExecution => 2
  | activating => 3
  | executable => 4
  | quiescing => 5
  | draining => 6
  | finalizing => 7
  | aborting => 8
  | stopped => 8

/-- ABORTING and STOPPED. -/
def ended (phase : GenerationPhase) : Prop :=
  phase = .aborting ∨ phase = .stopped

/-- The phases of an orderly retirement. -/
def retiring (phase : GenerationPhase) : Prop :=
  phase = .quiescing ∨ phase = .draining ∨ phase = .finalizing

instance (phase : GenerationPhase) : Decidable phase.ended :=
  inferInstanceAs (Decidable (_ ∨ _))

instance (phase : GenerationPhase) : Decidable phase.retiring :=
  inferInstanceAs (Decidable (_ ∨ _))

end GenerationPhase

section Moves

variable {g g' : GenerationState} {next : GenerationPhase}

theorem PhaseMove.rank_le (move : PhaseMove g next) : g.phase.rank ≤ next.rank := by
  have bound (phase : GenerationPhase) : phase.rank ≤ GenerationPhase.aborting.rank := by cases phase <;> decide
  cases move with
  | stay => exact le_rfl
  | abort => exact bound _
  | quiesce executable => rw [executable]; decide
  | stop aborting => rw [aborting]; decide
  | pass unanimous next opens =>
    revert opens
    cases g.phase <;> simp only [barrier, Option.some.injEq, Prod.mk.injEq, reduceCtorEq, false_implies, and_imp] <;>
      rintro - rfl <;> decide

/-- ABORTING and STOPPED are never left. -/
theorem PhaseMove.ended (move : PhaseMove g next) (ended : g.phase.ended) : next.ended := by
  cases move with
  | stay => exact ended
  | abort => exact Or.inl rfl
  | quiesce executable => rw [executable] at ended; rcases ended with h | h <;> cases h
  | stop => exact Or.inr rfl
  | pass unanimous next opens => rcases ended with h | h <;> rw [h] at opens <;> cases opens

/-- An orderly retirement goes on until it is over. -/
theorem PhaseMove.retiring (move : PhaseMove g next) (retiring : g.phase.retiring) : next.retiring ∨ next.ended := by
  cases move with
  | stay => exact Or.inl retiring
  | abort => exact Or.inr (Or.inl rfl)
  | quiesce executable => exact Or.inl (Or.inl rfl)
  | stop => exact Or.inr (Or.inr rfl)
  | pass unanimous next opens =>
    revert opens
    rcases retiring with h | h | h <;> rw [h] <;> simp only [barrier, Option.some.injEq, Prod.mk.injEq, and_imp] <;>
      rintro - rfl <;> decide

theorem barrier_not_aborting {phase next : GenerationPhase} {unanimous : ParticipantPhase}
    (opens : barrier phase = some (unanimous, next)) : next ≠ .aborting := by
  revert opens
  cases phase <;> simp only [barrier, Option.some.injEq, Prod.mk.injEq, reduceCtorEq, false_implies, and_imp] <;>
    rintro - rfl <;> decide

end Moves

/-! ## Failure slots -/

section Failures

variable {g : GenerationState} {now : Nat}

/-- Both failure slots are as in `g`. -/
def SameFailures (g g' : GenerationState) : Prop :=
  g'.controlFailure = g.controlFailure ∧ g'.invocationFailure = g.invocationFailure

theorem transition_failures (phase : GenerationPhase) : SameFailures g (g.transition phase now).state := by
  unfold GenerationState.transition
  split
  · exact ⟨rfl, rfl⟩
  split
  · exact ⟨rfl, rfl⟩
  · exact ⟨rfl, rfl⟩

theorem abort_failures : SameFailures g (g.abort now).state := by
  unfold GenerationState.abort
  split
  · exact ⟨rfl, rfl⟩
  · exact transition_failures _

theorem quiesce_failures : SameFailures g (g.quiesce now).state := by
  unfold GenerationState.quiesce
  split
  any_goals exact transition_failures _
  all_goals exact ⟨rfl, rfl⟩

theorem advanceBarrier_failures : SameFailures g (g.advanceBarrier now).state := by
  unfold GenerationState.advanceBarrier
  split
  · exact ⟨rfl, rfl⟩
  split
  · split
    · exact transition_failures _
    · exact ⟨rfl, rfl⟩
  · exact ⟨rfl, rfl⟩

/-- No operation but a report writes these slots. -/
theorem apply_failures (op : ControllerOp) (quiet : ∀ report now, op ≠ .recordParticipant report now) :
    SameFailures g (op.apply g).state := by
  cases op with
  | recordInitialized instanceRank owner generation =>
    simp only [ControllerOp.apply, GenerationState.recordInitialized]
    split
    · exact ⟨rfl, rfl⟩
    split
    · exact ⟨rfl, rfl⟩
    split
    · exact ⟨rfl, rfl⟩
    · exact ⟨rfl, rfl⟩
  | recordParticipant report now => exact absurd rfl (quiet report now)
  | instanceDeparted instanceRank failure leasesQuiescing now =>
    simp only [ControllerOp.apply, GenerationState.instanceDeparted]
    split
    · exact ⟨rfl, rfl⟩
    split
    · exact ⟨rfl, rfl⟩
    · refine ⟨quiesce_failures.1.trans ?_, quiesce_failures.2.trans ?_⟩
      all_goals
        unfold GenerationState.recordOwnerFailure
        split
        · rfl
        · rfl
  | quiesce now => exact quiesce_failures
  | abort now => exact abort_failures
  | stop now =>
    simp only [ControllerOp.apply]
    split
    · exact transition_failures _
    · exact ⟨rfl, rfl⟩

/-- A quiesce request aborts exactly a generation that is not yet executable. -/
theorem quiesce_aborting (live : ¬ g.phase.ended) (aborts : (g.quiesce now).state.phase = .aborting) :
    g.phase.preExecutable := by
  revert aborts
  unfold GenerationState.quiesce
  split
  any_goals
    rename_i phase
    rw [phase]
    exact fun _ => rfl
  all_goals
    rename_i phase
    intro aborts
  · rw [(transition_state_of_allows now (by rw [phase]; rfl)).1] at aborts
    cases aborts
  all_goals
    rw [Outcome.ok_state] at aborts
    exact absurd (Or.inl aborts) live

/-- What recording a report leaves in the failure slots, if no control failure
was there and its invocation failure is the recorded one or the first. -/
theorem noteReport_failures {report : ParticipantReport} (clean : g.controlFailure = none)
    (canonical : ∀ failure, report.invocationFailure = some failure →
      g.invocationFailure = none ∨ g.invocationFailure = some failure) :
    (g.noteReport report).controlFailure = report.controlFailure ∧
      (g.noteReport report).invocationFailure = g.invocationFailure.or report.invocationFailure := by
  unfold GenerationState.noteReport
  cases invocation : report.invocationFailure with
  | none =>
    cases report.controlFailure with
    | none => simp [clean]
    | some message => simp [GenerationState.recordControlFailure, clean]
  | some failure =>
    rcases canonical failure invocation with first | same
    · cases report.controlFailure with
      | none => simp [GenerationState.recordInvocationFailure, first, clean]
      | some message => simp [GenerationState.recordInvocationFailure, GenerationState.recordControlFailure, first, clean]
    · cases report.controlFailure with
      | none => simp [GenerationState.recordInvocationFailure, same, clean]
      | some message => simp [GenerationState.recordInvocationFailure, GenerationState.recordControlFailure, same, clean]

/-- A generation in service or in orderly retirement: no control failure, and an
invocation failure only once it retires. -/
structure Orderly (g : GenerationState) : Prop where
  control : g.controlFailure = none
  invocation : g.invocationFailure ≠ none → g.phase.retiring

theorem Orderly.move {g' : GenerationState} (orderly : Orderly g) (failures : SameFailures g g') (move : PhaseMove g g'.phase)
    (live : ¬ g'.phase.ended) : Orderly g' where
  control := failures.1.trans orderly.control
  invocation := by
    intro failed
    rw [failures.2] at failed
    exact (move.retiring (orderly.invocation failed)).resolve_right live

/-- What applying the recorded reports does to a generation whose only new
failures are those of one report. -/
theorem applyReports_orderly (now : Nat) (live : ¬ g.phase.ended) :
    ((g.applyReports now).state.phase = .aborting →
      g.controlFailure ≠ none ∨ g.invocationFailure ≠ none ∧ g.phase.preExecutable) ∧
    (¬ (g.applyReports now).state.phase.ended → Orderly (g.applyReports now).state ∧
      SameFailures g (g.applyReports now).state) := by
  unfold GenerationState.applyReports
  split
  · rename_i failed
    refine ⟨fun _ => Or.inl failed, fun unfinished => absurd ?_ unfinished⟩
    unfold GenerationState.abort
    split
    · rename_i ended
      exact ended
    · rename_i active
      left
      exact (transition_state_of_allows now (allows_aborting (fun h => active (Or.inl h)) fun h => active (Or.inr h))).1
  rename_i clean
  rw [not_not] at clean
  split
  · rename_i failed
    refine ⟨fun aborts => Or.inr ⟨failed.1, quiesce_aborting live aborts⟩, fun unfinished => ⟨⟨?_, fun _ => ?_⟩, quiesce_failures⟩⟩
    · exact quiesce_failures.1.trans clean
    · obtain ⟨failed, unquiet, undrained, unfinal⟩ := failed
      revert unfinished
      unfold GenerationState.quiesce
      split
      any_goals
        rename_i phase
        rw [(transition_state_of_allows now (allows_aborting (by simp [phase]) (by simp [phase]))).1]
        exact fun unfinished => absurd (Or.inl rfl) unfinished
      · rename_i executable
        rw [(transition_state_of_allows now (by rw [executable]; rfl)).1]
        exact fun _ => Or.inl rfl
      all_goals
        rename_i phase
        rw [Outcome.ok_state, phase]
      · exact absurd phase unquiet
      · exact absurd phase undrained
      · exact absurd phase unfinal
      · exact fun unfinished => absurd (Or.inl rfl) unfinished
      · exact fun unfinished => absurd (Or.inr rfl) unfinished
  · rename_i quiet
    have retires (failed : g.invocationFailure ≠ none) : g.phase.retiring := by
      by_contra serving
      unfold GenerationPhase.retiring at serving
      tauto
    refine ⟨?_, fun unfinished => ⟨?_, advanceBarrier_failures⟩⟩
    · intro aborts
      exfalso
      revert aborts
      unfold GenerationState.advanceBarrier
      split
      · exact fun aborting => live (Or.inl aborting)
      split
      · rename_i opens
        split
        · rw [(transition_state_of_allows now (barrier_allows opens)).1]
          exact barrier_not_aborting opens
        · exact fun aborting => live (Or.inl aborting)
      · exact fun aborting => live (Or.inl aborting)
    · exact Orderly.move ⟨clean, retires⟩ advanceBarrier_failures (advanceBarrier_moved now).phase unfinished

end Failures

/-! ## Reports in time -/

section Reports

variable {g : GenerationState} {report : ParticipantReport}

/-- A turn that an Agent takes on a phase the daemon had is still the one that
the daemon waits for, as long as the phase admits what it recorded. -/
theorem lifecycle_timely {view phase : GenerationPhase} {recorded : ParticipantPhase} {turn : LifecycleTurn}
    (acts : lifecycle view (some recorded) = some turn) (stale : view.rank ≤ phase.rank) (admitted : recorded ∈ admits phase) :
    recorded.allows turn.report false ∧ turn.report ∈ allowedPhases phase := by
  revert stale admitted
  generalize held : some recorded = last at acts
  unfold lifecycle at acts
  split at acts
  all_goals first | contradiction | skip
  all_goals
    obtain rfl := Option.some.inj held
    obtain rfl := Option.some.inj acts
    cases phase <;> decide

/-- A report on the way to the daemon, which has recorded `last` for its PE. -/
structure Proposed (g : GenerationState) (last : Option ParticipantReport) (report : ParticipantReport) : Prop where
  enriches : ∀ old, last = some old → (old.invocationFailure ≠ none → report.invocationFailure = old.invocationFailure) ∧
    (old.controlFailure ≠ none → report.controlFailure = old.controlFailure)
  phase : (∃ old, last = some old ∧ report.phase = old.phase) ∨
    ∃ view turn, lifecycle view (last.map (·.phase)) = some turn ∧ report.phase = turn.report ∧ view.rank ≤ g.phase.rank

theorem Proposed.mono {g' : GenerationState} {last : Option ParticipantReport} (proposed : Proposed g last report)
    (later : g.phase.rank ≤ g'.phase.rank) : Proposed g' last report where
  enriches := proposed.enriches
  phase := by
    rcases proposed.phase with same | ⟨view, turn, acts, reports, stale⟩
    · exact Or.inl same
    · exact Or.inr ⟨view, turn, acts, reports, stale.trans later⟩

/-- A report under way passes every check. -/
theorem Proposed.acceptable (proposed : Proposed g (g.participants.lookup report.pe) report) (bounds : PhaseBounds g)
    (live : ¬ g.phase.ended) (known : report.pe < g.peCount) : Acceptable g report := by
  have unaborted : g.phase ≠ .aborting := fun h => live (Or.inl h)
  have unstopped : g.phase ≠ .stopped := fun h => live (Or.inr h)
  cases recorded : g.participants.lookup report.pe with
  | none =>
    rcases proposed.phase with ⟨old, found, -⟩ | ⟨view, turn, acts, reports, -⟩
    · rw [recorded] at found
      cases found
    · have joining : g.phase = .preparingJoin := by
        by_contra passed
        obtain ⟨old, found⟩ := bounds.complete passed unaborted unstopped report.pe known
        rw [recorded] at found
        cases found
      have ready : report.phase = .joinReady := by
        rw [recorded, Option.map_none] at acts
        rw [reports]
        revert acts
        cases view <;> simp only [lifecycle, Option.some.injEq, reduceCtorEq, false_implies]
        rintro rfl
        rfl
      unfold Acceptable
      simp [recorded, joining, ready, edgeRejection, validateEnrichment, allowedPhases]
  | some old =>
    rw [acceptable_over recorded]
    refine ⟨?_, proposed.enriches old recorded⟩
    rcases proposed.phase with ⟨same, found, phase⟩ | ⟨view, turn, acts, reports, stale⟩
    · obtain rfl := Option.some.inj (found.symm.trans recorded)
      exact Or.inl phase
    · right
      rw [recorded, Option.map_some] at acts
      have fits := lifecycle_timely acts stale (bounds.recorded unaborted unstopped _ old recorded)
      rw [reports]
      simpa [unaborted] using fits

end Reports

/-! ## Agents and daemon -/

/-- One Agent against the daemon: the phases it holds are not ahead, what it last
sent is recorded or under way, and its failure is the canonical one. -/
structure InStep (g : GenerationState) (canonical : Option InvocationFailure) (pe : Nat) (agent : HonestAgent) : Prop where
  view : agent.view.rank ≤ agent.answer.rank
  answer : agent.answer.rank ≤ g.phase.rank
  idle : agent.sending = none → g.participants.lookup pe = agent.last
  identity : ∀ report, agent.sending = some report → report.pe = pe ∧ report.generation = g.plan.generation
  sending : ∀ report, agent.sending = some report → g.participants.lookup pe = some report ∨
    g.participants.lookup pe = agent.last ∧ Proposed g agent.last report
  lastFailure : ∀ failure, agent.last.bind (·.invocationFailure) = some failure → canonical = some failure
  sentFailure : ∀ report failure, agent.sending = some report → report.invocationFailure = some failure →
    canonical = some failure

/-- A generation that is not over, with Agents in step. -/
structure Healthy (s : Fleet) : Prop where
  bounds : PhaseBounds s.daemon
  orderly : Orderly s.daemon
  canonical : ∀ failure, s.daemon.invocationFailure = some failure → s.canonical = some failure
  agents : ∀ pe < s.daemon.peCount, InStep s.daemon s.canonical pe (s.agents pe)

section Steps

variable {g g' : GenerationState} {canonical : Option InvocationFailure} {pe : Nat} {agent : HonestAgent}

/-- What happens elsewhere leaves an Agent in step. -/
theorem InStep.elsewhere (inStep : InStep g canonical pe agent) (plan : g'.plan = g.plan)
    (recorded : g'.participants.lookup pe = g.participants.lookup pe) (later : g.phase.rank ≤ g'.phase.rank) :
    InStep g' canonical pe agent where
  view := inStep.view
  answer := inStep.answer.trans later
  idle := fun none => recorded.trans (inStep.idle none)
  identity := by
    rw [plan]
    exact inStep.identity
  sending := by
    intro report sends
    rw [recorded]
    rcases inStep.sending report sends with arrived | ⟨before, proposed⟩
    · exact Or.inl arrived
    · exact Or.inr ⟨before, proposed.mono later⟩
  lastFailure := inStep.lastFailure
  sentFailure := inStep.sentFailure

/-- An idle Agent sends a report that it may propose. -/
theorem InStep.sends (inStep : InStep g canonical pe agent) (idle : agent.sending = none) {report : ParticipantReport}
    (identity : report.pe = pe ∧ report.generation = g.plan.generation) (proposed : Proposed g agent.last report)
    (failure : ∀ failure, report.invocationFailure = some failure → canonical = some failure) :
    InStep g canonical pe { agent with sending := some report } where
  view := inStep.view
  answer := inStep.answer
  idle := nofun
  identity := by
    rintro sent ⟨⟩
    exact identity
  sending := by
    rintro sent ⟨⟩
    exact Or.inr ⟨inStep.idle idle, proposed⟩
  lastFailure := inStep.lastFailure
  sentFailure := by
    rintro sent f ⟨⟩
    exact failure f

variable {s t : Fleet} {owners : Nat → ProcessRef}

/-- A report under way is accepted. -/
theorem Healthy.accepted (healthy : Healthy s) (live : ¬ s.daemon.phase.ended) (now : Nat) {pe : Nat} {report : ParticipantReport}
    (known : pe < s.daemon.peCount) (sends : (s.agents pe).sending = some report) :
    (s.daemon.recordParticipant report now).accepted ∧
      (s.daemon.participants.lookup pe = some report ∨ Acceptable s.daemon report) := by
  have inStep := healthy.agents pe known
  obtain ⟨rfl, generation⟩ := inStep.identity report sends
  have passes : s.daemon.participants.lookup report.pe = some report ∨ Acceptable s.daemon report := by
    rcases inStep.sending report sends with arrived | ⟨before, proposed⟩
    · exact Or.inl arrived
    · right
      rw [← before] at proposed
      exact proposed.acceptable healthy.bounds live known
  exact ⟨(recordParticipant_accepted_iff generation known fun h => live (Or.inr h)).mpr passes, passes⟩

/-- A committed report: the failure slots and the phase after it. -/
theorem Healthy.commits (healthy : Healthy s) (live : ¬ s.daemon.phase.ended) {pe now : Nat} {report : ParticipantReport}
    (known : pe < s.daemon.peCount) (sends : (s.agents pe).sending = some report) :
    ((s.daemon.recordParticipant report now).state.phase = .aborting →
      report.controlFailure ≠ none ∨ report.invocationFailure ≠ none ∧ s.daemon.phase.preExecutable) ∧
    (¬ (s.daemon.recordParticipant report now).state.phase.ended → Orderly (s.daemon.recordParticipant report now).state ∧
      ∀ failure, (s.daemon.recordParticipant report now).state.invocationFailure = some failure →
        s.canonical = some failure) := by
  have inStep := healthy.agents pe known
  obtain ⟨rfl, generation⟩ := inStep.identity report sends
  by_cases repeated : s.daemon.participants.lookup report.pe = some report
  · have same : (s.daemon.recordParticipant report now).state = s.daemon := by
      simp [GenerationState.recordParticipant, repeated]
    rw [same]
    exact ⟨fun aborting => absurd (Or.inl aborting) live, fun _ => ⟨healthy.orderly, healthy.canonical⟩⟩
  · have passes := (healthy.accepted live now known sends).2.resolve_left repeated
    have committed : s.daemon.recordParticipant report now = (s.daemon.noteReport report).applyReports now := by
      obtain ⟨edge, enriched, allowed⟩ := passes
      unfold GenerationState.recordParticipant
      simp only [repeated, generation, not_le.mpr known, edge, enriched, allowed, ne_eq, not_true_eq_false, if_false]
      exact if_neg fun stopped => live (Or.inr stopped)
    have agrees (failure : InvocationFailure) (carried : report.invocationFailure = some failure) :
        s.daemon.invocationFailure = none ∨ s.daemon.invocationFailure = some failure := by
      cases slot : s.daemon.invocationFailure with
      | none => exact Or.inl rfl
      | some first =>
        have canonical := healthy.canonical first slot
        rw [inStep.sentFailure report failure sends carried] at canonical
        exact Or.inr canonical.symm
    obtain ⟨control, invocation⟩ := noteReport_failures healthy.orderly.control agrees
    obtain ⟨-, -, phase⟩ := noteReport_same (g := s.daemon) report
    obtain ⟨aborts, continues⟩ := applyReports_orderly (g := s.daemon.noteReport report) now (by rwa [phase])
    rw [committed]
    constructor
    · intro aborting
      rcases aborts aborting with failed | ⟨failed, early⟩
      · exact Or.inl (control ▸ failed)
      · rw [phase] at early
        refine Or.inr ⟨?_, early⟩
        rw [invocation] at failed
        intro absent
        rw [absent, Option.or_none] at failed
        have retires := healthy.orderly.invocation failed
        rcases retires with h | h | h <;> rw [h] at early <;> cases early
    · intro unfinished
      obtain ⟨orderly, failures⟩ := continues unfinished
      refine ⟨orderly, fun failure slot => ?_⟩
      rw [failures.2, invocation, Option.or_eq_some_iff] at slot
      rcases slot with earlier | ⟨-, carried⟩
      · exact healthy.canonical failure earlier
      · exact inStep.sentFailure report failure sends carried

/-- A write to one Agent that leaves it in step. -/
theorem Healthy.setAgent (healthy : Healthy s) {pe : Nat} {agent : HonestAgent} (known : pe < s.daemon.peCount)
    (inStep : InStep s.daemon s.canonical pe agent) : Healthy (s.setAgent pe agent) where
  bounds := healthy.bounds
  orderly := healthy.orderly
  canonical := healthy.canonical
  agents := by
    intro other otherKnown
    simp only [Fleet.setAgent]
    by_cases here : other = pe
    · subst here
      rw [Function.update_self]
      exact inStep
    · rw [Function.update_of_ne here]
      exact healthy.agents other otherKnown

/-- Reports of an idle Agent that repeat the failures of its last one. -/
theorem candidate_enriches (agent : AgentIdentity) {last : Option ParticipantReport} {phase : ParticipantPhase}
    {invocation : Option InvocationFailure} {control : Option String}
    (newInvocation : invocation ≠ none → last.bind (·.invocationFailure) = none)
    (newControl : control ≠ none → last.bind (·.controlFailure) = none) (old : ParticipantReport) (held : last = some old) :
    (old.invocationFailure ≠ none →
      (agent.candidate last phase invocation control).invocationFailure = old.invocationFailure) ∧
    (old.controlFailure ≠ none → (agent.candidate last phase invocation control).controlFailure = old.controlFailure) := by
  subst held
  constructor
  · intro present
    cases invocation with
    | none => rfl
    | some failure => exact absurd (newInvocation nofun) present
  · intro present
    cases control with
    | none => rfl
    | some message => exact absurd (newControl nofun) present

/-- The daemon's step, given what it records for each PE. -/
theorem Healthy.daemon (healthy : Healthy s) (known : pe < s.daemon.peCount) (effect : Effect s.daemon g')
    (orderly : Orderly g') (failures : ∀ failure, g'.invocationFailure = some failure → s.canonical = some failure)
    (elsewhere : ∀ other < s.daemon.peCount, other ≠ pe →
      g'.participants.lookup other = s.daemon.participants.lookup other)
    (here : InStep g' s.canonical pe agent) : Healthy { s.setAgent pe agent with daemon := g' } where
  bounds := effect.bounds healthy.bounds
  orderly := orderly
  canonical := failures
  agents := by
    intro other otherKnown
    have count : g'.peCount = s.daemon.peCount := by simp only [GenerationState.peCount, effect.plan]
    simp only [Fleet.setAgent]
    by_cases same : other = pe
    · subst same
      rw [Function.update_self]
      exact here
    · rw [Function.update_of_ne same]
      have before := healthy.agents other (count ▸ otherKnown)
      exact before.elsewhere effect.plan (elsewhere other (count ▸ otherKnown) same) effect.phase.rank_le

/-- One step of a healthy generation. -/
theorem step_healthy {label : FleetStep} (healthy : Healthy s) (live : ¬ s.daemon.phase.ended)
    (step : Fleet.Step owners s label t) (unfinished : ¬ t.daemon.phase.ended) : Healthy t := by
  cases step with
  | daemon op quiet =>
    have moved := apply_moved (g := s.daemon) op quiet
    have failures := apply_failures (g := s.daemon) op quiet
    refine ⟨(apply_effect op).bounds healthy.bounds, healthy.orderly.move failures moved.phase unfinished, ?_, ?_⟩
    · intro failure slot
      exact healthy.canonical failure (failures.2.symm.trans slot)
    · intro pe known
      have count : (op.apply s.daemon).state.peCount = s.daemon.peCount := by
        simp only [GenerationState.peCount, moved.plan]
      exact (healthy.agents pe (count ▸ known)).elsewhere moved.plan (by rw [moved.participants]) moved.phase.rank_le
  | publish failure unpublished =>
    have never {slot : Option InvocationFailure} (published : ∀ f, slot = some f → s.canonical = some f) (f : InvocationFailure)
        (found : slot = some f) : some failure = some f := by
      have contradiction := published f found
      rw [unpublished] at contradiction
      cases contradiction
    refine ⟨healthy.bounds, healthy.orderly, never healthy.canonical, fun pe known => ?_⟩
    have inStep := healthy.agents pe known
    refine ⟨inStep.view, inStep.answer, inStep.idle, inStep.identity, inStep.sending, never inStep.lastFailure, ?_⟩
    exact fun report f sends => never (fun f => inStep.sentFailure report f sends) f
  | answer pe known =>
    have inStep := healthy.agents pe known
    refine healthy.setAgent known ⟨?_, le_rfl, inStep.idle, inStep.identity, inStep.sending, inStep.lastFailure,
      inStep.sentFailure⟩
    exact inStep.view.trans inStep.answer
  | consume pe known =>
    have inStep := healthy.agents pe known
    exact healthy.setAgent known ⟨le_rfl, inStep.answer, inStep.idle, inStep.identity, inStep.sending, inStep.lastFailure,
      inStep.sentFailure⟩
  | advance pe turn known idle acts =>
    have inStep := healthy.agents pe known
    refine healthy.setAgent known (inStep.sends idle ⟨rfl, rfl⟩ ⟨?_, Or.inr ?_⟩ inStep.lastFailure)
    · exact candidate_enriches _ (fun h => absurd rfl h) fun h => absurd rfl h
    · exact ⟨_, turn, acts, rfl, inStep.view.trans inStep.answer⟩
  | reportInvocationFailure pe failure report known idle published held _ _ _ fresh =>
    have inStep := healthy.agents pe known
    have absent : (s.agents pe).last.bind (·.invocationFailure) = none := by
      cases slot : (s.agents pe).last.bind (·.invocationFailure) with
      | none => rfl
      | some earlier =>
        have canonical := inStep.lastFailure earlier slot
        rw [published] at canonical
        obtain rfl := Option.some.inj canonical
        rw [held] at slot
        exact absurd slot fresh
    refine healthy.setAgent known (inStep.sends idle ⟨rfl, rfl⟩ ⟨?_, Or.inl ⟨report, held, rfl⟩⟩ ?_)
    · exact candidate_enriches _ (fun _ => absent) fun h => absurd rfl h
    · rintro f ⟨⟩
      exact published
  | reportControlFailure pe message report known idle held fresh _ =>
    have inStep := healthy.agents pe known
    refine healthy.setAgent known (inStep.sends idle ⟨rfl, rfl⟩ ⟨?_, Or.inl ⟨report, held, rfl⟩⟩ inStep.lastFailure)
    refine candidate_enriches _ (fun h => absurd rfl h) fun _ => ?_
    rw [held]
    exact fresh
  | deliver pe now report known sends =>
    have inStep := healthy.agents pe known
    obtain ⟨accepted, -⟩ := healthy.accepted live now known sends
    obtain ⟨orderly, failures⟩ := (healthy.commits live known sends).2 unfinished
    have effect := recordParticipant_effect (g := s.daemon) report now
    obtain ⟨samePe, generation⟩ := inStep.identity report sends
    have recorded : (s.daemon.recordParticipant report now).state.participants.lookup pe = some report := by
      rw [← samePe]
      exact recorded_of_accepted accepted
    rw [show (s.daemon.recordParticipant report now).error = none from accepted, if_pos rfl]
    refine healthy.daemon known effect orderly failures ?_ ⟨inStep.view, inStep.answer.trans effect.phase.rank_le, (by simp),
      ?_, ?_, inStep.lastFailure, ?_⟩
    · intro other _ apart
      rcases recordParticipant_participants (g := s.daemon) report now with ⟨-, ⟨same, -⟩ | ⟨inserted, -⟩⟩ | ⟨refused, -⟩
      · rw [same]
      · rw [inserted, samePe, AList.lookup_insert_ne apart]
      · exact absurd accepted refused
    · rintro sent ⟨⟩
      exact ⟨samePe, by rw [effect.plan]; exact generation⟩
    · rintro sent ⟨⟩
      exact Or.inl recorded
    · rintro sent failure ⟨⟩ carried
      exact inStep.sentFailure report failure sends carried
  | acknowledge pe report known sends recorded =>
    have inStep := healthy.agents pe known
    refine healthy.setAgent known ⟨inStep.view, inStep.answer, fun _ => recorded, (by simp), (by simp), ?_, (by simp)⟩
    exact fun failure carried => inStep.sentFailure report failure sends carried

theorem installed_healthy (start : (fleet owners).init s) : Healthy s := by
  obtain ⟨⟨plan, agentOwners, instanceOwners, now, installed⟩, unpublished, agents⟩ := start
  refine ⟨?_, ?_, ?_, ?_⟩
  all_goals rw [installed]
  · exact installed_bounds plan agentOwners instanceOwners now
  · exact ⟨rfl, fun failed => absurd rfl failed⟩
  · exact nofun
  · intro pe _
    rw [agents pe]
    exact ⟨le_rfl, le_rfl, fun _ => rfl, nofun, nofun, nofun, nofun⟩

/-- ABORTING and STOPPED last. -/
theorem step_over {label : FleetStep} (ended : s.daemon.phase.ended) (step : Fleet.Step owners s label t) :
    t.daemon.phase.ended := by
  cases step with
  | daemon op quiet => exact (apply_moved op quiet).phase.ended ended
  | deliver pe now report => exact (recordParticipant_effect report now).phase.ended ended
  | _ => exact ended

/-- The generation is over or healthy. -/
def HealthyUntilOver (s : Fleet) : Prop :=
  s.daemon.phase.ended ∨ Healthy s

/-- Honest Agents keep the generation healthy until it is over. -/
theorem reachable_healthy (reached : (fleet owners).Reachable s) : HealthyUntilOver s := by
  refine System.ReachableUnder.invariant ?_ ?_ reached
  · exact fun s start => Or.inr (installed_healthy start)
  · rintro s label t - before - step
    rcases before with ended | healthy
    · exact Or.inl (step_over ended step)
    · by_cases live : s.daemon.phase.ended
      · exact Or.inl (step_over live step)
      by_cases unfinished : t.daemon.phase.ended
      · exact Or.inl unfinished
      · exact Or.inr (step_healthy healthy live step unfinished)

end Steps

/-! ## Honest Agents are not rejected -/

/-- The steps that may send a generation in this state to ABORTING. -/
def Aborts (s : Fleet) : FleetStep → Prop
  | .daemon (.quiesce _) | .daemon (.instanceDeparted _ _ _ _) => s.daemon.phase.preExecutable
  | .daemon (.abort _) => True
  | .deliver pe _ => ∃ report, (s.agents pe).sending = some report ∧
      (report.controlFailure ≠ none ∨ report.invocationFailure ≠ none ∧ s.daemon.phase.preExecutable)
  | _ => False

theorem aborts_of_step {owners : Nat → ProcessRef} {s t : Fleet} {label : FleetStep} (healthy : Healthy s)
    (live : ¬ s.daemon.phase.ended) (step : Fleet.Step owners s label t) (aborting : t.daemon.phase = .aborting) :
    Aborts s label := by
  have unmoved (same : t.daemon.phase = s.daemon.phase) : False :=
    live (Or.inl (same.symm.trans aborting))
  cases step with
  | daemon op quiet =>
    cases op with
    | quiesce now => exact quiesce_aborting live aborting
    | abort now => exact trivial
    | recordParticipant report now => exact absurd rfl (quiet report now)
    | stop now =>
      simp only [ControllerOp.apply] at aborting
      split at aborting
      · rename_i ended
        exact absurd (Or.inl ended) live
      · exact absurd (Or.inl aborting) live
    | recordInitialized instanceRank owner generation =>
      refine (unmoved ?_).elim
      simp only [ControllerOp.apply, GenerationState.recordInitialized]
      split
      · rfl
      split
      · rfl
      split
      · rfl
      · rfl
    | instanceDeparted instanceRank failure leasesQuiescing now =>
      revert aborting
      simp only [ControllerOp.apply, GenerationState.instanceDeparted]
      split
      · exact fun aborting => absurd (Or.inl aborting) live
      split
      · exact fun aborting => absurd (Or.inl aborting) live
      · intro aborting
        have phase := (recordOwnerFailure_same
          (g := { s.daemon with initializedInstances := s.daemon.initializedInstances.erase instanceRank }) failure).2.2
        have early := quiesce_aborting (by rw [phase]; exact live) aborting
        rwa [phase] at early
  | deliver pe now report known sends => exact ⟨report, sends, (healthy.commits live known sends).1 aborting⟩
  | _ => exact (unmoved rfl).elim

/-- For any number of honest Agents, over every run with operations of the
daemon and repeated deliveries in any order: as long as the generation is neither
ABORTING nor STOPPED, the report that an Agent is sending is accepted, and the
only steps that lead to ABORTING are the ones that the controller means to: a
quiesce request, an Instance loss or an invocation failure before EXECUTABLE, a
control failure, or an abort by the daemon itself. -/
theorem honest_reports_accepted (owners : Nat → ProcessRef) {s : Fleet} (reached : (fleet owners).Reachable s)
    (live : ¬ s.daemon.phase.ended) :
    (∀ pe < s.daemon.peCount, ∀ report now, (s.agents pe).sending = some report →
      (s.daemon.recordParticipant report now).accepted) ∧
    (∀ label t, (fleet owners).step s label t → t.daemon.phase = .aborting → Aborts s label) := by
  have healthy := (reachable_healthy reached).resolve_left live
  constructor
  · intro pe known report now sends
    exact (healthy.accepted live now known sends).1
  · intro label t step aborting
    exact aborts_of_step healthy live step aborting

/-- Run the steps of Agents and the deliveries of their reports. -/
def Fleet.next (owners : Nat → ProcessRef) (s : Fleet) : FleetStep → Option Fleet
  | .answer pe =>
    if pe < s.daemon.peCount then some (s.setAgent pe { s.agents pe with answer := s.daemon.phase }) else none
  | .consume pe =>
    if pe < s.daemon.peCount then some (s.setAgent pe { s.agents pe with view := (s.agents pe).answer }) else none
  | .advance pe =>
    if pe < s.daemon.peCount ∧ (s.agents pe).sending = none then
      (lifecycle (s.agents pe).view ((s.agents pe).last.map (·.phase))).map fun turn => s.setAgent pe
        { s.agents pe with sending := some ((s.identity owners pe).candidate (s.agents pe).last turn.report none none) }
    else none
  | .deliver pe now =>
    if pe < s.daemon.peCount then
      (s.agents pe).sending.map fun report =>
        { s.setAgent pe { s.agents pe with
            sending := if (s.daemon.recordParticipant report now).error = none then some report else none } with
          daemon := (s.daemon.recordParticipant report now).state }
    else none
  | .acknowledge pe =>
    if pe < s.daemon.peCount ∧ (s.agents pe).sending = s.daemon.participants.lookup pe then
      (s.agents pe).sending.map fun report => s.setAgent pe { s.agents pe with last := some report, sending := none }
    else none
  | _ => none

theorem Fleet.step_of_next {owners : Nat → ProcessRef} {s t : Fleet} {label : FleetStep}
    (taken : s.next owners label = some t) : Fleet.Step owners s label t := by
  cases label with
  | answer pe =>
    simp only [Fleet.next, Option.ite_none_right_eq_some] at taken
    obtain ⟨known, taken⟩ := taken
    obtain rfl := Option.some.inj taken
    exact .answer pe known
  | consume pe =>
    simp only [Fleet.next, Option.ite_none_right_eq_some] at taken
    obtain ⟨known, taken⟩ := taken
    obtain rfl := Option.some.inj taken
    exact .consume pe known
  | advance pe =>
    simp only [Fleet.next, Option.ite_none_right_eq_some] at taken
    obtain ⟨⟨known, free⟩, taken⟩ := taken
    obtain ⟨turn, due, rfl⟩ := Option.map_eq_some_iff.mp taken
    exact .advance pe turn known free due
  | deliver pe now =>
    simp only [Fleet.next, Option.ite_none_right_eq_some] at taken
    obtain ⟨known, taken⟩ := taken
    obtain ⟨report, sends, rfl⟩ := Option.map_eq_some_iff.mp taken
    exact .deliver pe now report known sends
  | acknowledge pe =>
    simp only [Fleet.next, Option.ite_none_right_eq_some] at taken
    obtain ⟨⟨known, recorded⟩, taken⟩ := taken
    obtain ⟨report, sends, rfl⟩ := Option.map_eq_some_iff.mp taken
    exact .acknowledge pe report known sends (recorded.symm.trans sends)
  | _ => cases taken

/-- The first reports of two Agents: that of PE 0 is delivered twice and not yet
acknowledged when that of PE 1 opens the barrier, and PE 1 goes on. -/
def lateRun : List FleetStep :=
  [.advance 0, .advance 1, .deliver 0 1, .deliver 0 2, .deliver 1 3, .acknowledge 1, .answer 1, .consume 1, .advance 1]

/-- PE 0 sends once more what was recorded in an earlier phase of the generation. -/
theorem honest_reports_accepted_late :
    ∃ s, (fleet fun pe => ⟨pe + 1, 1⟩).Reachable s ∧ s.daemon.phase = .joining ∧ ¬ s.daemon.phase.ended ∧
      s.daemon.participants.lookup 0 = some ⟨⟨1, 1⟩, ⟨0, 1⟩, 0, .joinReady, none, none⟩ ∧
      (s.daemon.recordParticipant ⟨⟨1, 1⟩, ⟨0, 1⟩, 0, .joinReady, none, none⟩ 4).accepted ∧
      (s.daemon.recordParticipant ⟨⟨2, 1⟩, ⟨0, 1⟩, 1, .joining, none, none⟩ 4).accepted := by
  let start : Fleet :=
    { daemon := .installed ⟨⟨0, 1⟩, [⟨.atnAgent, 0⟩, ⟨.ffnAgent, 0⟩]⟩ ∅ ∅ 0
      canonical := none
      agents := fun _ => ⟨none, none, .preparingJoin, .preparingJoin⟩ }
  have started : (fleet fun pe => ⟨pe + 1, 1⟩).Reachable start := .start ⟨⟨_, _, _, _, rfl⟩, rfl, fun _ => rfl⟩
  obtain ⟨s, reached, ran⟩ := System.ReachableUnder.run (Fleet.next fun pe => ⟨pe + 1, 1⟩)
    (fun _ _ _ taken => ⟨trivial, Fleet.step_of_next taken⟩) started lateRun
    (fun s =>
      s.daemon.phase = .joining ∧ s.daemon.peCount = 2 ∧
        s.daemon.participants.lookup 0 = some ⟨⟨1, 1⟩, ⟨0, 1⟩, 0, .joinReady, none, none⟩ ∧
        (s.agents 0).sending = some ⟨⟨1, 1⟩, ⟨0, 1⟩, 0, .joinReady, none, none⟩ ∧
        (s.agents 1).sending = some ⟨⟨2, 1⟩, ⟨0, 1⟩, 1, .joining, none, none⟩)
    (by decide +kernel)
  obtain ⟨joining, two, recorded, repeats, goesOn⟩ := of_decide_eq_true ran
  have live : ¬ s.daemon.phase.ended := by
    rw [joining]
    decide
  have accepted := (honest_reports_accepted _ reached live).1
  rw [two] at accepted
  exact ⟨s, reached, joining, live, recorded, accepted 0 (by decide) _ 4 repeats, accepted 1 (by decide) _ 4 goesOn⟩

/-- One Agent that is sending its first report. -/
def firstReport : Fleet where
  daemon := .installed ⟨⟨0, 1⟩, [⟨.atnAgent, 0⟩]⟩ ∅ ∅ 0
  canonical := none
  agents := Function.update (fun _ => ⟨none, none, .preparingJoin, .preparingJoin⟩) 0
    ⟨none, some ⟨⟨1, 1⟩, ⟨0, 1⟩, 0, .joinReady, none, none⟩, .preparingJoin, .preparingJoin⟩

theorem firstReport_reached : (fleet fun _ => ⟨1, 1⟩).Reachable firstReport := by
  let start : Fleet := ⟨firstReport.daemon, none, fun _ => ⟨none, none, .preparingJoin, .preparingJoin⟩⟩
  have started : (fleet fun _ => ⟨1, 1⟩).Reachable start :=
    .start ⟨⟨_, _, _, _, rfl⟩, rfl, fun _ => rfl⟩
  exact started.step (.advance (s := start) 0 ⟨none, .joinReady⟩ (by decide) rfl rfl)

/-- An honest Agent joins and is then asked to quiesce: the generation aborts,
with no report rejected and no failure recorded. -/
theorem quiesce_while_joining_aborts :
    ∃ s label t, (fleet fun _ => ⟨1, 1⟩).Reachable s ∧ (fleet fun _ => ⟨1, 1⟩).step s label t ∧
      s.daemon.phase = .joining ∧ t.daemon.phase = .aborting ∧ t.daemon.controlFailure = none ∧
        t.daemon.invocationFailure = none := by
  have joins : (fleet fun _ => ⟨1, 1⟩).Reachable _ :=
    firstReport_reached.step (.deliver 0 1 _ (by decide) rfl)
  exact ⟨_, _, _, joins, .daemon (.quiesce 2) nofun, by decide, by decide, by decide, by decide⟩

end CrossPool.Control
