import CrossPool.Control.Barrier

/-!
# Retirement of a failed generation under lost acknowledgements

The daemon's controller together with one honest Agent. The Agent's control
thread sends one report at a time; the daemon may commit it any number of times
before an acknowledgement arrives, or the Agent gives the report up with every
acknowledgement lost and keeps its older local report.

While the generation aborts, the Agent retires from that local report. Its next
report is accepted exactly when the local report is not behind the daemon's on
the join itself or on a failure field: a lost phase report is caught up with by
the next one, but a lost failure enrichment is repeated by no later report, and
the enrichment rule then refuses all of them.
-/

namespace CrossPool.Control

open CrossPool.Lib

/-- The daemon, the Agent's last acknowledged report, and the report its control
thread is sending. -/
structure JointState where
  daemon : GenerationState
  last : Option ParticipantReport
  sending : Option ParticipantReport

/-- What can happen next. Phases the Agent acts on are the ones it holds at that
moment, however stale. -/
inductive JointStep where
  | daemon (op : ControllerOp)
  | advance (view : GenerationPhase)
  | reportInvocationFailure (failure : InvocationFailure)
  | reportControlFailure (message : String)
  | deliver (now : Nat)
  | acknowledge
  | giveUp

/-- The report of the daemon for this Agent's PE. -/
def JointState.recorded (agent : AgentIdentity) (s : JointState) : Option ParticipantReport :=
  s.daemon.participants.lookup agent.pe

/-- The steps of the joint system. The daemon validates report owners, so no
other operation reports for this Agent's PE. -/
inductive JointState.Step (agent : AgentIdentity) : JointState → JointStep → JointState → Prop where
  | daemon {s : JointState} (op : ControllerOp) :
      (∀ report now, op = .recordParticipant report now → report.pe ≠ agent.pe) →
      Step agent s (.daemon op) { s with daemon := (op.apply s.daemon).state }
  | advance {s : JointState} (view : GenerationPhase) (turn : LifecycleTurn) : s.sending = none →
      lifecycle view (s.last.map (·.phase)) = some turn →
      Step agent s (.advance view) { s with sending := some (agent.candidate s.last turn.report none none) }
  | reportInvocationFailure {s : JointState} (failure : InvocationFailure) (report : ParticipantReport) :
      s.sending = none → s.last = some report →
      report.phase ≠ .joinReady → report.phase ≠ .joining → report.phase ≠ .finalized →
      report.invocationFailure ≠ some failure →
      Step agent s (.reportInvocationFailure failure)
        { s with sending := some (agent.candidate s.last report.phase (some failure) none) }
  | reportControlFailure {s : JointState} (message : String) (report : ParticipantReport) :
      s.sending = none → s.last = some report → report.controlFailure = none → message ≠ "" →
      Step agent s (.reportControlFailure message)
        { s with sending := some (agent.candidate s.last report.phase none (some message)) }
  -- A conflict is not recoverable: the Agent raises and stops sending that report.
  | deliver {s : JointState} (now : Nat) (report : ParticipantReport) : s.sending = some report →
      Step agent s (.deliver now)
        { s with daemon := (s.daemon.recordParticipant report now).state,
                 sending := if (s.daemon.recordParticipant report now).error = none then some report else none }
  | acknowledge {s : JointState} (report : ParticipantReport) : s.sending = some report →
      s.recorded agent = some report →
      Step agent s .acknowledge { s with last := some report, sending := none }
  | giveUp {s : JointState} (report : ParticipantReport) : s.sending = some report →
      Step agent s .giveUp { s with sending := none }

/-- One Agent of an installed generation, before its first report. -/
def joint (agent : AgentIdentity) : System JointState JointStep where
  init s := (∃ plan agentOwners instanceOwners now, s.daemon = .installed plan agentOwners instanceOwners now) ∧
    agent.generation = s.daemon.plan.generation ∧ agent.pe < s.daemon.peCount ∧ s.last = none ∧ s.sending = none
  step := JointState.Step agent

/-! ## What a report call leaves of one PE -/

section Report

variable {g : GenerationState} {report : ParticipantReport} {now : Nat}

/-- The checks of `record_participant` after the generation and the PE matched. -/
def Acceptable (g : GenerationState) (report : ParticipantReport) : Prop :=
  edgeRejection (g.participants.lookup report.pe) report (g.phase = .aborting) = none ∧
    validateEnrichment (g.participants.lookup report.pe) report = none ∧
      ¬ (phaseChanged (g.participants.lookup report.pe) report ∧ report.phase ∉ allowedPhases g.phase)

theorem transition_accepted {phase : GenerationPhase} (edge : g.phase.allows phase) :
    (g.transition phase now).accepted := by
  unfold GenerationState.transition
  split
  · exact Outcome.ok_accepted _
  · exact Outcome.ok_accepted _

theorem abort_accepted : (g.abort now).accepted := by
  unfold GenerationState.abort
  split
  · exact Outcome.ok_accepted _
  · rename_i live
    exact transition_accepted (allows_aborting (fun h => live (Or.inl h)) (fun h => live (Or.inr h)))

theorem quiesce_accepted : (g.quiesce now).accepted := by
  unfold GenerationState.quiesce
  split
  any_goals
    rename_i phase
    exact transition_accepted (allows_aborting (by simp [phase]) (by simp [phase]))
  · rename_i executable
    exact transition_accepted (by rw [executable]; rfl)
  all_goals exact Outcome.ok_accepted _

theorem advanceBarrier_accepted : (g.advanceBarrier now).accepted := by
  unfold GenerationState.advanceBarrier
  split
  · exact Outcome.ok_accepted _
  split
  · rename_i opens
    split
    · exact transition_accepted (barrier_allows opens)
    · exact Outcome.ok_accepted _
  · exact Outcome.ok_accepted _

theorem applyReports_accepted : (g.applyReports now).accepted := by
  unfold GenerationState.applyReports
  split
  · exact abort_accepted
  split
  · exact quiesce_accepted
  · exact advanceBarrier_accepted

theorem rejectReport_not_accepted (message : String) : ¬ (g.rejectReport message now).accepted :=
  Outcome.conflict_not_accepted _ _

/-- A report of a known PE of a live generation is accepted exactly when it
repeats the recorded one or passes the three checks. -/
theorem recordParticipant_accepted_iff (same : report.generation = g.plan.generation) (known : report.pe < g.peCount)
    (live : g.phase ≠ .stopped) :
    (g.recordParticipant report now).accepted ↔
      g.participants.lookup report.pe = some report ∨ Acceptable g report := by
  unfold GenerationState.recordParticipant Acceptable
  simp only [same, ne_eq, not_true_eq_false, if_false, not_le.mpr known, live]
  by_cases repeated : g.participants.lookup report.pe = some report
  · simp [repeated]
  · simp only [repeated, if_false, false_or]
    split
    · rename_i refused
      simp [refused, rejectReport_not_accepted]
    · rename_i edge
      split
      · rename_i refused
        simp [refused, rejectReport_not_accepted]
      · rename_i enriched
        split
        · rename_i refused
          exact iff_of_false (rejectReport_not_accepted _) (fun fine => fine.2.2 refused)
        · rename_i allowed
          exact iff_of_true applyReports_accepted ⟨edge, enriched, allowed⟩

/-- A refused report leaves the participants as they were; an accepted one is
what the daemon then records for its PE. -/
theorem recordParticipant_participants (report : ParticipantReport) (now : Nat) :
    ((g.recordParticipant report now).accepted ∧
      ((g.recordParticipant report now).state.participants = g.participants ∧ g.participants.lookup report.pe = some report ∨
        (g.recordParticipant report now).state.participants = g.participants.insert report.pe report ∧
          Acceptable g report)) ∨
    (¬ (g.recordParticipant report now).accepted ∧ (g.recordParticipant report now).state.participants = g.participants) := by
  unfold GenerationState.recordParticipant Acceptable
  simp only
  split
  · rename_i repeated
    exact Or.inl ⟨Outcome.ok_accepted _, Or.inl ⟨rfl, repeated⟩⟩
  split
  · exact Or.inr ⟨rejectReport_not_accepted _, (rejectReport_moved _ _).participants⟩
  split
  · exact Or.inr ⟨rejectReport_not_accepted _, (rejectReport_moved _ _).participants⟩
  split
  · exact Or.inr ⟨Outcome.conflict_not_accepted _ _, rfl⟩
  split
  · exact Or.inr ⟨rejectReport_not_accepted _, (rejectReport_moved _ _).participants⟩
  rename_i edge
  split
  · exact Or.inr ⟨rejectReport_not_accepted _, (rejectReport_moved _ _).participants⟩
  rename_i enriched
  split
  · exact Or.inr ⟨rejectReport_not_accepted _, (rejectReport_moved _ _).participants⟩
  rename_i allowed
  exact Or.inl ⟨applyReports_accepted, Or.inr ⟨(commit_moved _ _).participants, edge, enriched, allowed⟩⟩

theorem validateEnrichment_passes {old : ParticipantReport} :
    validateEnrichment (some old) report = none ↔
      (old.invocationFailure ≠ none → report.invocationFailure = old.invocationFailure) ∧
        (old.controlFailure ≠ none → report.controlFailure = old.controlFailure) := by
  simp only [validateEnrichment]
  split
  · rename_i refused
    simp [refused]
  split
  · rename_i refused
    simp [refused]
  · rename_i invocation control
    simp only [ne_eq, true_iff]
    exact ⟨fun present => not_not.mp fun differs => invocation ⟨present, differs⟩,
      fun present => not_not.mp fun differs => control ⟨present, differs⟩⟩

/-- What the three checks say of a report over a recorded one. -/
theorem acceptable_over {old : ParticipantReport} (found : g.participants.lookup report.pe = some old) :
    Acceptable g report ↔
      (report.phase = old.phase ∨
        old.phase.allows report.phase (g.phase = .aborting) ∧ report.phase ∈ allowedPhases g.phase) ∧
      (old.invocationFailure ≠ none → report.invocationFailure = old.invocationFailure) ∧
      (old.controlFailure ≠ none → report.controlFailure = old.controlFailure) := by
  unfold Acceptable
  rw [found, validateEnrichment_passes]
  by_cases phase : report.phase = old.phase
  · simp [edgeRejection, phaseChanged, phase]
  · simp only [edgeRejection, phaseChanged, phase, ne_eq, not_false_eq_true, true_and, decide_true, not_not, false_or,
      ite_eq_right_iff, reduceCtorEq, imp_false]
    tauto

end Report

/-! ## How far the daemon can be ahead of the Agent -/

/-- The phases an Agent in a local phase can send: a failure enrichment repeats
the phase, a lifecycle turn takes the next one or retires. -/
def reportable : Option ParticipantPhase → List ParticipantPhase
  | none => [.joinReady]
  | some .joinReady => [.joinReady, .joining]
  | some .joining => [.joining, .joined]
  | some .joined => [.joined, .executionReady, .quiesced]
  | some .executionReady => [.executionReady, .active, .quiesced]
  | some .active => [.active, .quiesced]
  | some .quiesced => [.quiesced, .draining]
  | some .draining => [.draining, .drained]
  | some .drained => [.drained, .finalized]
  | some .finalized => [.finalized]

theorem self_reportable (phase : ParticipantPhase) : phase ∈ reportable (some phase) := by
  cases phase <;> decide

theorem lifecycle_reportable {view : GenerationPhase} {phase : Option ParticipantPhase} {turn : LifecycleTurn}
    (acts : lifecycle view phase = some turn) : turn.report ∈ reportable phase := by
  unfold lifecycle at acts
  split at acts
  all_goals first | contradiction | (obtain rfl := Option.some.inj acts; decide)

/-- A failure field the Agent holds is the one the daemon holds. -/
def Covers (recorded last : Option ParticipantReport) : Prop :=
  (∀ failure, last.bind (·.invocationFailure) = some failure → recorded.bind (·.invocationFailure) = some failure) ∧
    ∀ failure, last.bind (·.controlFailure) = some failure → recorded.bind (·.controlFailure) = some failure

/-- What holds of the daemon and one honest Agent in every state they reach. -/
structure Lag (agent : AgentIdentity) (s : JointState) : Prop where
  generation : agent.generation = s.daemon.plan.generation
  known : agent.pe < s.daemon.peCount
  present : s.last ≠ none → s.recorded agent ≠ none
  ahead : ∀ report, s.recorded agent = some report → report.phase ∈ reportable (s.last.map (·.phase))
  covers : Covers (s.recorded agent) s.last
  own : ∀ report, s.sending = some report → report.generation = agent.generation ∧ report.pe = agent.pe
  next : ∀ report, s.sending = some report → report.phase ∈ reportable (s.last.map (·.phase))

/-- An operation that reports for no or another PE keeps what is recorded of this
one. -/
theorem apply_recorded {g : GenerationState} {pe : Nat} (op : ControllerOp)
    (other : ∀ report now, op = .recordParticipant report now → report.pe ≠ pe) :
    (op.apply g).state.participants.lookup pe = g.participants.lookup pe := by
  by_cases reports : ∃ report now, op = .recordParticipant report now
  · obtain ⟨report, now, rfl⟩ := reports
    have apart : pe ≠ report.pe := (other report now rfl).symm
    obtain ⟨-, ⟨same, -⟩ | ⟨inserted, -⟩⟩ | ⟨-, same⟩ := recordParticipant_participants (g := g) report now
    · exact congrArg _ same
    · show AList.lookup pe (g.recordParticipant report now).state.participants = _
      rw [inserted, AList.lookup_insert_ne apart]
    · exact congrArg _ same
  · push Not at reports
    rw [(apply_moved op reports).participants]

theorem init_lag {agent : AgentIdentity} {s : JointState} (start : (joint agent).init s) : Lag agent s := by
  obtain ⟨⟨plan, agentOwners, instanceOwners, now, installed⟩, generation, known, last, sending⟩ := start
  have unrecorded : s.recorded agent = none := by
    simp [JointState.recorded, installed, GenerationState.installed]
  refine ⟨generation, known, ?_, ?_, ?_, ?_, ?_⟩
  · exact fun some_last => absurd last some_last
  · exact fun report found => absurd found (by simp [unrecorded])
  · simp [Covers, last]
  · exact fun report found => absurd found (by simp [sending])
  · exact fun report found => absurd found (by simp [sending])

/-- Delivering the pending report either leaves the record or replaces it by that
report, whose failure fields then cover the older ones. -/
theorem deliver_recorded {agent : AgentIdentity} {s : JointState} (lag : Lag agent s) {report : ParticipantReport}
    (pending : s.sending = some report) (now : Nat) :
    ((s.daemon.recordParticipant report now).state.participants.lookup agent.pe = s.recorded agent ∨
      (s.daemon.recordParticipant report now).state.participants.lookup agent.pe = some report ∧
        (s.daemon.recordParticipant report now).accepted) ∧
      Covers ((s.daemon.recordParticipant report now).state.participants.lookup agent.pe) (s.recorded agent) := by
  obtain ⟨-, pe⟩ := lag.own report pending
  have refl (recorded : Option ParticipantReport) : Covers recorded recorded := ⟨fun _ h => h, fun _ h => h⟩
  obtain ⟨accepted, ⟨same, -⟩ | ⟨inserted, acceptable⟩⟩ | ⟨-, same⟩ :=
    recordParticipant_participants (g := s.daemon) report now
  · rw [same]
    exact ⟨Or.inl rfl, refl _⟩
  · rw [inserted, ← pe, AList.lookup_insert]
    refine ⟨Or.inr ⟨rfl, accepted⟩, ?_⟩
    unfold JointState.recorded
    rw [← pe]
    cases found : s.daemon.participants.lookup report.pe with
    | none => simp [Covers]
    | some old =>
      obtain ⟨-, invocation, control⟩ := (acceptable_over found).mp acceptable
      refine ⟨fun failure present => ?_, fun failure present => ?_⟩
      · exact (invocation (by simp_all)).trans present
      · exact (control (by simp_all)).trans present
  · rw [same]
    exact ⟨Or.inl rfl, refl _⟩

theorem Covers.trans {first second third : Option ParticipantReport} (left : Covers first second)
    (right : Covers second third) : Covers first third :=
  ⟨fun failure present => left.1 failure (right.1 failure present),
    fun failure present => left.2 failure (right.2 failure present)⟩

/-- One step of the joint system keeps the lag within its bounds. -/
theorem step_lag {agent : AgentIdentity} {s t : JointState} {label : JointStep} (lag : Lag agent s)
    (step : JointState.Step agent s label t) : Lag agent t := by
  cases step with
  | daemon op other =>
    have recorded : JointState.recorded agent { s with daemon := (op.apply s.daemon).state } = s.recorded agent :=
      apply_recorded op other
    have plan := (apply_effect (g := s.daemon) op).plan
    refine ⟨?_, ?_, ?_, ?_, ?_, lag.own, lag.next⟩
    · exact lag.generation.trans (congrArg _ plan.symm)
    · show agent.pe < (op.apply s.daemon).state.peCount
      unfold GenerationState.peCount
      rw [plan]
      exact lag.known
    · rw [recorded]; exact lag.present
    · rw [recorded]; exact lag.ahead
    · rw [recorded]; exact lag.covers
  | advance view turn idle acts =>
    refine ⟨lag.generation, lag.known, lag.present, lag.ahead, lag.covers, ?_, ?_⟩
    · rintro report ⟨⟩; exact ⟨rfl, rfl⟩
    · rintro report ⟨⟩; exact lifecycle_reportable acts
  | reportInvocationFailure failure report idle last =>
    refine ⟨lag.generation, lag.known, lag.present, lag.ahead, lag.covers, ?_, ?_⟩
    · rintro sent ⟨⟩; exact ⟨rfl, rfl⟩
    · rintro sent ⟨⟩
      rw [last]
      exact self_reportable report.phase
  | reportControlFailure message report idle last =>
    refine ⟨lag.generation, lag.known, lag.present, lag.ahead, lag.covers, ?_, ?_⟩
    · rintro sent ⟨⟩; exact ⟨rfl, rfl⟩
    · rintro sent ⟨⟩
      rw [last]
      exact self_reportable report.phase
  | deliver now report pending =>
    obtain ⟨replaced, covers⟩ := deliver_recorded lag pending now
    have plan := (recordParticipant_effect (g := s.daemon) report now).plan
    have kept : ∀ sent, (if (s.daemon.recordParticipant report now).error = none then some report else none) = some sent →
        s.sending = some sent := by
      intro sent found
      split at found
      · exact pending.trans found
      · cases found
    refine ⟨?_, ?_, ?_, ?_, covers.trans lag.covers, fun sent found => lag.own sent (kept sent found),
      fun sent found => lag.next sent (kept sent found)⟩
    · exact lag.generation.trans (congrArg _ plan.symm)
    · show agent.pe < (s.daemon.recordParticipant report now).state.peCount
      unfold GenerationState.peCount
      rw [plan]
      exact lag.known
    · intro held
      rcases replaced with same | ⟨new, -⟩
      · exact fun gone => lag.present held (same.symm.trans gone)
      · exact fun gone => absurd (new.symm.trans gone) (by simp)
    · intro found recorded
      rcases replaced with same | ⟨new, -⟩
      · exact lag.ahead found (same.symm.trans recorded)
      · obtain rfl := Option.some.inj (new.symm.trans recorded)
        exact lag.next _ pending
  | acknowledge report pending recorded =>
    refine ⟨lag.generation, lag.known, ?_, ?_, ?_, ?_, ?_⟩
    · intro _
      show s.recorded agent ≠ none
      simp [recorded]
    · intro found same
      obtain rfl := Option.some.inj (recorded.symm.trans same)
      exact self_reportable _
    · show Covers (s.recorded agent) (some report)
      rw [recorded]
      exact ⟨fun _ h => h, fun _ h => h⟩
    · rintro sent ⟨⟩
    · rintro sent ⟨⟩
  | giveUp report pending =>
    refine ⟨lag.generation, lag.known, lag.present, lag.ahead, lag.covers, ?_, ?_⟩
    · rintro sent ⟨⟩
    · rintro sent ⟨⟩

theorem reachable_lag {agent : AgentIdentity} {s : JointState} (reached : (joint agent).Reachable s) : Lag agent s :=
  System.ReachableUnder.invariant (fun _ start => init_lag start) (fun _ _ _ _ lag _ step => step_lag lag step) reached

/-! ## Retirement -/

/-- A state the Agent retires in: the generation aborts, the daemon holds the
Agent for joined and not finalized, and its control thread is between reports. -/
structure Retiring (agent : AgentIdentity) (s : JointState) (recorded : ParticipantReport) : Prop where
  aborting : s.daemon.phase = .aborting
  found : s.recorded agent = some recorded
  joined : ParticipantPhase.joined.rank ≤ recorded.phase.rank
  unfinalized : recorded.phase ≠ .finalized
  idle : s.sending = none

/-- The Agent has drained, or its lifecycle produces a retirement report and the
daemon accepts it. -/
def RetirementAccepted (agent : AgentIdentity) (s : JointState) : Prop :=
  s.last.map (·.phase) = some .drained ∨
    ∃ turn, lifecycle .aborting (s.last.map (·.phase)) = some turn ∧
      ∀ now, (s.daemon.recordParticipant (agent.candidate s.last turn.report none none) now).accepted

/-- The Agent's local report is past the join and has the failure fields the
daemon recorded, or is already drained. -/
def Synced (s : JointState) (recorded : ParticipantReport) : Prop :=
  ∃ last, s.last = some last ∧ last.phase ≠ .joining ∧
    (last.phase = .drained ∨
      last.invocationFailure = recorded.invocationFailure ∧ last.controlFailure = recorded.controlFailure)

/-- The daemon has committed the pending report, and it is the join's or carries a
failure field the local report does not have. -/
def Loses (agent : AgentIdentity) (s : JointState) : Prop :=
  ∃ report, s.sending = some report ∧ s.recorded agent = some report ∧
    (s.last.map (·.phase) = some .joining ∧ report.phase = .joined ∨
      report.invocationFailure ≠ s.last.bind (·.invocationFailure) ∨
      report.controlFailure ≠ s.last.bind (·.controlFailure))

/-- The Agent does not lose every acknowledgement of a committed join or failure
report. -/
def Acknowledged (agent : AgentIdentity) (s : JointState) (label : JointStep) : Prop :=
  label = .giveUp → ¬ Loses agent s

/-- What a retiring Agent's local report can be. -/
theorem Retiring.local_report {agent : AgentIdentity} {s : JointState} {recorded : ParticipantReport} (lag : Lag agent s)
    (retiring : Retiring agent s recorded) :
    ∃ last, s.last = some last ∧ recorded.phase ∈ reportable (some last.phase) ∧
      (last.phase = .joining ∨ last.phase = .drained ∨
        ∃ turn, lifecycle .aborting (some last.phase) = some turn ∧
          (turn.report = recorded.phase ∨
            recorded.phase.allows turn.report true ∧ turn.report ∈ allowedPhases .aborting)) := by
  have ahead := lag.ahead recorded retiring.found
  have joined := retiring.joined
  have unfinalized := retiring.unfinalized
  cases held : s.last with
  | none =>
    rw [held] at ahead
    generalize recorded.phase = phase at *
    revert ahead joined
    cases phase <;> decide
  | some last =>
    rw [held] at ahead
    refine ⟨last, rfl, ahead, ?_⟩
    simp only [Option.map_some] at ahead
    generalize recorded.phase = phase at *
    generalize last.phase = own at *
    revert ahead joined unfinalized
    cases own <;> cases phase <;> simp [reportable, ParticipantPhase.rank, lifecycle, allowedPhases,
      ParticipantPhase.allows, ParticipantPhase.successor]

/-- The failure fields alone decide whether a retirement report is accepted. -/
theorem retirement_report_accepted_iff {agent : AgentIdentity} {s : JointState} {recorded last : ParticipantReport}
    {phase : ParticipantPhase} (lag : Lag agent s) (retiring : Retiring agent s recorded) (held : s.last = some last)
    (edge : phase = recorded.phase ∨ recorded.phase.allows phase true ∧ phase ∈ allowedPhases .aborting) (now : Nat) :
    (s.daemon.recordParticipant (agent.candidate s.last phase none none) now).accepted ↔
      last.invocationFailure = recorded.invocationFailure ∧ last.controlFailure = recorded.controlFailure := by
  have found : s.daemon.participants.lookup (agent.candidate s.last phase none none).pe = some recorded := retiring.found
  have covers := lag.covers
  rw [retiring.found, held] at covers
  rw [recordParticipant_accepted_iff lag.generation lag.known (by simp [retiring.aborting]), acceptable_over found, found,
    held]
  simp only [Covers, Option.bind_some] at covers
  constructor
  · rintro (same | ⟨-, invocation, control⟩)
    · obtain rfl := Option.some.inj same
      exact ⟨rfl, rfl⟩
    · refine ⟨?_, ?_⟩
      · cases was : recorded.invocationFailure with
        | none => exact Option.eq_none_iff_forall_ne_some.mpr fun failure mine => by simp [covers.1 failure mine] at was
        | some failure => exact (invocation (by simp [was])).trans was
      · cases was : recorded.controlFailure with
        | none => exact Option.eq_none_iff_forall_ne_some.mpr fun failure mine => by simp [covers.2 failure mine] at was
        | some failure => exact (control (by simp [was])).trans was
  · rintro ⟨invocation, control⟩
    refine Or.inr ⟨?_, fun _ => invocation, fun _ => control⟩
    rw [retiring.aborting]
    exact edge

/-- In every reachable retiring state the next retirement report is accepted
exactly when the Agent's local report is synced. -/
theorem retirementAccepted_iff_synced {agent : AgentIdentity} {s : JointState} {recorded : ParticipantReport}
    (lag : Lag agent s) (retiring : Retiring agent s recorded) : RetirementAccepted agent s ↔ Synced s recorded := by
  obtain ⟨last, held, -, joining | drained | ⟨turn, acts, edge⟩⟩ := retiring.local_report lag
  · refine iff_of_false ?_ ?_
    · rintro (drained | ⟨turn, acts, -⟩)
      · simp [held, joining] at drained
      · rw [held, Option.map_some, joining] at acts
        cases acts
    · rintro ⟨own, same, past, -⟩
      obtain rfl := Option.some.inj (held.symm.trans same)
      exact past joining
  · refine iff_of_true (Or.inl (by simp [held, drained])) ⟨last, held, by simp [drained], Or.inl drained⟩
  · have undrained : last.phase ≠ .drained := by
      intro drained
      rw [drained] at acts
      cases acts
    have past : last.phase ≠ .joining := by
      intro joining
      rw [joining] at acts
      cases acts
    have decided := retirement_report_accepted_iff lag retiring held edge
    constructor
    · rintro (drained | ⟨own, same, accepted⟩)
      · exact absurd (by simpa [held] using drained) undrained
      · rw [held, Option.map_some, acts] at same
        obtain rfl := Option.some.inj same
        exact ⟨last, held, past, Or.inr ((decided 0).mp (accepted 0))⟩
    · rintro ⟨own, same, -, fields⟩
      obtain rfl := Option.some.inj (held.symm.trans same)
      refine Or.inr ⟨turn, by rw [held]; exact acts, fun now => (decided now).mpr ?_⟩
      exact fields.resolve_left undrained

/-! ## Runs that lose no join or failure acknowledgement -/

/-- The local report has the recorded failure fields and has not missed the join. -/
structure Even (agent : AgentIdentity) (s : JointState) : Prop where
  invocation : (s.recorded agent).bind (·.invocationFailure) = s.last.bind (·.invocationFailure)
  control : (s.recorded agent).bind (·.controlFailure) = s.last.bind (·.controlFailure)
  joined : s.last.map (·.phase) = some .joining → (s.recorded agent).map (·.phase) ≠ some .joined

/-- Only a committed report that is still being sent can set the two apart. -/
def EvenOrSending (agent : AgentIdentity) (s : JointState) : Prop :=
  (∀ report, s.sending = some report → s.recorded agent ≠ some report) → Even agent s

theorem init_even {agent : AgentIdentity} {s : JointState} (start : (joint agent).init s) : EvenOrSending agent s := by
  obtain ⟨⟨plan, agentOwners, instanceOwners, now, installed⟩, -, -, last, -⟩ := start
  have unrecorded : s.recorded agent = none := by
    simp [JointState.recorded, installed, GenerationState.installed]
  intro _
  constructor <;> simp [unrecorded, last]

theorem step_even {agent : AgentIdentity} {s t : JointState} {label : JointStep} (lag : Lag agent s)
    (even : EvenOrSending agent s) (kept : Acknowledged agent s label) (step : JointState.Step agent s label t) :
    EvenOrSending agent t := by
  -- Starting to send changes neither the record nor the local report.
  have starts (report : ParticipantReport) (idle : s.sending = none) :
      EvenOrSending agent { s with sending := some report } := by
    intro _
    obtain ⟨invocation, control, joined⟩ := even (by simp [idle])
    exact ⟨invocation, control, joined⟩
  cases step with
  | daemon op other =>
    have recorded : JointState.recorded agent { s with daemon := (op.apply s.daemon).state } = s.recorded agent :=
      apply_recorded op other
    intro apart
    rw [recorded] at apart
    obtain ⟨invocation, control, joined⟩ := even apart
    exact ⟨by rw [recorded]; exact invocation, by rw [recorded]; exact control, by rw [recorded]; exact joined⟩
  | advance view turn idle => exact starts _ idle
  | reportInvocationFailure failure report idle => exact starts _ idle
  | reportControlFailure message report idle => exact starts _ idle
  | deliver now report pending =>
    obtain ⟨-, pe⟩ := lag.own report pending
    intro apart
    rcases recordParticipant_participants (g := s.daemon) report now with ⟨accepted, committed⟩ | ⟨refused, same⟩
    · refine absurd ?_ (apart report (if_pos accepted))
      show (s.daemon.recordParticipant report now).state.participants.lookup agent.pe = some report
      rcases committed with ⟨same, found⟩ | ⟨inserted, -⟩
      · rw [same, ← pe]; exact found
      · rw [inserted, ← pe, AList.lookup_insert]
    · have unrecorded : s.recorded agent ≠ some report := by
        intro found
        refine refused ?_
        unfold JointState.recorded at found
        rw [← pe] at found
        simp [GenerationState.recordParticipant, found]
      have before := even (by rw [pending]; rintro _ ⟨⟩; exact unrecorded)
      obtain ⟨invocation, control, joined⟩ := before
      unfold JointState.recorded at invocation control joined
      rw [← same] at invocation control joined
      exact ⟨invocation, control, joined⟩
  | acknowledge report pending recorded =>
    intro _
    have now : JointState.recorded agent { s with last := some report, sending := none } = some report := recorded
    refine ⟨by rw [now], by rw [now], ?_⟩
    rw [now]
    intro joining
    simp only [Option.map_some] at joining ⊢
    rw [joining]
    simp
  | giveUp report pending =>
    intro _
    by_cases committed : s.recorded agent = some report
    · have fine := kept rfl
      simp only [Loses, not_exists, not_and, not_or, not_not] at fine
      obtain ⟨join, invocation, control⟩ := fine report pending committed
      refine ⟨?_, ?_, ?_⟩
      · show (s.recorded agent).bind _ = _
        rw [committed]; exact invocation
      · show (s.recorded agent).bind _ = _
        rw [committed]; exact control
      · intro joining
        show (s.recorded agent).map _ ≠ _
        rw [committed]
        simpa using join joining
    · obtain ⟨invocation, control, joined⟩ := even (by rw [pending]; rintro _ ⟨⟩; exact committed)
      exact ⟨invocation, control, joined⟩

theorem acknowledged_even {agent : AgentIdentity} {s : JointState}
    (reached : (joint agent).ReachableUnder (Acknowledged agent) s) : EvenOrSending agent s :=
  System.ReachableUnder.invariant (fun _ start => init_even start)
    (fun _ _ _ before even kept step => step_even (reachable_lag before.reachable) even kept step) reached

theorem Even.synced {agent : AgentIdentity} {s : JointState} {recorded : ParticipantReport} (lag : Lag agent s)
    (retiring : Retiring agent s recorded) (even : Even agent s) : Synced s recorded := by
  obtain ⟨invocation, control, joined⟩ := even
  have ahead := lag.ahead recorded retiring.found
  rw [retiring.found] at invocation control joined
  obtain ⟨last, held, -, -⟩ := retiring.local_report lag
  rw [held] at invocation control joined ahead
  refine ⟨last, held, ?_, Or.inr ⟨invocation.symm, control.symm⟩⟩
  intro joining
  have apart : recorded.phase ≠ .joined := by simpa [joining] using joined
  have least := retiring.joined
  rw [Option.map_some, joining] at ahead
  generalize recorded.phase = phase at *
  revert ahead apart least
  cases phase <;> decide

/-! ## Draining -/

section Rounds

variable {agent : AgentIdentity} {guard : JointState → JointStep → Prop}

/-- An accepted report is what the daemon then holds for its PE. -/
theorem recorded_of_accepted {g : GenerationState} {report : ParticipantReport} {now : Nat}
    (accepted : (g.recordParticipant report now).accepted) :
    (g.recordParticipant report now).state.participants.lookup report.pe = some report := by
  obtain ⟨-, ⟨same, found⟩ | ⟨inserted, -⟩⟩ | ⟨refused, -⟩ := recordParticipant_participants (g := g) report now
  · rw [same]; exact found
  · rw [inserted, AList.lookup_insert]
  · exact absurd accepted refused

/-- A report the daemon accepts can be sent, delivered and acknowledged. -/
theorem sent_round (free : ∀ s label, label ≠ .giveUp → guard s label) {s t : JointState} {report : ParticipantReport}
    (pending : t.sending = some report) (later : (joint agent).LaterUnder guard s t) (own : report.pe = agent.pe)
    {now : Nat} (accepted : (t.daemon.recordParticipant report now).accepted) :
    (joint agent).LaterUnder guard s ⟨(t.daemon.recordParticipant report now).state, some report, none⟩ := by
  have delivered := later.step (free t (.deliver now) (by simp)) (.deliver now report pending)
  rw [if_pos (show (t.daemon.recordParticipant report now).error = none from accepted)] at delivered
  refine delivered.step (free _ .acknowledge (by simp)) (.acknowledge report rfl ?_)
  show (t.daemon.recordParticipant report now).state.participants.lookup agent.pe = some report
  rw [← own]
  exact recorded_of_accepted accepted

/-- The state after an acknowledged lifecycle report. -/
def JointState.reported (agent : AgentIdentity) (s : JointState) (phase : ParticipantPhase) (now : Nat) : JointState :=
  let report := agent.candidate s.last phase none none
  ⟨(s.daemon.recordParticipant report now).state, some report, none⟩

/-- One lifecycle turn whose report the daemon accepts. -/
theorem advance_round (free : ∀ s label, label ≠ .giveUp → guard s label) {s : JointState} (idle : s.sending = none)
    (view : GenerationPhase) {call : Option NativeCall} {phase : ParticipantPhase}
    (acts : lifecycle view (s.last.map (·.phase)) = some ⟨call, phase⟩) {now : Nat}
    (accepted : (s.daemon.recordParticipant (agent.candidate s.last phase none none) now).accepted) :
    (joint agent).LaterUnder guard s (s.reported agent phase now) := by
  have sent := (System.LaterUnder.refl (S := joint agent) s).step (free s (.advance view) (by simp))
    (JointState.Step.advance view ⟨call, phase⟩ idle acts)
  exact sent_round free rfl sent rfl accepted

end Rounds

/-- A report does not move an aborting generation. -/
theorem recordParticipant_aborting {g : GenerationState} {report : ParticipantReport} {now : Nat}
    (aborting : g.phase = .aborting) : (g.recordParticipant report now).state.phase = .aborting := by
  have rejects (message : String) : (g.rejectReport message now).state.phase = .aborting := by
    have same : (g.recordControlFailure message).phase = .aborting := (recordControlFailure_same message).2.2.trans aborting
    simp [GenerationState.rejectReport, GenerationState.abort, same]
  have commits : ((g.noteReport report).applyReports now).state.phase = .aborting := by
    have same : (g.noteReport report).phase = .aborting := (noteReport_same report).2.2.trans aborting
    unfold GenerationState.applyReports
    split
    · simp [GenerationState.abort, same]
    split
    · simp [GenerationState.quiesce, same]
    · unfold GenerationState.advanceBarrier
      split
      · exact same
      · simp [barrier, same]
  unfold GenerationState.recordParticipant
  simp only
  split
  · exact aborting
  split
  · exact rejects _
  split
  · exact rejects _
  split
  · exact aborting
  split
  · exact rejects _
  split
  · exact rejects _
  split
  · exact rejects _
  · exact commits

/-- The Agent can still reach DRAINED. -/
def CanDrain (agent : AgentIdentity) (s : JointState) : Prop :=
  ∃ t, (joint agent).Later s t ∧ t.last.map (·.phase) = some .drained

/-- Retirement turns climb towards DRAINED and stop there. -/
theorem retirement_turn_climbs {phase : ParticipantPhase} {turn : LifecycleTurn}
    (acts : lifecycle .aborting (some phase) = some turn) :
    phase.rank < turn.report.rank ∧ ParticipantPhase.joined.rank ≤ turn.report.rank ∧ turn.report ≠ .finalized ∧
      turn.report.rank ≤ ParticipantPhase.drained.rank := by
  revert acts
  cases phase <;> rintro ⟨⟩ <;> decide

/-- A synced Agent drains by its retirement turns alone. -/
theorem Synced.canDrain {agent : AgentIdentity} {s : JointState} {recorded : ParticipantReport}
    (reached : (joint agent).Reachable s) (retiring : Retiring agent s recorded) (synced : Synced s recorded) :
    CanDrain agent s := by
  obtain ⟨own, ownHeld, -, -⟩ := id synced
  generalize left : ParticipantPhase.drained.rank - own.phase.rank = steps
  -- Each accepted turn leaves a retiring, synced state closer to DRAINED.
  induction steps using Nat.strong_induction_on generalizing s recorded own with
  | _ steps ih =>
    have lag := reachable_lag reached
    rcases (retirementAccepted_iff_synced lag retiring).mpr synced with drained | ⟨turn, acts, accepted⟩
    · exact ⟨s, .refl s, drained⟩
    · have round : (joint agent).Later s (s.reported agent turn.report 0) :=
        advance_round (fun _ _ _ => trivial) retiring.idle .aborting acts (accepted 0)
      rw [ownHeld, Option.map_some] at acts
      obtain ⟨climbs, joined, unfinalized, bound⟩ := retirement_turn_climbs acts
      have retires : Retiring agent (s.reported agent turn.report 0) (agent.candidate s.last turn.report none none) :=
        ⟨recordParticipant_aborting retiring.aborting, recorded_of_accepted (accepted 0), joined, unfinalized, rfl⟩
      have past : turn.report ≠ .joining := by
        intro joining
        rw [joining] at joined
        exact absurd joined (by decide)
      have less : ParticipantPhase.drained.rank - turn.report.rank < steps := by omega
      obtain ⟨t, later, drained⟩ := ih _ less (round.reachable reached) retires
        ⟨_, rfl, past, Or.inr ⟨rfl, rfl⟩⟩ _ rfl rfl
      exact ⟨t, round.trans later, drained⟩

/-- In every run in which no committed join or failure report loses all its
acknowledgements, a retiring Agent's next retirement report is accepted and it
can reach DRAINED; and over all runs that report is accepted exactly when the
local report is synced with the recorded one. -/
theorem retirement_survives (agent : AgentIdentity) :
    (∀ s recorded, (joint agent).ReachableUnder (Acknowledged agent) s → Retiring agent s recorded →
      RetirementAccepted agent s ∧ CanDrain agent s) ∧
    ∀ s recorded, (joint agent).Reachable s → Retiring agent s recorded →
      (RetirementAccepted agent s ↔ Synced s recorded) := by
  refine ⟨?_, ?_⟩
  · intro s recorded reached retiring
    have lag := reachable_lag reached.reachable
    have even : Even agent s := acknowledged_even reached (by simp [retiring.idle])
    have synced := even.synced lag retiring
    exact ⟨(retirementAccepted_iff_synced lag retiring).mpr synced, synced.canDrain reached.reachable retiring⟩
  · intro s recorded reached retiring
    exact retirementAccepted_iff_synced (reachable_lag reached) retiring

/-! ## A lost control failure -/

/-- The Agent of PE 0. -/
def agentZero : AgentIdentity := ⟨⟨1, 1⟩, ⟨0, 1⟩, 0⟩

/-- A generation of two PEs as installed, before the Agent's first report. -/
def atInstall : JointState :=
  ⟨.installed ⟨⟨0, 1⟩, [⟨.atnAgent, 0⟩, ⟨.ffnAgent, 1⟩]⟩ ∅ ∅ 0, none, none⟩

/-- The join is open: the Agent and its peer have reported `join_ready`. -/
def atJoin : JointState :=
  let s := atInstall.reported agentZero .joinReady 1
  { s with daemon := (s.daemon.recordParticipant ⟨⟨2, 1⟩, ⟨0, 1⟩, 1, .joinReady, none, none⟩ 2).state }

/-- The Agent has joined. -/
def atJoined : JointState :=
  (atJoin.reported agentZero .joining 3).reported agentZero .joined 4

/-- The Agent reports that its health poll raised. -/
def pollRaised : ParticipantReport :=
  agentZero.candidate atJoined.last .joined none (some "native failure query raised")

/-- The daemon has committed that report and aborts; no acknowledgement arrived. -/
def committed : JointState :=
  { atJoined with daemon := (atJoined.daemon.recordParticipant pollRaised 5).state, sending := some pollRaised }

theorem committed_later : (joint agentZero).LaterUnder (Acknowledged agentZero) atInstall committed := by
  have free (s : JointState) (label : JointStep) (sends : label ≠ .giveUp) : Acknowledged agentZero s label :=
    fun gives => absurd gives sends
  have ready : (joint agentZero).LaterUnder (Acknowledged agentZero) atInstall (atInstall.reported agentZero .joinReady 1) :=
    advance_round free rfl .preparingJoin rfl rfl
  have opened : (joint agentZero).LaterUnder (Acknowledged agentZero) atInstall atJoin :=
    ready.step (free _ (.daemon _) (by simp)) (JointState.Step.daemon (.recordParticipant _ 2) (by rintro _ _ ⟨⟩; decide))
  have joining : (joint agentZero).LaterUnder (Acknowledged agentZero) atJoin (atJoin.reported agentZero .joining 3) :=
    advance_round free rfl .joining rfl rfl
  have joined : (joint agentZero).LaterUnder (Acknowledged agentZero) _ atJoined :=
    advance_round free rfl .joining rfl rfl
  have sent := ((opened.trans joining).trans joined).step (free _ (.reportControlFailure _) (by simp))
    (JointState.Step.reportControlFailure "native failure query raised" _ rfl rfl rfl (by decide))
  exact sent.step (free _ (.deliver 5) (by simp)) (JointState.Step.deliver 5 pollRaised rfl)

theorem committed_reachable : (joint agentZero).ReachableUnder (Acknowledged agentZero) committed :=
  committed_later.reachable (.start ⟨⟨_, _, _, _, rfl⟩, rfl, by decide, rfl, rfl⟩)

/-- Acknowledged, the control failure does not stand in the way of retirement. -/
theorem retirement_survives_pollRaised :
    Retiring agentZero ⟨committed.daemon, some pollRaised, none⟩ pollRaised ∧
      RetirementAccepted agentZero ⟨committed.daemon, some pollRaised, none⟩ ∧
        CanDrain agentZero ⟨committed.daemon, some pollRaised, none⟩ := by
  have reached : (joint agentZero).ReachableUnder (Acknowledged agentZero) ⟨committed.daemon, some pollRaised, none⟩ :=
    .next committed_reachable (by rintro ⟨⟩) (JointState.Step.acknowledge pollRaised rfl rfl)
  have retiring : Retiring agentZero ⟨committed.daemon, some pollRaised, none⟩ pollRaised :=
    ⟨rfl, rfl, by decide, by decide, rfl⟩
  exact ⟨retiring, (retirement_survives agentZero).1 _ _ reached retiring⟩

/-- With every acknowledgement of that report lost, the Agent's QUIESCED report
repeats a local report without the failure, and the daemon refuses it. -/
theorem retirement_refused_pollRaised :
    ∃ s recorded, (joint agentZero).Reachable s ∧ Retiring agentZero s recorded ∧ ¬ RetirementAccepted agentZero s := by
  refine ⟨{ committed with sending := none }, pollRaised, ?_, ⟨rfl, rfl, by decide, by decide, rfl⟩, ?_⟩
  · exact committed_reachable.reachable.step (JointState.Step.giveUp pollRaised rfl)
  · rintro (drained | ⟨turn, acts, accepted⟩)
    · cases drained
    · obtain rfl : LifecycleTurn.mk (some .quiesce) .quiesced = turn := Option.some.inj acts
      exact absurd (accepted 6) (by rintro ⟨⟩)

end CrossPool.Control
