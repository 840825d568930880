import CrossPool.Control.Plane
import CrossPool.Control.Barrier

/-!
# How a generation may change

`Evolves` is what any number of controller operations, and a watchdog pass, may
do to a generation: its plan and owners stay, a recorded failure stays in its
slot and keeps the phase out of service, ABORTING is left only to STOPPED, and
STOPPED is entered for one of two reasons and never left. It is a preorder, so a
section of several operations evolves the generation when each of them does.
-/

namespace CrossPool.Control

/-- The phases of a generation that serves or may still come to serve. -/
def GenerationPhase.serving (phase : GenerationPhase) : Bool :=
  phase.preExecutable ∨ phase = .executable

/-- Some failure is recorded. -/
def GenerationState.Failed (g : GenerationState) : Prop :=
  g.invocationFailure ≠ none ∨ g.ownerFailure ≠ none ∨ g.controlFailure ≠ none

/-- A recorded failure keeps the generation out of service. -/
def Latched (g : GenerationState) : Prop :=
  g.Failed → g.phase.serving = false

/-- A PE has reported one of these phases. -/
def GenerationState.Reported (g : GenerationState) (pe : Nat) (phases : List ParticipantPhase) : Prop :=
  ∃ report, g.participants.lookup pe = some report ∧ report.phase ∈ phases

/-- Every PE has reported FINALIZED. -/
def Finalized (g : GenerationState) : Prop :=
  ∀ pe < g.peCount, g.Reported pe [.finalized]

/-- Every Instance-rank owner is gone, and every Agent owner is gone or has
reported DRAINED or FINALIZED. -/
structure Abandoned (gone : ProcUniqId → Prop) (g : GenerationState) : Prop where
  instances : ∀ rank owner, g.instanceOwners.lookup rank = some owner → gone owner
  agents : ∀ pe owner, g.agentOwners.lookup pe = some owner → gone owner ∨ g.Reported pe [.drained, .finalized]

/-- Why a generation is STOPPED. -/
def Ended (gone : ProcUniqId → Prop) (g : GenerationState) : Prop :=
  Finalized g ∨ Abandoned gone g

/-- What no section undoes: plan and owners, recorded failures, and how far the
generation is out of service. -/
structure Carries (g g' : GenerationState) : Prop where
  plan : g'.plan = g.plan
  agentOwners : g'.agentOwners = g.agentOwners
  instanceOwners : g'.instanceOwners = g.instanceOwners
  invocationFailure : ∀ failure, g.invocationFailure = some failure → g'.invocationFailure = some failure
  ownerFailure : ∀ failure, g.ownerFailure = some failure → g'.ownerFailure = some failure
  controlFailure : ∀ failure, g.controlFailure = some failure → g'.controlFailure = some failure
  latched : Latched g → Latched g'
  retreats : g.phase.serving = false → g'.phase.serving = false
  aborting : g.phase = .aborting → g'.phase = .aborting ∨ g'.phase = .stopped
  stopped : g.phase = .stopped → g'.phase = .stopped ∧ g'.participants = g.participants

/-- How a generation becomes STOPPED: its last PE reports FINALIZED, or it has
come to be ABORTING, and its owners are gone when it is stopped. -/
def Stops (gone : ProcUniqId → Prop) (g g' : GenerationState) : Prop :=
  Finalized g' ∨
    ∃ before now, Carries g before ∧ before.phase = .aborting ∧ Abandoned gone before ∧
      Carries (before.transition .stopped now).state g'

/-- What a section may do to the generation it finds. -/
structure Evolves (gone : ProcUniqId → Prop) (g g' : GenerationState) : Prop extends Carries g g' where
  stops : g.phase ≠ .stopped → g'.phase = .stopped → Stops gone g g'

section Evolution

variable {gone gone' : ProcUniqId → Prop} {g g₁ g₂ g' : GenerationState} {now : Nat}

theorem Abandoned.of_same (abandoned : Abandoned gone g) (instances : g'.instanceOwners = g.instanceOwners)
    (agents : g'.agentOwners = g.agentOwners) (participants : g'.participants = g.participants) : Abandoned gone g' where
  instances := by rw [instances]; exact abandoned.instances
  agents := by
    unfold GenerationState.Reported
    rw [agents, participants]
    exact abandoned.agents

theorem Ended.of_same (ended : Ended gone g) (plan : g'.plan = g.plan) (instances : g'.instanceOwners = g.instanceOwners)
    (agents : g'.agentOwners = g.agentOwners) (participants : g'.participants = g.participants) : Ended gone g' := by
  rcases ended with finalized | abandoned
  · refine Or.inl ?_
    unfold Finalized GenerationState.peCount GenerationState.Reported
    rw [plan, participants]
    exact finalized
  · exact Or.inr (abandoned.of_same instances agents participants)

theorem Ended.mono (ended : Ended gone g) (more : ∀ owner, gone owner → gone' owner) : Ended gone' g := by
  rcases ended with finalized | abandoned
  · exact Or.inl finalized
  · refine Or.inr ⟨?_, ?_⟩
    · exact fun rank owner found => more owner (abandoned.instances rank owner found)
    · exact fun pe owner found => (abandoned.agents pe owner found).imp_left (more owner)

theorem Carries.refl (g : GenerationState) : Carries g g where
  plan := rfl
  agentOwners := rfl
  instanceOwners := rfl
  invocationFailure := fun _ found => found
  ownerFailure := fun _ found => found
  controlFailure := fun _ found => found
  latched := fun latched => latched
  retreats := fun out => out
  aborting := Or.inl
  stopped := fun stopped => ⟨stopped, rfl⟩

theorem Carries.trans (first : Carries g g₁) (second : Carries g₁ g₂) : Carries g g₂ where
  plan := second.plan.trans first.plan
  agentOwners := second.agentOwners.trans first.agentOwners
  instanceOwners := second.instanceOwners.trans first.instanceOwners
  invocationFailure := fun failure found => second.invocationFailure failure (first.invocationFailure failure found)
  ownerFailure := fun failure found => second.ownerFailure failure (first.ownerFailure failure found)
  controlFailure := fun failure found => second.controlFailure failure (first.controlFailure failure found)
  latched := fun latched => second.latched (first.latched latched)
  retreats := fun out => second.retreats (first.retreats out)
  aborting := by
    intro aborting
    rcases first.aborting aborting with still | stopped
    · exact second.aborting still
    · exact Or.inr (second.stopped stopped).1
  stopped := by
    intro stopped
    obtain ⟨middle, kept⟩ := first.stopped stopped
    obtain ⟨last, same⟩ := second.stopped middle
    exact ⟨last, same.trans kept⟩

/-- A permitted transition sets the phase and its clock only. -/
theorem transition_state {phase : GenerationPhase} (edge : g.phase.allows phase) (moves : g.phase ≠ phase) :
    (g.transition phase now).state = { g with phase := phase, phaseStartedAt := now } := by
  unfold GenerationState.transition
  rw [if_neg moves, if_pos edge, Outcome.ok_state]

theorem transition_stopped (aborting : g.phase = .aborting) :
    (g.transition .stopped now).state = { g with phase := .stopped, phaseStartedAt := now } := by
  refine transition_state ?_ ?_
  · rw [aborting]; decide
  · rw [aborting]; decide

/-- Once stopped, a generation keeps the reports and owners it ended with. -/
theorem Stops.ended (stops : Stops gone g g') : Ended gone g' := by
  rcases stops with finalized | ⟨before, now, -, aborting, abandoned, later⟩
  · exact Or.inl finalized
  · rw [transition_stopped aborting] at later
    exact Or.inr (abandoned.of_same later.instanceOwners later.agentOwners (later.stopped rfl).2)

theorem Evolves.refl (g : GenerationState) : Evolves gone g g :=
  ⟨.refl g, fun live stopped => absurd stopped live⟩

theorem Evolves.trans (first : Evolves gone g g₁) (second : Evolves gone g₁ g₂) : Evolves gone g g₂ := by
  refine ⟨first.toCarries.trans second.toCarries, ?_⟩
  intro live stopped
  by_cases middle : g₁.phase = .stopped
  · rcases first.stops live middle with finalized | ⟨before, now, earlier, aborting, abandoned, later⟩
    · refine Or.inl ?_
      unfold Finalized GenerationState.peCount GenerationState.Reported
      rw [second.plan, (second.stopped middle).2]
      exact finalized
    · exact Or.inr ⟨before, now, earlier, aborting, abandoned, later.trans second.toCarries⟩
  · rcases second.stops middle stopped with finalized | ⟨before, now, earlier, rest⟩
    · exact Or.inl finalized
    · exact Or.inr ⟨before, now, first.toCarries.trans earlier, rest⟩

/-! ## Single operations -/

/-- Some failure slot may have been filled, and a live generation may have
committed a report; the rest is the same. -/
structure Noted (g g' : GenerationState) : Prop where
  plan : g'.plan = g.plan
  agentOwners : g'.agentOwners = g.agentOwners
  instanceOwners : g'.instanceOwners = g.instanceOwners
  participants : g.phase = .stopped → g'.participants = g.participants
  phase : g'.phase = g.phase
  invocationFailure : ∀ failure, g.invocationFailure = some failure → g'.invocationFailure = some failure
  ownerFailure : ∀ failure, g.ownerFailure = some failure → g'.ownerFailure = some failure
  controlFailure : ∀ failure, g.controlFailure = some failure → g'.controlFailure = some failure

theorem recordControlFailure_noted (message : String) : Noted g (g.recordControlFailure message) := by
  unfold GenerationState.recordControlFailure
  split
  · rename_i empty
    refine ⟨rfl, rfl, rfl, fun _ => rfl, rfl, fun _ found => found, fun _ found => found, ?_⟩
    exact fun failure found => absurd (empty.symm.trans found) (by simp)
  · exact ⟨rfl, rfl, rfl, fun _ => rfl, rfl, fun _ found => found, fun _ found => found, fun _ found => found⟩

theorem recordOwnerFailure_noted (failure : OwnerFailure) : Noted g (g.recordOwnerFailure failure) := by
  unfold GenerationState.recordOwnerFailure
  split
  · rename_i empty
    refine ⟨rfl, rfl, rfl, fun _ => rfl, rfl, fun _ found => found, ?_, fun _ found => found⟩
    exact fun failure found => absurd (empty.symm.trans found) (by simp)
  · exact ⟨rfl, rfl, rfl, fun _ => rfl, rfl, fun _ found => found, fun _ found => found, fun _ found => found⟩

theorem recordInvocationFailure_noted (failure : InvocationFailure) : Noted g (g.recordInvocationFailure failure) := by
  unfold GenerationState.recordInvocationFailure
  split
  · rename_i empty
    refine ⟨rfl, rfl, rfl, fun _ => rfl, rfl, ?_, fun _ found => found, fun _ found => found⟩
    exact fun failure found => absurd (empty.symm.trans found) (by simp)
  · split
    · exact recordControlFailure_noted _
    · exact ⟨rfl, rfl, rfl, fun _ => rfl, rfl, fun _ found => found, fun _ found => found, fun _ found => found⟩

/-- Where a generation out of service is left, once failures were noted. -/
theorem Noted.settle (noted : Noted g g₁) {phase : GenerationPhase} (out : phase.serving = false)
    (keeps : g.phase = .aborting ∨ g.phase = .stopped → phase = g.phase) (lives : phase = .stopped → g.phase = .stopped)
    (clock : Nat) : Evolves gone g { g₁ with phase := phase, phaseStartedAt := clock } where
  plan := noted.plan
  agentOwners := noted.agentOwners
  instanceOwners := noted.instanceOwners
  invocationFailure := noted.invocationFailure
  ownerFailure := noted.ownerFailure
  controlFailure := noted.controlFailure
  latched := fun _ _ => out
  retreats := fun _ => out
  aborting := fun aborting => Or.inl ((keeps (Or.inl aborting)).trans aborting)
  stopped := fun stopped => ⟨(keeps (Or.inr stopped)).trans stopped, noted.participants stopped⟩
  stops := fun live stopped => absurd (lives stopped) live

/-- A generation out of service may note failures and stay where it is. -/
theorem Noted.stay (noted : Noted g g₁) (out : g.phase.serving = false) : Evolves gone g g₁ := by
  have settled : Evolves gone g { g₁ with phase := g.phase, phaseStartedAt := g₁.phaseStartedAt } :=
    noted.settle out (fun _ => rfl) (fun stopped => stopped) _
  rw [← noted.phase] at settled
  exact settled

theorem Noted.abort (noted : Noted g g₁) : Evolves gone g (g₁.abort now).state := by
  unfold GenerationState.abort
  split
  · rename_i ended
    refine noted.stay ?_
    rw [← noted.phase]
    rcases ended with aborting | stopped
    · rw [aborting]; decide
    · rw [stopped]; decide
  · rename_i live
    have unaborted : g₁.phase ≠ .aborting := fun aborting => live (Or.inl aborting)
    have unstopped : g₁.phase ≠ .stopped := fun stopped => live (Or.inr stopped)
    rw [transition_state (allows_aborting unaborted unstopped) unaborted]
    refine noted.settle (by decide) ?_ (by simp) now
    rw [← noted.phase]
    rintro (aborting | stopped)
    · exact absurd aborting unaborted
    · exact absurd stopped unstopped

theorem Noted.quiesce (noted : Noted g g₁) : Evolves gone g (g₁.quiesce now).state := by
  have aborts (live : g₁.phase.preExecutable) : Evolves gone g (g₁.transition .aborting now).state := by
    have unaborted : g₁.phase ≠ .aborting := by rintro aborting; rw [aborting] at live; cases live
    have unstopped : g₁.phase ≠ .stopped := by rintro stopped; rw [stopped] at live; cases live
    rw [transition_state (allows_aborting unaborted unstopped) unaborted]
    refine noted.settle (by decide) ?_ (by simp) now
    rw [← noted.phase]
    rintro (aborting | stopped)
    · exact absurd aborting unaborted
    · exact absurd stopped unstopped
  have stays (out : g₁.phase.serving = false) : Evolves gone g g₁ :=
    noted.stay (by rw [← noted.phase]; exact out)
  unfold GenerationState.quiesce
  split
  · rename_i phase; exact aborts (by rw [phase]; rfl)
  · rename_i phase; exact aborts (by rw [phase]; rfl)
  · rename_i phase; exact aborts (by rw [phase]; rfl)
  · rename_i phase; exact aborts (by rw [phase]; rfl)
  · rename_i phase
    have edge : g₁.phase.allows .quiescing := by rw [phase]; rfl
    rw [transition_state edge (by rw [phase]; decide)]
    refine noted.settle (by decide) ?_ (by simp) now
    rw [← noted.phase, phase]
    simp
  all_goals
    rename_i phase
    exact stays (by rw [phase]; decide)

theorem Noted.refl (g : GenerationState) : Noted g g :=
  ⟨rfl, rfl, rfl, fun _ => rfl, rfl, fun _ found => found, fun _ found => found, fun _ found => found⟩

theorem quiesce_evolves : Evolves gone g (g.quiesce now).state :=
  (Noted.refl g).quiesce

theorem rejectReport_evolves (message : String) : Evolves gone g (g.rejectReport message now).state :=
  (recordControlFailure_noted message).abort

/-- Initialized instances take no part in the evolution of a generation. -/
theorem evolves_initialized (initialized : AList fun _ : InstanceRankId => ProcUniqId) :
    Evolves gone g { g with initializedInstances := initialized } where
  plan := rfl
  agentOwners := rfl
  instanceOwners := rfl
  invocationFailure := fun _ found => found
  ownerFailure := fun _ found => found
  controlFailure := fun _ found => found
  latched := fun latched => latched
  retreats := fun out => out
  aborting := Or.inl
  stopped := fun stopped => ⟨stopped, rfl⟩
  stops := fun live stopped => absurd stopped live

theorem instanceDeparted_evolves (rank : InstanceRankId) (failure : OwnerFailure) (quiescing : Bool) :
    Evolves gone g (g.instanceDeparted rank failure quiescing now).state := by
  have erased : Evolves gone g { g with initializedInstances := g.initializedInstances.erase rank } :=
    evolves_initialized _
  unfold GenerationState.instanceDeparted
  simp only
  split
  · exact erased
  split
  · exact erased
  · exact erased.trans (recordOwnerFailure_noted failure).quiesce

theorem recordInitialized_evolves (rank : InstanceRankId) (owner : ProcUniqId) (generation : GenerationId) :
    Evolves gone g (g.recordInitialized rank owner generation).state := by
  unfold GenerationState.recordInitialized
  split
  · exact .refl g
  split
  · exact .refl g
  split
  · exact .refl g
  · exact evolves_initialized _

/-! ## Reports -/

theorem Noted.trans (first : Noted g g₁) (second : Noted g₁ g₂) : Noted g g₂ where
  plan := second.plan.trans first.plan
  agentOwners := second.agentOwners.trans first.agentOwners
  instanceOwners := second.instanceOwners.trans first.instanceOwners
  participants := fun stopped =>
    (second.participants (first.phase.trans stopped)).trans (first.participants stopped)
  phase := second.phase.trans first.phase
  invocationFailure := fun failure found => second.invocationFailure failure (first.invocationFailure failure found)
  ownerFailure := fun failure found => second.ownerFailure failure (first.ownerFailure failure found)
  controlFailure := fun failure found => second.controlFailure failure (first.controlFailure failure found)

/-- Committing a report fills no owner failure. -/
theorem noteReport_noted (report : ParticipantReport) (live : g.phase ≠ .stopped) :
    Noted g (g.noteReport report) ∧ (g.noteReport report).ownerFailure = g.ownerFailure := by
  have inserted : Noted g { g with participants := g.participants.insert report.pe report } :=
    ⟨rfl, rfl, rfl, fun stopped => absurd stopped live, rfl, fun _ found => found, fun _ found => found,
      fun _ found => found⟩
  have control (g : GenerationState) (message : String) : (g.recordControlFailure message).ownerFailure = g.ownerFailure := by
    unfold GenerationState.recordControlFailure
    split <;> rfl
  have invocation (g : GenerationState) (failure : InvocationFailure) :
      (g.recordInvocationFailure failure).ownerFailure = g.ownerFailure := by
    unfold GenerationState.recordInvocationFailure
    split
    · rfl
    · split
      · exact control _ _
      · rfl
  unfold GenerationState.noteReport
  cases report.invocationFailure with
  | none =>
    cases report.controlFailure with
    | none => exact ⟨inserted, rfl⟩
    | some message => exact ⟨inserted.trans (recordControlFailure_noted message), control _ _⟩
  | some failure =>
    have noted := inserted.trans (recordInvocationFailure_noted failure)
    cases report.controlFailure with
    | none => exact ⟨noted, invocation _ _⟩
    | some message =>
      exact ⟨noted.trans (recordControlFailure_noted message), (control _ _).trans (invocation _ _)⟩

/-- A barrier opened out of service leads further out. -/
theorem barrier_retreats {phase next : GenerationPhase} {unanimous : ParticipantPhase}
    (opens : barrier phase = some (unanimous, next)) (out : phase.serving = false) : next.serving = false := by
  revert opens out
  cases phase <;> simp only [barrier, Option.some.injEq, Prod.mk.injEq, reduceCtorEq, false_implies, and_imp] <;>
    rintro - rfl <;> decide

/-- The only barrier into STOPPED is the unanimous FINALIZED. -/
theorem barrier_stopped {phase : GenerationPhase} {unanimous : ParticipantPhase}
    (opens : barrier phase = some (unanimous, .stopped)) : unanimous = .finalized := by
  revert opens
  cases phase <;> simp [barrier, eq_comm]

/-- Advancing the barrier of a generation in which no failure was just recorded. -/
theorem Noted.advance (noted : Noted g g₁) (fresh : Latched g → g₁.Failed → g.phase.serving = true → False) :
    Evolves gone g (g₁.advanceBarrier now).state := by
  have stays : Evolves gone g g₁ := by
    refine ⟨⟨noted.plan, noted.agentOwners, noted.instanceOwners, noted.invocationFailure, noted.ownerFailure,
      noted.controlFailure, ?_, ?_, ?_, ?_⟩, ?_⟩
    · intro latched failed
      rw [noted.phase]
      exact Bool.eq_false_iff.mpr fun serves => fresh latched failed serves
    · rw [noted.phase]; exact fun out => out
    · rw [noted.phase]; exact Or.inl
    · exact fun stopped => ⟨noted.phase.trans stopped, noted.participants stopped⟩
    · intro live stopped
      exact absurd (noted.phase.symm.trans stopped) live
  unfold GenerationState.advanceBarrier
  split
  · exact stays
  rename_i full
  split
  · rename_i unanimous next opens
    split
    · rename_i agree
      have edge := barrier_allows opens
      have differs : g₁.phase ≠ next := by
        intro same
        rw [← same] at opens
        revert opens
        cases g₁.phase <;> simp [barrier]
      rw [transition_state edge differs]
      rw [noted.phase] at opens
      refine ⟨⟨noted.plan, noted.agentOwners, noted.instanceOwners, noted.invocationFailure, noted.ownerFailure,
        noted.controlFailure, ?_, ?_, ?_, ?_⟩, ?_⟩
      · intro latched failed
        exact barrier_retreats opens (Bool.eq_false_iff.mpr fun serves => fresh latched failed serves)
      · exact barrier_retreats opens
      · intro aborting
        rw [aborting] at opens
        cases opens
      · intro stopped
        rw [stopped] at opens
        cases opens
      · intro _ stopped
        simp only at stopped
        subst stopped
        obtain rfl := barrier_stopped opens
        refine Or.inl fun pe known => ?_
        have recorded : pe ∈ g₁.participants.keys := by
          rw [← List.mem_toFinset, not_not.mp full, Finset.mem_range]
          exact known
        obtain ⟨report, found⟩ := mem_keys_iff_lookup.mp recorded
        refine ⟨report, found, ?_⟩
        have member : report.phase ∈ g₁.recordedPhases :=
          List.mem_toFinset.mpr (List.mem_map.mpr ⟨⟨pe, report⟩, AList.mem_lookup_iff.mp found, rfl⟩)
        rw [agree, Finset.mem_singleton] at member
        simp [member]
    · exact stays
  · exact stays

/-- Applying reports after one was committed. -/
theorem Noted.applyReports (noted : Noted g g₁) (owner : g₁.ownerFailure = g.ownerFailure) :
    Evolves gone g (g₁.applyReports now).state := by
  unfold GenerationState.applyReports
  split
  · exact noted.abort
  rename_i control
  split
  · exact noted.quiesce
  rename_i invocation
  refine noted.advance ?_
  rintro latched (failed | failed | failed) serves
  · -- an invocation failure reaches the barrier only out of service
    refine invocation ⟨failed, ?_, ?_, ?_⟩
    all_goals
      rw [noted.phase]
      intro phase
      rw [phase] at serves
      cases serves
  · rw [owner] at failed
    have out := latched (Or.inr (Or.inl failed))
    rw [out] at serves
    cases serves
  · exact control failed

theorem recordParticipant_evolves (report : ParticipantReport) : Evolves gone g (g.recordParticipant report now).state := by
  unfold GenerationState.recordParticipant
  simp only
  split
  · exact .refl g
  split
  · exact rejectReport_evolves _
  split
  · exact rejectReport_evolves _
  split
  · exact .refl g
  rename_i live
  split
  · exact rejectReport_evolves _
  split
  · exact rejectReport_evolves _
  split
  · exact rejectReport_evolves _
  · obtain ⟨noted, owner⟩ := noteReport_noted report live
    exact noted.applyReports owner

/-! ## A watchdog pass -/

section Watchdog

variable {Doc : Type} {config : Config} {s : Plane Doc} {alive : ProcUniqId → Bool}

theorem reconcileAgents_evolves : Evolves gone g (reconcileAgents s g alive now) := by
  unfold reconcileAgents
  split
  · exact (recordOwnerFailure_noted _).abort
  · exact .refl g

theorem reconcileInstances_evolves : Evolves gone g (reconcileInstances s g alive now) := by
  unfold reconcileInstances
  split
  · exact .refl g
  split
  · exact (recordOwnerFailure_noted _).quiesce
  · exact .refl g

theorem reconcileTimeouts_evolves : Evolves gone g (reconcileTimeouts config g now) := by
  unfold reconcileTimeouts
  split
  · exact (recordControlFailure_noted _).abort
  split
  · split
    · exact (recordControlFailure_noted _).abort
    · exact .refl g
  · exact .refl g

/-- A retirable generation is abandoned, as far as the observed deaths go. -/
theorem abandoned_of_retirable (seen : ∀ owner, alive owner = false → gone owner) (ready : retirable g alive) :
    Abandoned gone g := by
  unfold retirable at ready
  simp only [decide_eq_true_eq, List.all_eq_true, Bool.not_eq_true'] at ready
  obtain ⟨instances, agents⟩ := ready
  constructor
  · intro rank owner found
    exact seen owner (instances ⟨rank, owner⟩ (AList.mem_lookup_iff.mp found))
  · intro pe owner found
    have reported (phase : ParticipantPhase) (phases : List ParticipantPhase) (listed : phase ∈ phases)
        (last : (g.participants.lookup pe).map (·.phase) = some phase) : g.Reported pe phases := by
      obtain ⟨report, recorded, rfl⟩ := Option.map_eq_some_iff.mp last
      exact ⟨report, recorded, listed⟩
    rcases agents ⟨pe, owner⟩ (AList.mem_lookup_iff.mp found) with dead | drained | finalized
    · exact Or.inl (seen owner dead)
    · exact Or.inr (reported .drained _ (by simp) drained)
    · exact Or.inr (reported .finalized _ (by simp) finalized)

theorem reconcileRetirement_evolves (seen : ∀ owner, alive owner = false → gone owner) :
    Evolves gone g (reconcileRetirement g alive now) := by
  unfold reconcileRetirement
  split
  · rename_i retires
    obtain ⟨aborting, ready⟩ := retires
    have abandoned := abandoned_of_retirable seen ready
    have same : (g.transition .stopped now).state = { g with phase := .stopped, phaseStartedAt := now } :=
      transition_stopped aborting
    refine ⟨?_, fun _ _ => Or.inr ⟨g, now, .refl g, aborting, abandoned, .refl _⟩⟩
    rw [same]
    refine ⟨rfl, rfl, rfl, fun _ found => found, fun _ found => found, fun _ found => found, ?_, ?_, ?_, ?_⟩
    · exact fun _ _ => rfl
    · exact fun _ => rfl
    · exact fun _ => Or.inr rfl
    · exact fun stopped => absurd (aborting.symm.trans stopped) (by decide)
  · exact .refl g

theorem reconcile_evolves (seen : ∀ owner, alive owner = false → gone owner) :
    Evolves gone g (reconcile config s alive now g) :=
  ((reconcileAgents_evolves.trans reconcileInstances_evolves).trans reconcileTimeouts_evolves).trans
    (reconcileRetirement_evolves seen)

end Watchdog

end Evolution

end CrossPool.Control
