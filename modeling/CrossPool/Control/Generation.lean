import CrossPool.Control.Phase
import Mathlib.Data.List.AList
import Mathlib.Data.Finset.Range

/-!
# The daemon's Fabric controller

`GenerationState` is the authoritative state of one installed generation and the
operations below are `FabricController`'s on it. An operation that raises still
leaves what it had written, so each returns an `Outcome`: the state after the
call, and the error when it raised. A rejected report records a control failure
and selects abort before it raises, which is why the state after an error is
part of the model.
-/

namespace CrossPool.Control

/-- Random identity of one daemon-authoritative Fabric world. -/
structure GenerationId where
  high : Nat
  low : Nat
  deriving DecidableEq, Repr

/-- Process identity a participant proves its reports with. -/
structure ProcessRef where
  pid : Nat
  abiVersion : Nat
  deriving DecidableEq, Repr

/-- Host process identity: a pid and the creation time of that process. -/
structure ProcUniqId where
  pid : Nat
  createTime : Nat
  deriving DecidableEq, Repr

/-- Daemon-local identity of one configured Instance rank. -/
structure InstanceRankId where
  modelId : String
  rank : Nat
  deriving DecidableEq, Repr

/-- Agent role owning one Fabric PE. -/
inductive FabricRole where
  | atnAgent | ffnAgent
  deriving DecidableEq, Repr

/-- One PE's role and device. -/
structure PePlacement where
  role : FabricRole
  device : Nat
  deriving DecidableEq, Repr

/-- Canonical device result codes. -/
inductive ResultCode where
  | ok | shutdown | protocolMismatch | timeout
  deriving DecidableEq, Repr

/-- Canonical failure of one distributed Fabric invocation. -/
structure InvocationFailure where
  resultCode : ResultCode
  originPe : Nat
  instanceIndex : Nat
  invocationSequence : Nat
  layerOrdinal : Nat
  deriving DecidableEq, Repr

/-- Why the daemon holds a retained owner for lost. -/
inductive OwnerFailureReason where
  | exited | stale | replaced
  deriving DecidableEq, Repr

/-- Daemon-observed loss of one owner of the generation. -/
inductive OwnerFailure where
  | pe (role : FabricRole) (pe : Nat) (reason : OwnerFailureReason)
  | instanceRank (rank : InstanceRankId) (reason : OwnerFailureReason)
  deriving DecidableEq, Repr

/-- The parts of the immutable deployment plan the controller reads. -/
structure DeploymentPlan where
  generation : GenerationId
  pePlacements : List PePlacement
  deriving DecidableEq, Repr

/-- One Agent's local Fabric lifecycle report. -/
structure ParticipantReport where
  owner : ProcessRef
  generation : GenerationId
  pe : Nat
  phase : ParticipantPhase
  invocationFailure : Option InvocationFailure := none
  controlFailure : Option String := none
  deriving DecidableEq, Repr

/-- Kinds of a daemon-domain error. -/
inductive DaemonErrorKind where
  | conflict | notFound | notReady
  deriving DecidableEq, Repr

/-- An error the daemon raises to its caller. -/
structure DaemonError where
  kind : DaemonErrorKind
  message : String
  deriving DecidableEq, Repr

/-- Authoritative state of one immutable Fabric generation. -/
structure GenerationState where
  plan : DeploymentPlan
  phase : GenerationPhase
  phaseStartedAt : Nat
  invocationFailure : Option InvocationFailure
  ownerFailure : Option OwnerFailure
  controlFailure : Option String
  agentOwners : AList fun _ : Nat => ProcUniqId
  instanceOwners : AList fun _ : InstanceRankId => ProcUniqId
  participants : AList fun _ : Nat => ParticipantReport
  initializedInstances : AList fun _ : InstanceRankId => ProcUniqId

/-- What a call leaves behind: the state, and the error when it raised. -/
structure Outcome where
  state : GenerationState
  error : Option DaemonError

/-- The call returned. -/
def Outcome.ok (state : GenerationState) : Outcome :=
  ⟨state, none⟩

/-- The call raised `conflict` after its writes. -/
def Outcome.conflict (state : GenerationState) (message : String) : Outcome :=
  ⟨state, some ⟨.conflict, message⟩⟩

/-- The call did not raise. -/
def Outcome.accepted (outcome : Outcome) : Prop :=
  outcome.error = none

@[simp] theorem Outcome.ok_state (state : GenerationState) : (Outcome.ok state).state = state := rfl
@[simp] theorem Outcome.conflict_state (state : GenerationState) (message : String) :
    (Outcome.conflict state message).state = state := rfl
@[simp] theorem Outcome.ok_accepted (state : GenerationState) : (Outcome.ok state).accepted := rfl
@[simp] theorem Outcome.conflict_not_accepted (state : GenerationState) (message : String) :
    ¬ (Outcome.conflict state message).accepted := by
  simp [Outcome.accepted, Outcome.conflict]

namespace GenerationState

variable (g : GenerationState)

/-- Number of PEs the plan places. -/
def peCount : Nat :=
  g.plan.pePlacements.length

/-- A fresh generation as plan formation installs it. -/
def installed (plan : DeploymentPlan) (agentOwners : AList fun _ : Nat => ProcUniqId)
    (instanceOwners : AList fun _ : InstanceRankId => ProcUniqId) (now : Nat) : GenerationState where
  plan := plan
  phase := .preparingJoin
  phaseStartedAt := now
  invocationFailure := none
  ownerFailure := none
  controlFailure := none
  agentOwners := agentOwners
  instanceOwners := instanceOwners
  participants := ∅
  initializedInstances := ∅

/-- Retain the first nonempty control or lifecycle diagnostic. -/
def recordControlFailure (failure : String) : GenerationState :=
  match g.controlFailure with
  | none => { g with controlFailure := some failure }
  | some _ => g

/-- Retain the first canonical invocation failure; a second, different one is a
control failure. -/
def recordInvocationFailure (failure : InvocationFailure) : GenerationState :=
  match g.invocationFailure with
  | none => { g with invocationFailure := some failure }
  | some first =>
    if first ≠ failure then
      g.recordControlFailure "participants reported conflicting canonical invocation failures"
    else g

/-- Retain the first daemon-observed owner failure. -/
def recordOwnerFailure (failure : OwnerFailure) : GenerationState :=
  match g.ownerFailure with
  | none => { g with ownerFailure := some failure }
  | some _ => g

/-- Move through one exact generation edge without resetting retries. -/
def transition (phase : GenerationPhase) (now : Nat) : Outcome :=
  if g.phase = phase then .ok g
  else if g.phase.allows phase then .ok { g with phase := phase, phaseStartedAt := now }
  else .conflict g s!"Fabric generation cannot transition from {g.phase.value} to {phase.value}"

/-- Stop admission, or abort a generation whose join is incomplete. -/
def quiesce (now : Nat) : Outcome :=
  match g.phase with
  | .preparingJoin | .joining | .preparingExecution | .activating => g.transition .aborting now
  | .executable => g.transition .quiescing now
  | .quiescing | .draining | .finalizing | .aborting | .stopped => .ok g

/-- Select fail-stop cleanup for any live generation phase. -/
def abort (now : Nat) : Outcome :=
  if g.phase = .aborting ∨ g.phase = .stopped then .ok g else g.transition .aborting now

/-- Remove initialization state and select cleanup for an Instance-rank loss. -/
def instanceDeparted (instanceRank : InstanceRankId) (failure : OwnerFailure) (leasesQuiescing : Bool) (now : Nat) :
    Outcome :=
  let g := { g with initializedInstances := g.initializedInstances.erase instanceRank }
  if g.phase = .quiescing ∧ leasesQuiescing then .ok g
  else if g.phase = .draining ∨ g.phase = .finalizing ∨ g.phase = .aborting ∨ g.phase = .stopped then .ok g
  else (g.recordOwnerFailure failure).quiesce now

/-- Commit one owner-validated Instance-rank initialization barrier. -/
def recordInitialized (instanceRank : InstanceRankId) (owner : ProcUniqId) (generation : GenerationId) : Outcome :=
  if generation ≠ g.plan.generation then .conflict g "instance initialized generation differs"
  else if g.phase ≠ .executable then .conflict g "instance initialization requires executable Fabric"
  else if g.instanceOwners.lookup instanceRank ≠ some owner then
    .conflict g "instance initialization owner differs from Fabric plan"
  else .ok { g with initializedInstances := g.initializedInstances.insert instanceRank owner }

/-- Record one report-protocol failure, select abort, and reject the report. -/
def rejectReport (message : String) (now : Nat) : Outcome :=
  .conflict ((g.recordControlFailure message).abort now).state message

end GenerationState

/-- The participant phases a changed report may carry in each generation phase. -/
def allowedPhases : GenerationPhase → List ParticipantPhase
  | .preparingJoin => [.joinReady]
  | .joining => [.joining, .joined]
  | .preparingExecution => [.executionReady]
  | .activating => [.active]
  | .executable => []
  | .quiescing => [.quiesced]
  | .draining => [.draining, .drained]
  | .finalizing => [.finalized]
  | .aborting => [.quiesced, .draining, .drained]
  | .stopped => []

/-- Why the phase edge of a report is refused, if it is. -/
def edgeRejection (previous : Option ParticipantReport) (report : ParticipantReport) (aborting : Bool) :
    Option String :=
  match previous with
  | none =>
    if report.phase ≠ .joinReady then some "first participant report must be join_ready" else none
  | some old =>
    if report.phase ≠ old.phase ∧ ¬ old.phase.allows report.phase aborting then
      some s!"participant phase cannot transition from {old.phase.value} to {report.phase.value}"
    else none

/-- Failure fields go from absent to present or repeat; why a report breaks that,
if it does. -/
def validateEnrichment (previous : Option ParticipantReport) (report : ParticipantReport) : Option String :=
  match previous with
  | none => none
  | some old =>
    if old.invocationFailure ≠ none ∧ report.invocationFailure ≠ old.invocationFailure then
      some "participant cannot clear or replace invocation_failure"
    else if old.controlFailure ≠ none ∧ report.controlFailure ≠ old.controlFailure then
      some "participant cannot clear or replace control_failure"
    else none

/-- Whether a report changes its PE's recorded phase. -/
def phaseChanged (previous : Option ParticipantReport) (report : ParticipantReport) : Bool :=
  match previous with
  | none => true
  | some old => report.phase ≠ old.phase

/-- The unanimous participant phase that completes a generation phase, and the
phase it opens. -/
def barrier : GenerationPhase → Option (ParticipantPhase × GenerationPhase)
  | .preparingJoin => some (.joinReady, .joining)
  | .joining => some (.joined, .preparingExecution)
  | .preparingExecution => some (.executionReady, .activating)
  | .activating => some (.active, .executable)
  | .executable => none
  | .quiescing => some (.quiesced, .draining)
  | .draining => some (.drained, .finalizing)
  | .finalizing => some (.finalized, .stopped)
  | .aborting => none
  | .stopped => none

namespace GenerationState

variable (g : GenerationState)

/-- The set of phases the recorded reports are in. -/
def recordedPhases : Finset ParticipantPhase :=
  (g.participants.entries.map fun entry => entry.2.phase).toFinset

/-- Advance one exact all-participant generation barrier when complete. -/
def advanceBarrier (now : Nat) : Outcome :=
  if g.participants.keys.toFinset ≠ Finset.range g.peCount then .ok g
  else
    match barrier g.phase with
    | some (unanimous, next) => if g.recordedPhases = {unanimous} then g.transition next now else .ok g
    | none => .ok g

/-- Record a validated report and the failures it carries. -/
def noteReport (report : ParticipantReport) : GenerationState :=
  let g := { g with participants := g.participants.insert report.pe report }
  let g := match report.invocationFailure with
    | some failure => g.recordInvocationFailure failure
    | none => g
  match report.controlFailure with
  | some failure => g.recordControlFailure failure
  | none => g

/-- Apply the failure or the barrier the recorded reports complete. -/
def applyReports (now : Nat) : Outcome :=
  if g.controlFailure ≠ none then g.abort now
  else if g.invocationFailure ≠ none ∧ g.phase ≠ .quiescing ∧ g.phase ≠ .draining ∧ g.phase ≠ .finalizing then
    g.quiesce now
  else g.advanceBarrier now

/-- Validate, commit, and apply one owner-validated participant report. -/
def recordParticipant (report : ParticipantReport) (now : Nat) : Outcome :=
  let previous := g.participants.lookup report.pe
  if previous = some report then .ok g
  else if report.generation ≠ g.plan.generation then
    g.rejectReport "participant reported a different Fabric generation" now
  else if g.peCount ≤ report.pe then g.rejectReport "participant reported an unknown Fabric PE" now
  else if g.phase = .stopped then .conflict g "terminal Fabric generation accepts only an exact report retry"
  else
    match edgeRejection previous report (g.phase = .aborting) with
    | some message => g.rejectReport message now
    | none =>
      match validateEnrichment previous report with
      | some message => g.rejectReport message now
      | none =>
        if phaseChanged previous report ∧ report.phase ∉ allowedPhases g.phase then
          g.rejectReport
            s!"participant phase {report.phase.value} is invalid while generation is {g.phase.value}" now
        else (g.noteReport report).applyReports now

end GenerationState

end CrossPool.Control
