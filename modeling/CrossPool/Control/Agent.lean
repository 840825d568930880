import CrossPool.Control.Generation

/-!
# The Agent's side of the Fabric lifecycle

`lifecycle` is the decision table of `Agent.advance_fabric_lifecycle`: from the
generation phase the Agent last saw and its own last acknowledged report, the
native call it makes and the phase it then reports. `candidate` is the report it
builds, which repeats the failure fields of the local report it starts from.
-/

namespace CrossPool.Control

/-- The native Fabric calls one lifecycle turn can make before it reports. -/
inductive NativeCall where
  | join | prepareExecution | activate | quiesce | drain | finalize
  deriving DecidableEq, Repr

/-- One lifecycle turn: the native call, if any, and the phase reported after it. -/
structure LifecycleTurn where
  call : Option NativeCall
  report : ParticipantPhase
  deriving DecidableEq, Repr

/-- What a lifecycle turn does in each daemon phase and local report phase. A
turn that waits for `drain_pending` is the one taken once the drain has ended;
the two reports of a join are two turns. -/
def lifecycle : GenerationPhase → Option ParticipantPhase → Option LifecycleTurn
  | .preparingJoin, none => some ⟨none, .joinReady⟩
  | .joining, some .joinReady => some ⟨none, .joining⟩
  | .joining, some .joining => some ⟨some .join, .joined⟩
  | .preparingExecution, some .joined => some ⟨some .prepareExecution, .executionReady⟩
  | .activating, some .executionReady => some ⟨some .activate, .active⟩
  | .aborting, some .joined => some ⟨some .quiesce, .quiesced⟩
  | .aborting, some .executionReady => some ⟨some .quiesce, .quiesced⟩
  | .aborting, some .active => some ⟨some .quiesce, .quiesced⟩
  | .aborting, some .quiesced => some ⟨some .drain, .draining⟩
  | .aborting, some .draining => some ⟨none, .drained⟩
  | .quiescing, some .active => some ⟨some .quiesce, .quiesced⟩
  | .draining, some .quiesced => some ⟨some .drain, .draining⟩
  | .draining, some .draining => some ⟨none, .drained⟩
  | .finalizing, some .drained => some ⟨some .finalize, .finalized⟩
  | _, _ => none

/-- What an Agent knows of itself: who it is, and its last acknowledged report. -/
structure AgentIdentity where
  owner : ProcessRef
  generation : GenerationId
  pe : Nat
  deriving DecidableEq, Repr

/-- The report `report_fabric_phase` sends: a given failure, or else the one the
local report already carries. -/
def AgentIdentity.candidate (agent : AgentIdentity) (last : Option ParticipantReport) (phase : ParticipantPhase)
    (invocationFailure : Option InvocationFailure) (controlFailure : Option String) : ParticipantReport where
  owner := agent.owner
  generation := agent.generation
  pe := agent.pe
  phase := phase
  invocationFailure := invocationFailure.or (last.bind (·.invocationFailure))
  controlFailure := controlFailure.or (last.bind (·.controlFailure))

end CrossPool.Control
