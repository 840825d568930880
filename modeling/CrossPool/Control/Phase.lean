import Mathlib.Algebra.Order.Ring.Int
import Mathlib.Data.Finset.Basic

/-!
# Lifecycle phases of a Fabric generation and of its participants

`GenerationPhase` is the daemon's authoritative lifecycle, `ParticipantPhase`
the daemon-acknowledged local lifecycle of one PE. `allows` of each is the exact
edge table of the source; `ParticipantPhase.rank` orders the participant phases
along their only path, and every edge, early retirement included, climbs it.
-/

namespace CrossPool.Control

/-- Daemon-authoritative lifecycle of one Fabric generation. -/
inductive GenerationPhase where
  | preparingJoin | joining | preparingExecution | activating | executable
  | quiescing | draining | finalizing | aborting | stopped
  deriving DecidableEq, Repr

namespace GenerationPhase

/-- The wire spelling of a phase, which the daemon's messages quote. -/
def value : GenerationPhase → String
  | preparingJoin => "preparing_join"
  | joining => "joining"
  | preparingExecution => "preparing_execution"
  | activating => "activating"
  | executable => "executable"
  | quiescing => "quiescing"
  | draining => "draining"
  | finalizing => "finalizing"
  | aborting => "aborting"
  | stopped => "stopped"

/-- The one ordinary successor of a phase. -/
def normalSuccessor : GenerationPhase → Option GenerationPhase
  | preparingJoin => some joining
  | joining => some preparingExecution
  | preparingExecution => some activating
  | activating => some executable
  | executable => some quiescing
  | quiescing => some draining
  | draining => some finalizing
  | finalizing => some stopped
  | aborting => some stopped
  | stopped => none

/-- Whether `successor` is one exact lifecycle edge. -/
def allows (self successor : GenerationPhase) : Bool :=
  if successor = aborting then self ≠ aborting ∧ self ≠ stopped
  else self.normalSuccessor = some successor

/-- The phases before a generation becomes executable. -/
def preExecutable : GenerationPhase → Bool
  | preparingJoin | joining | preparingExecution | activating => true
  | _ => false

end GenerationPhase

/-- Daemon-acknowledged local lifecycle of one Fabric PE. -/
inductive ParticipantPhase where
  | joinReady | joining | joined | executionReady | active
  | quiesced | draining | drained | finalized
  deriving DecidableEq, Repr

namespace ParticipantPhase

/-- The wire spelling of a phase, which the daemon's messages quote. -/
def value : ParticipantPhase → String
  | joinReady => "join_ready"
  | joining => "joining"
  | joined => "joined"
  | executionReady => "execution_ready"
  | active => "active"
  | quiesced => "quiesced"
  | draining => "draining"
  | drained => "drained"
  | finalized => "finalized"

/-- The one ordinary successor of a participant phase. -/
def successor : ParticipantPhase → Option ParticipantPhase
  | joinReady => some joining
  | joining => some joined
  | joined => some executionReady
  | executionReady => some active
  | active => some quiesced
  | quiesced => some draining
  | draining => some drained
  | drained => some finalized
  | finalized => none

/-- Joined participants may quiesce early, only during failed retirement. -/
def allows (self next : ParticipantPhase) (aborting : Bool) : Bool :=
  if aborting ∧ next = quiesced then self = joined ∨ self = executionReady ∨ self = active
  else self.successor = some next

/-- Position of a participant phase on its path. -/
def rank : ParticipantPhase → Nat
  | joinReady => 0
  | joining => 1
  | joined => 2
  | executionReady => 3
  | active => 4
  | quiesced => 5
  | draining => 6
  | drained => 7
  | finalized => 8

/-- Every edge of a participant climbs its path. -/
theorem rank_lt_of_allows {self next : ParticipantPhase} {aborting : Bool} (edge : self.allows next aborting) :
    self.rank < next.rank := by
  revert edge
  cases self <;> cases next <;> cases aborting <;> decide

end ParticipantPhase

end CrossPool.Control
