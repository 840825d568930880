import CrossPool.Fabric.Scheduler

/-!
# State of one Fabric generation

Every PE has a copy of each publication, of the failure slot, and of the lane
buffers. The parties are the Coordinator, one execution per Instance rank on its
AtnAgent PE, and one resident graph per lane on each FfnAgent PE; a program
counter stands before each access to memory that another party can reach.

The state has three parts. `Control` is what leases, commits and acknowledgements
are decided on; `Signals` are the failure slots and shutdown flags; `Payloads` are
the lane buffers with the publications, registers and puts that move them. Fields
said to be history are written and never read.
-/

namespace CrossPool.Fabric

open CrossPool.Control (ResultCode)
open CrossPool.Transport (ForwardMode OutputRequirement DpRowLayout)
open CrossPool.Lib

/-! ## Parties -/

/-- The two loops of a Coordinator pass that may publish a failure. -/
inductive PassSite where
  | discover
  | progress
deriving DecidableEq, Repr

inductive CoordinatorPc where
  | readFailure
  | readShutdown
  | discover (instanceIndex : Nat)
  | publishMismatch (key : InvocationKey) (layerOrdinal : Nat) (site : PassSite)
  | leave (site : PassSite)
  | progress (instanceIndex : Nat)
  | readCommitFailure (instanceIndex : Nat)
  | writeCommit (instanceIndex : Nat)
  | publishCommit (instanceIndex : Nat) (rest : List Nat)
  | schedule
  | writeAdmission (invocation : Invocation) (lane : Nat)
  | publishAdmission (invocation : Invocation) (lane lease : Nat) (rest : List Nat)
  | writeLaneExecution (invocation : Invocation) (lane lease : Nat)
  | publishLaneExecution (invocation : Invocation) (lane : Nat) (rest : List Nat)
  | broadcast (rest : List Nat)
  | exited
  | aborted
deriving DecidableEq, Repr

/-- What `resolve_context` takes from the Transport request. -/
structure InvocationContext where
  layerOrdinal : Nat
  payloadRows : Nat
  dpRankPayloadRows : Nat
  forwardMode : ForwardMode
  outputRequirement : OutputRequirement
  dpRowLayout : DpRowLayout
deriving DecidableEq, Repr

inductive AtnAgentPc where
  | resting
  | submit
  | awaitAdmission
  | copyInput
  | publishInput (rest : List Nat)
  | awaitCommit
  | materialize
  | acknowledge
  | cancelled
  | converge (candidate : ResultCode)
  | awaitFailure
  | stopped (result : ResultCode)
  | aborted
deriving DecidableEq, Repr

/-- One Instance rank's execution of `atnagent::execute`. -/
structure AtnAgent where
  pc : AtnAgentPc
  context : InvocationContext
  invocationSequence : Nat
  admission : Admission
deriving DecidableEq, Repr

def AtnAgent.key (a : AtnAgent) (instanceIndex : Nat) : InvocationKey :=
  ⟨instanceIndex, a.invocationSequence⟩

/-- The graph node that a cancelled or failed wait belongs to. -/
inductive TerminateSite where
  | lane
  | delivery
deriving DecidableEq, Repr

inductive LanePc where
  | awaitExecution
  | awaitPayloads
  | bindCompute
  | routerRead
  | routerWrite
  | publishRouting
  | sendRouting (rest : List Nat)
  | expertRead
  | expertReadRouting
  | expertWrite
  | prepareDelivery
  | quietPartial (readers : List Nat)
  | publishPartial (rest : List Nat)
  | probePeerPartials
  | deliver (direct : Bool)
  | completeExecution
  | quietCompletion
  | quietTerminal
  | cancelled (site : TerminateSite)
  | terminate (site : TerminateSite) (result : ResultCode)
  | exited
  | aborted
deriving DecidableEq, Repr

/-- `LaneRuntimeState` with its place in the resident graph. -/
structure Lane where
  pc : LanePc
  terminal : Bool
  execution : LaneExecution
  lastLeaseSequence : Nat
  localTpRank : Nat
  payloadRowCapacity : Nat
  requiresRoutingMetadata : Bool
deriving DecidableEq, Repr

/-! ## Publications -/

inductive InspectionStatus where
  | pending
  | ready
  | protocolMismatch
deriving DecidableEq, Repr

/-- One look at several publications of a common sequence and key, as in
`inspect_completions`, `inspect_acknowledgements`, `probe_peer_partials` and the
poll of `wait_pre_compute`: a word that is not reached is passed over, a record
behind its word must be valid. -/
def inspectPublications {R E : Type} [PublicationRecord R] (sources : List (Channel R E)) (sequence : Nat)
    (key : InvocationKey) : InspectionStatus :=
  if sources.any fun source => sequence ≤ source.sequence && !validateExpected source sequence key then
    .protocolMismatch
  else if sources.any fun source => source.sequence < sequence then .pending
  else .ready

/-! ## State -/

/-- What decides leases, commits and acknowledgements. The last four fields are
history: invocations by lane and lease, submissions by Instance and rank, leases
completed by PE and lane, and sequences acknowledged by Instance and rank. -/
structure Control where
  slots : Nat → (slot : Slot) → Channel slot.Record Empty
  scheduler : Scheduler
  coordinator : CoordinatorPc
  atnagents : Nat → Nat → AtnAgent
  lanes : Nat → Nat → Lane
  leases : Nat → List Invocation
  submissions : Nat → Nat → List Submission
  completions : Nat → Nat → List Nat
  acknowledgements : Nat → Nat → List Nat

/-- Failure slots (their sequence is the publication word), the claim word of the
Coordinator PE, and the shutdown flags. -/
structure Signals where
  failures : Nat → Channel FailurePayload Empty
  claim : Bool
  shutdown : Nat → Bool

/-- The two payload buffers and the routing block of a lane. -/
inductive Buffer where
  | zero
  | one
  | routing
deriving DecidableEq, Repr

/-- One element of a nonblocking put; its source is read some time before it is
written. -/
structure PendingPut (V : Type) where
  destination : Nat
  source : Buffer
  element : Nat
  value : Option V
deriving DecidableEq, Repr

/-- One block of a delivery grid with the elements it is responsible for. -/
inductive BlockPc (V : Type) where
  | start
  | reduce (first element stop : Nat) (partials : List V)
  | put (first stop : Nat)
  | done
  | skipped
deriving DecidableEq, Repr

/-- What a lane's kernels hold outside the arena, and its nonblocking puts. -/
structure LaneRegisters (V : Type) where
  input : List V
  routing : List V
  written : Nat
  fetched : List V
  blocks : Nat → BlockPc V
  puts : List (PendingPut V)

/-- The Transport payloads of one Instance rank and its copy cursors; `observed`
is history: the lane's output buffer when OutputCommit was observed. -/
structure AtnAgentRegisters (V : Type) where
  inputPayload : Nat → V
  outputPayload : Nat → V
  copied : Nat
  fetched : List V
  observed : Nat → V

/-- One finished compute node. -/
structure Computation (V : Type) where
  pe : Nat
  lane : Nat
  lease : Nat
  input : List V
  routing : List V

/-- One element of a peer's partial read by a reduction, with the lease whose
complete partial the peer's buffer held. -/
structure PartialRead (V : Type) where
  reader : Nat
  peer : Nat
  lane : Nat
  lease : Nat
  element : Nat
  value : V
  held : Option Nat

/-- One execution that returned Ok, with the lane's output buffer when it observed
OutputCommit and the Transport output it returned. -/
structure Return (V : Type) where
  instanceIndex : Nat
  rank : Nat
  sequence : Nat
  lane : Nat
  lease : Nat
  observed : Nat → V
  output : Nat → V

/-- The lane buffers and what moves them. The last five fields are history; `held`
is the lease whose complete partial an FfnAgent's buffer holds. -/
structure Payloads (V : Type) where
  memory : Nat → Buffer → Nat → Nat → V
  slots : Nat → PayloadSlot → Channel LaneSuccess (Nat × V)
  lanes : Nat → Nat → LaneRegisters V
  atnagents : Nat → Nat → AtnAgentRegisters V
  inputs : Nat → Nat → List (Nat → V)
  held : Nat → Nat → Option Nat
  computations : List (Computation V)
  reads : List (PartialRead V)
  returns : List (Return V)

structure State (V : Type) where
  control : Control
  signals : Signals
  payloads : Payloads V

/-! ## Memory -/

section Update

variable {α : Type*}

/-- Replace one value of a doubly indexed family. -/
def update₂ (f : Nat → Nat → α) (i j : Nat) (a : α) : Nat → Nat → α :=
  Function.update f i (Function.update (f i) j a)

@[simp] theorem update₂_same (f : Nat → Nat → α) (i j : Nat) (a : α) : update₂ f i j a i j = a := by
  simp [update₂]

theorem update₂_of_ne (f : Nat → Nat → α) {i j i' j' : Nat} (a : α) (other : ¬(i' = i ∧ j' = j)) :
    update₂ f i j a i' j' = f i' j' := by
  by_cases same : i' = i
  · subst same
    have differ : j' ≠ j := fun eq => other ⟨rfl, eq⟩
    simp [update₂, differ]
  · simp [update₂, same]

end Update

namespace Control

variable (k : Control)

def setSlot (pe : Nat) (slot : Slot) (channel : Channel slot.Record Empty) : Control :=
  { k with slots := Function.update k.slots pe (Function.update (k.slots pe) slot channel) }

/-- Write a record in the writer's own copy. -/
def store (pe : Nat) (slot : Slot) (record : slot.Record) : Control :=
  k.setSlot pe slot ((k.slots pe slot).store record)

/-- `Publication::publish_record` from `source`; a PE's put to itself has nothing
to write but the signal. -/
def publish (source destination : Nat) (slot : Slot) : Control :=
  k.setSlot destination slot
    ((k.slots destination slot).send
      { payload := []
        record := (k.slots source slot).record
        landed := source = destination })

/-- What `publish_record` checks before it starts the put. -/
def publishable (source : Nat) (slot : Slot) : Bool :=
  publicationSequence (k.slots source slot).record ≠ 0 && PublicationRecord.valid (k.slots source slot).record

def setLane (pe lane : Nat) (l : Lane) : Control :=
  { k with lanes := update₂ k.lanes pe lane l }

def setAtnAgent (instanceIndex rank : Nat) (a : AtnAgent) : Control :=
  { k with atnagents := update₂ k.atnagents instanceIndex rank a }

end Control

namespace Signals

variable (g : Signals)

/-- `Failure::published`. -/
def published (pe : Nat) : Bool :=
  (g.failures pe).sequence = 1

/-- What ends the waits of a PE. -/
def flagged (pe : Nat) : Bool :=
  g.shutdown pe || g.published pe

/-- `ArenaView::cancellation_result`. -/
def cancellationResult (pe : Nat) : ResultCode :=
  if g.published pe then (g.failures pe).record.resultCode else .shutdown

def setFailure (pe : Nat) (channel : Channel FailurePayload Empty) : Signals :=
  { g with failures := Function.update g.failures pe channel }

/-- Whether `Failure::try_publish` passes its abort check. -/
def admissible (result : ResultCode) (key : InvocationKey) : Bool :=
  key.valid && (result = .protocolMismatch || result = .timeout)

/-- `Failure::try_publish` past its abort check. -/
def tryPublish (coordinatorPe pe : Nat) (result : ResultCode) (key : InvocationKey) (layerOrdinal : Nat) : Signals :=
  if g.claim then g
  else
    let payload : FailurePayload := ⟨result, pe, key, layerOrdinal⟩
    let stored := { g.setFailure pe ((g.failures pe).store payload) with claim := true }
    stored.setFailure coordinatorPe
      ((stored.failures coordinatorPe).send
        { payload := []
          record := payload
          landed := pe = coordinatorPe })

end Signals

namespace Payloads

variable {V : Type} (d : Payloads V)

def write (pe : Nat) (buffer : Buffer) (lane element : Nat) (value : V) : Payloads V :=
  { d with
    memory := fun pe' buffer' lane' element' =>
      if pe' = pe ∧ buffer' = buffer ∧ lane' = lane ∧ element' = element then value
      else d.memory pe' buffer' lane' element' }

def setSlot (pe : Nat) (slot : PayloadSlot) (channel : Channel LaneSuccess (Nat × V)) : Payloads V :=
  { d with slots := Function.update d.slots pe (Function.update (d.slots pe) slot channel) }

def store (pe : Nat) (slot : PayloadSlot) (record : LaneSuccess) : Payloads V :=
  d.setSlot pe slot ((d.slots pe slot).store record)

/-- `publish_record` behind a payload, of which `values` were read at the source. -/
def publish (source destination : Nat) (slot : PayloadSlot) (values : List V) : Payloads V :=
  d.setSlot destination slot
    ((d.slots destination slot).send
      { payload := values.mapIdx fun element value => (element, value)
        record := (d.slots source slot).record
        landed := source = destination })

def publishable (source : Nat) (slot : PayloadSlot) : Bool :=
  publicationSequence (d.slots source slot).record ≠ 0 && PublicationRecord.valid (d.slots source slot).record

def setLane (pe lane : Nat) (registers : LaneRegisters V) : Payloads V :=
  { d with lanes := update₂ d.lanes pe lane registers }

def setAtnAgent (instanceIndex rank : Nat) (registers : AtnAgentRegisters V) : Payloads V :=
  { d with atnagents := update₂ d.atnagents instanceIndex rank registers }

end Payloads

/-- The buffer that a payload put writes at its destination. -/
def PayloadSlot.target : PayloadSlot → Buffer × Nat
  | inputReady lane => (.zero, lane)
  | routingMetadataReady lane => (.routing, lane)
  | partialReady _ lane => (.one, lane)

end CrossPool.Fabric
