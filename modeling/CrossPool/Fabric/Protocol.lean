import Mathlib.Algebra.Order.Ring.Int
import Mathlib.Data.List.Nodup
import CrossPool.Lib.Channel
import CrossPool.Transport.Mailbox

/-!
# Fabric records and topology

The records that the AtnAgents, the Coordinator and the FfnAgents of one Fabric
generation publish to each other, and the validated topology they all derive
their group membership from. PEs are numbered AtnAgents first; the first FfnAgent
PE also runs the Coordinator.
-/

namespace CrossPool.Fabric

open CrossPool.Control (ResultCode)
open CrossPool.Transport (ForwardMode OutputRequirement DpRowLayout)
open CrossPool.Lib

/-- The largest value of a sequence word. -/
def maxSequence : Nat := 2 ^ 64 - 1

/-- The zero words of cleared storage that name no mode and no requirement. -/
def clearedMode : ForwardMode :=
  .other 0 ⟨Nat.zero_ne_one, Nat.zero_ne_add_one 1, Nat.zero_ne_add_one 3⟩

def clearedRequirement : OutputRequirement :=
  .other 0 ⟨Nat.zero_ne_one, Nat.zero_ne_add_one 1⟩

/-! ## Records -/

structure InvocationKey where
  instanceIndex : Nat
  invocationSequence : Nat
deriving DecidableEq, Repr, Inhabited

def InvocationKey.valid (key : InvocationKey) : Bool :=
  key.invocationSequence ≠ 0

/-- Coordinator-private aggregate after a successful Submission rendezvous. -/
structure Invocation where
  key : InvocationKey
  layerOrdinal : Nat
  payloadRows : Nat
  outputRequirement : OutputRequirement
deriving DecidableEq, Repr

instance : Inhabited Invocation :=
  ⟨⟨default, 0, 0, clearedRequirement⟩⟩

def Invocation.valid (invocation : Invocation) : Bool :=
  invocation.key.valid && invocation.payloadRows ≠ 0 && invocation.outputRequirement.isValid

structure Submission where
  key : InvocationKey
  layerOrdinal : Nat
  payloadRows : Nat
  dpRowLayout : DpRowLayout
  outputRequirement : OutputRequirement
  dpRankPayloadRows : Nat
  forwardMode : ForwardMode
deriving DecidableEq, Repr

instance : Inhabited Submission :=
  ⟨⟨default, 0, 0, .none, clearedRequirement, 0, clearedMode⟩⟩

structure Admission where
  key : InvocationKey
  executorLaneIndex : Nat
  executorLeaseSequence : Nat
deriving DecidableEq, Repr, Inhabited

structure LaneExecution where
  key : InvocationKey
  executorLeaseSequence : Nat
  layerOrdinal : Nat
  payloadRows : Nat
  outputRequirement : OutputRequirement
deriving DecidableEq, Repr

instance : Inhabited LaneExecution :=
  ⟨⟨default, 0, 0, 0, clearedRequirement⟩⟩

/-- `InputReady`, `RoutingMetadataReady`, `PartialReady` and `FfnAgentCompletion`. -/
structure LaneSuccess where
  key : InvocationKey
  executorLeaseSequence : Nat
deriving DecidableEq, Repr, Inhabited

/-- `OutputCommit` and `OutputAcknowledgement`. -/
structure InstanceSuccess where
  key : InvocationKey
deriving DecidableEq, Repr, Inhabited

structure FailurePayload where
  resultCode : ResultCode
  originPe : Nat
  key : InvocationKey
  layerOrdinal : Nat
deriving DecidableEq, Repr

instance : Inhabited FailurePayload :=
  ⟨⟨.ok, 0, default, 0⟩⟩

/-- What `Publication` asks of its record. -/
class PublicationRecord (R : Type) where
  key : R → InvocationKey
  publicationSequence : R → Nat
  valid : R → Bool

instance : PublicationRecord Submission where
  key := Submission.key
  publicationSequence record := record.key.invocationSequence
  valid record :=
    record.key.valid && record.payloadRows ≠ 0 && record.dpRankPayloadRows ≤ record.payloadRows &&
      record.forwardMode.isValid && record.outputRequirement.isValid && record.dpRowLayout.isValid

instance : PublicationRecord Admission where
  key := Admission.key
  publicationSequence record := record.key.invocationSequence
  valid record := record.key.valid && record.executorLeaseSequence ≠ 0

instance : PublicationRecord LaneExecution where
  key := LaneExecution.key
  publicationSequence := LaneExecution.executorLeaseSequence
  valid record :=
    record.key.valid && record.executorLeaseSequence ≠ 0 && record.payloadRows ≠ 0 && record.outputRequirement.isValid

instance : PublicationRecord LaneSuccess where
  key := LaneSuccess.key
  publicationSequence := LaneSuccess.executorLeaseSequence
  valid record := record.key.valid && record.executorLeaseSequence ≠ 0

instance : PublicationRecord InstanceSuccess where
  key := InstanceSuccess.key
  publicationSequence record := record.key.invocationSequence
  valid record := record.key.valid

export PublicationRecord (publicationSequence)

/-- `Publication::validate_expected`. -/
def validateExpected {R E : Type} [PublicationRecord R] (c : Channel R E) (expectedSequence : Nat)
    (expectedKey : InvocationKey) : Bool :=
  expectedSequence ≠ 0 && publicationSequence c.record = expectedSequence && PublicationRecord.valid c.record &&
    PublicationRecord.key c.record = expectedKey

/-- The publications by which the Coordinator is driven and drives; a source is
named by its PE. -/
inductive Slot where
  | submission (source instanceIndex : Nat)
  | admission (instanceIndex : Nat)
  | laneExecution (lane : Nat)
  | ffnAgentCompletion (source lane : Nat)
  | outputCommit (instanceIndex : Nat)
  | outputAcknowledgement (source instanceIndex : Nat)
deriving DecidableEq, Repr

abbrev Slot.Record : Slot → Type
  | submission _ _ => Submission
  | admission _ => Admission
  | laneExecution _ => LaneExecution
  | ffnAgentCompletion _ _ => LaneSuccess
  | outputCommit _ => InstanceSuccess
  | outputAcknowledgement _ _ => InstanceSuccess

instance (slot : Slot) : PublicationRecord slot.Record :=
  match slot with
  | .submission _ _ => inferInstanceAs (PublicationRecord Submission)
  | .admission _ => inferInstanceAs (PublicationRecord Admission)
  | .laneExecution _ => inferInstanceAs (PublicationRecord LaneExecution)
  | .ffnAgentCompletion _ _ => inferInstanceAs (PublicationRecord LaneSuccess)
  | .outputCommit _ => inferInstanceAs (PublicationRecord InstanceSuccess)
  | .outputAcknowledgement _ _ => inferInstanceAs (PublicationRecord InstanceSuccess)

/-- Zeroed storage. -/
def Slot.zero : (slot : Slot) → slot.Record
  | submission _ _ => (default : Submission)
  | admission _ => (default : Admission)
  | laneExecution _ => (default : LaneExecution)
  | ffnAgentCompletion _ _ => (default : LaneSuccess)
  | outputCommit _ => (default : InstanceSuccess)
  | outputAcknowledgement _ _ => (default : InstanceSuccess)

/-- The publications that make payload of a Lane visible to an FfnAgent. -/
inductive PayloadSlot where
  | inputReady (lane : Nat)
  | routingMetadataReady (lane : Nat)
  | partialReady (source lane : Nat)
deriving DecidableEq, Repr

/-! ## Topology -/

inductive LayerKind where
  | dense
  | moe
deriving DecidableEq, Repr

structure Layer where
  kind : LayerKind
  effectiveTopk : Nat
  ffnagentIndices : List Nat
deriving DecidableEq, Repr

instance : Inhabited Layer :=
  ⟨⟨.dense, 0, []⟩⟩

structure Instance where
  groupSumCompleteAdmitted : Bool
  hiddenSize : Nat
  payloadRowBytes : Nat
  decodePayloadRowCapacity : Nat
  prefillPayloadRowCapacity : Nat
  atnTpSize : Nat
  atnDpSize : Nat
  atnagentIndices : List Nat
  layers : List Layer
deriving DecidableEq, Repr, Inhabited

/-- The FFN TP width of the first layer, which every layer shares. -/
def Instance.ffnTpSize (i : Instance) : Nat :=
  (i.layers.headD default).ffnagentIndices.length

def Layer.validate (layer : Layer) (ffnTpSize ffnagentCount : Nat) : Bool :=
  layer.ffnagentIndices ≠ [] && layer.ffnagentIndices.length = ffnTpSize &&
    layer.ffnagentIndices.all (· < ffnagentCount) && layer.ffnagentIndices.Nodup &&
    ((layer.kind = .dense && layer.effectiveTopk = 0) || (layer.kind = .moe && layer.effectiveTopk ≠ 0))

def Instance.validate (i : Instance) (atnagentCount ffnagentCount : Nat) : Bool :=
  i.decodePayloadRowCapacity ≠ 0 && i.prefillPayloadRowCapacity ≠ 0 && i.hiddenSize ≠ 0 && i.atnTpSize ≠ 0 &&
    i.atnDpSize ≠ 0 && !(i.atnTpSize > 1 && i.atnDpSize > 1) &&
    i.atnTpSize * i.atnDpSize = i.atnagentIndices.length && i.atnagentIndices.all (· < atnagentCount) &&
    i.atnagentIndices.Nodup && i.layers ≠ [] && i.layers.all (·.validate i.ffnTpSize ffnagentCount)

structure ArenaProjection where
  atnagentCount : Nat
  ffnagentCount : Nat
  executorLaneCount : Nat
  lanePayloadCapacityBytes : Nat
  instances : List Instance
deriving DecidableEq, Repr

def ArenaProjection.validate (projection : ArenaProjection) : Bool :=
  projection.atnagentCount ≠ 0 && projection.ffnagentCount ≠ 0 && projection.executorLaneCount ≠ 0 &&
    projection.instances ≠ [] && projection.instances.all (·.validate projection.atnagentCount projection.ffnagentCount)

/-- One installed row capacity of a layer. -/
structure CapacityExecutionEntry where
  payloadRowCapacity : Nat
  executionSignatureIndex : Nat
deriving DecidableEq, Repr

/-- A validated projection with the execution tables that each FfnAgent PE has
installed beside it: the capacities of its layers and the number of its
signatures. -/
structure Topology extends ArenaProjection where
  valid : toArenaProjection.validate
  capacities : Nat → Nat → Nat → List CapacityExecutionEntry
  signatureCount : Nat → Nat
  deliveryBlockCount : Nat
  deliveryBlockCount_pos : 0 < deliveryBlockCount

namespace Topology

variable (T : Topology)

/-- The first FfnAgent PE. -/
def coordinatorPe : Nat :=
  T.atnagentCount

def peCount : Nat :=
  T.atnagentCount + T.ffnagentCount

def instanceCount : Nat :=
  T.instances.length

def instanceEntry (instanceIndex : Nat) : Instance :=
  T.instances.getD instanceIndex default

def layerEntry (instanceIndex layerOrdinal : Nat) : Layer :=
  (T.instanceEntry instanceIndex).layers.getD layerOrdinal default

def atnagentPes (instanceIndex : Nat) : List Nat :=
  (T.instanceEntry instanceIndex).atnagentIndices

def ffnagentPes (instanceIndex layerOrdinal : Nat) : List Nat :=
  (T.layerEntry instanceIndex layerOrdinal).ffnagentIndices.map (T.atnagentCount + ·)

/-- The PE of one AtnAgent rank. -/
def atnagentPe (instanceIndex rank : Nat) : Nat :=
  (T.atnagentPes instanceIndex).getD rank 0

/-- The FfnAgent group an invocation is leased to. -/
def group (invocation : Invocation) : List Nat :=
  T.ffnagentPes invocation.key.instanceIndex invocation.layerOrdinal

end Topology

/-! ## Delivery -/

inductive DeliveryVariant where
  | directPartial
  | singleComplete
  | replicatedComplete
deriving DecidableEq, Repr

/-- `delivery_variant`; `none` where it aborts. -/
def deliveryVariant (i : Instance) : OutputRequirement → Option DeliveryVariant
  | .perRankComplete => some .replicatedComplete
  | .groupSumComplete =>
    if i.groupSumCompleteAdmitted then
      if i.ffnTpSize ≤ i.atnTpSize * i.atnDpSize then some .directPartial else some .singleComplete
    else none
  | .other _ _ => none

end CrossPool.Fabric
