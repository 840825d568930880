import CrossPool.Fabric.Arena

/-!
# AtnAgent

One Instance rank's `atnagent::execute`: submit, await Admission, place the input
at the paired FfnAgents, await OutputCommit, materialise the output, acknowledge.
Payloads move one element at a time. After any result but Ok the rank's mailbox
closes, so it makes no further request.
-/

namespace CrossPool.Fabric

open CrossPool.Control (ResultCode)
open CrossPool.Transport (ForwardMode OutputRequirement DpRowLayout)
open CrossPool.Lib

/-- The numerical kernels: routing finalisation and the experts of one TP rank
over the live elements, the sum of the partials of one element in PE order, and
the fill value of a rank that receives no output. -/
structure Kernels (V : Type) where
  route : Nat → Nat → List V → Nat → V
  expert : Nat → Nat → Nat → List V → List V → Nat → V
  orderedSum : List V → V
  zero : V

/-- A new Transport request, the rank's own next step, or the expiry of the
deadline it waits under. -/
inductive AtnAgentMove (V : Type) where
  | request (context : InvocationContext) (input : Nat → V)
  | step
  | expire

namespace Topology

variable (T : Topology) {V : Type}

/-- Live elements of a payload. -/
def payloadElements (instanceIndex payloadRows : Nat) : Nat :=
  payloadRows * (T.instanceEntry instanceIndex).hiddenSize

/-- The checks of `resolve_context` on a request. -/
def resolveContext (instanceIndex : Nat) (context : InvocationContext) : Bool :=
  let i := T.instanceEntry instanceIndex
  context.layerOrdinal < i.layers.length && context.payloadRows ≤ maxSequence / i.payloadRowBytes &&
    context.payloadRows * i.payloadRowBytes ≤ T.lanePayloadCapacityBytes &&
    context.dpRankPayloadRows ≤ context.payloadRows

/-- The FfnAgents whose input this rank places. -/
def pairedPes (instanceIndex layerOrdinal rank : Nat) : List Nat :=
  let pes := T.ffnagentPes instanceIndex layerOrdinal
  ((List.range pes.length).filter fun ffnRank =>
    ffnRank % ((T.instanceEntry instanceIndex).atnTpSize * (T.instanceEntry instanceIndex).atnDpSize) = rank).map
    fun ffnRank => pes.getD ffnRank 0

/-- Whether a rank's output buffer is a destination of the delivery. -/
def receivesOutput (instanceIndex rank : Nat) : DeliveryVariant → Bool
  | .replicatedComplete => true
  | .directPartial => rank < (T.instanceEntry instanceIndex).ffnTpSize
  | .singleComplete => rank = 0

/-- Move one rank without touching anything else. -/
def atnAgentGoto (s : State V) (instanceIndex rank : Nat) (pc : AtnAgentPc) : State V :=
  { s with
    control := s.control.setAtnAgent instanceIndex rank { s.control.atnagents instanceIndex rank with pc := pc } }

/-- The next Transport request of a rank, up to its Submission record. -/
def atnAgentRequest (s : State V) (instanceIndex rank : Nat) (context : InvocationContext) (input : Nat → V) : State V :=
  let pe := T.atnagentPe instanceIndex rank
  let previous := (s.control.slots pe (.submission pe instanceIndex)).record.key.invocationSequence
  if previous = maxSequence then atnAgentGoto s instanceIndex rank .aborted
  else if T.resolveContext instanceIndex context then
    { s with
      control :=
        s.control.setAtnAgent instanceIndex rank
          { s.control.atnagents instanceIndex rank with
            pc := .submit
            context := context
            invocationSequence := previous + 1 }
      payloads :=
        s.payloads.setAtnAgent instanceIndex rank
          { s.payloads.atnagents instanceIndex rank with inputPayload := input } }
  else atnAgentGoto s instanceIndex rank (.stopped .protocolMismatch)

/-- The Submission record of a rank's current request. -/
def submissionOf (a : AtnAgent) (instanceIndex : Nat) : Submission where
  key := a.key instanceIndex
  layerOrdinal := a.context.layerOrdinal
  payloadRows := a.context.payloadRows
  dpRowLayout := a.context.dpRowLayout
  outputRequirement := a.context.outputRequirement
  dpRankPayloadRows := a.context.dpRankPayloadRows
  forwardMode := a.context.forwardMode

/-- Phase: Submit. The copy of an aborting rank has no reader, so it is left. -/
def submitStep (s : State V) (instanceIndex rank : Nat) : State V :=
  let pe := T.atnagentPe instanceIndex rank
  let a := s.control.atnagents instanceIndex rank
  let submission := submissionOf a instanceIndex
  let stored := s.control.store pe (.submission pe instanceIndex) submission
  if stored.publishable pe (.submission pe instanceIndex) then
    { s with
      control :=
        { stored.publish pe T.coordinatorPe (.submission pe instanceIndex) with
          atnagents := update₂ s.control.atnagents instanceIndex rank { a with pc := .awaitAdmission }
          submissions :=
            update₂ s.control.submissions instanceIndex rank (s.control.submissions instanceIndex rank ++ [submission]) }
      payloads :=
        { s.payloads with
          inputs :=
            update₂ s.payloads.inputs instanceIndex rank
              (s.payloads.inputs instanceIndex rank ++ [(s.payloads.atnagents instanceIndex rank).inputPayload]) } }
  else atnAgentGoto s instanceIndex rank .aborted

/-- Phase: Await Admission, where the word is reached. -/
def admissionStep (s : State V) (instanceIndex rank : Nat) : State V :=
  let a := s.control.atnagents instanceIndex rank
  let publication := s.control.slots (T.atnagentPe instanceIndex rank) (.admission instanceIndex)
  if validateExpected publication a.invocationSequence (a.key instanceIndex) ∧
      publication.record.executorLaneIndex < T.executorLaneCount then
    { s with
      control :=
        s.control.setAtnAgent instanceIndex rank
          { a with
            pc :=
              if rank < (T.ffnagentPes instanceIndex a.context.layerOrdinal).length then .copyInput else .awaitCommit
            admission := publication.record }
      payloads :=
        s.payloads.setAtnAgent instanceIndex rank { s.payloads.atnagents instanceIndex rank with copied := 0 } }
  else atnAgentGoto s instanceIndex rank (.converge .protocolMismatch)

/-- Phase: Publish Input, the copy into this PE's lane buffer. -/
def copyInputStep (s : State V) (instanceIndex rank : Nat) : State V :=
  let pe := T.atnagentPe instanceIndex rank
  let a := s.control.atnagents instanceIndex rank
  let registers := s.payloads.atnagents instanceIndex rank
  let lane := a.admission.executorLaneIndex
  if registers.copied < T.payloadElements instanceIndex a.context.payloadRows then
    { s with
      payloads :=
        (s.payloads.write pe .zero lane registers.copied (registers.inputPayload registers.copied)).setAtnAgent
          instanceIndex rank { registers with copied := registers.copied + 1 } }
  else
    { atnAgentGoto s instanceIndex rank (.publishInput (T.pairedPes instanceIndex a.context.layerOrdinal rank)) with
      payloads :=
        (s.payloads.store pe (.inputReady lane) ⟨a.key instanceIndex, a.admission.executorLeaseSequence⟩).setAtnAgent
          instanceIndex rank { registers with fetched := [] } }

/-- Phase: Publish Input, one element or the record of the put to the first of
`rest`. -/
def publishInputStep (s : State V) (instanceIndex rank : Nat) (rest : List Nat) : State V :=
  let pe := T.atnagentPe instanceIndex rank
  let a := s.control.atnagents instanceIndex rank
  let registers := s.payloads.atnagents instanceIndex rank
  let lane := a.admission.executorLaneIndex
  match rest with
  | [] => atnAgentGoto s instanceIndex rank .awaitCommit
  | destination :: rest =>
    if registers.fetched.length < T.payloadElements instanceIndex a.context.payloadRows then
      { s with
        payloads :=
          s.payloads.setAtnAgent instanceIndex rank
            { registers with
              fetched := registers.fetched ++ [s.payloads.memory pe .zero lane registers.fetched.length] } }
    else if s.payloads.publishable pe (.inputReady lane) then
      { atnAgentGoto s instanceIndex rank (.publishInput rest) with
        payloads :=
          (s.payloads.publish pe destination (.inputReady lane) registers.fetched).setAtnAgent instanceIndex rank
            { registers with fetched := [] } }
    else atnAgentGoto s instanceIndex rank .aborted

/-- Phase: Await Commit, where the word is reached. -/
def commitStep (s : State V) (instanceIndex rank : Nat) : State V :=
  let pe := T.atnagentPe instanceIndex rank
  let a := s.control.atnagents instanceIndex rank
  if validateExpected (s.control.slots pe (.outputCommit instanceIndex)) a.invocationSequence (a.key instanceIndex) then
    { atnAgentGoto s instanceIndex rank .materialize with
      payloads :=
        s.payloads.setAtnAgent instanceIndex rank
          { s.payloads.atnagents instanceIndex rank with
            copied := 0
            observed := s.payloads.memory pe .one a.admission.executorLaneIndex } }
  else atnAgentGoto s instanceIndex rank (.converge .protocolMismatch)

/-- Phase: Materialize Output. -/
def materializeStep (K : Kernels V) (s : State V) (instanceIndex rank : Nat) : State V :=
  let pe := T.atnagentPe instanceIndex rank
  let a := s.control.atnagents instanceIndex rank
  let registers := s.payloads.atnagents instanceIndex rank
  let element := registers.copied
  match deliveryVariant (T.instanceEntry instanceIndex) a.context.outputRequirement with
  | none => atnAgentGoto s instanceIndex rank .aborted
  | some delivery =>
    if element < T.payloadElements instanceIndex a.context.payloadRows then
      let value :=
        if T.receivesOutput instanceIndex rank delivery then
          s.payloads.memory pe .one a.admission.executorLaneIndex element
        else K.zero
      { s with
        payloads :=
          s.payloads.setAtnAgent instanceIndex rank
            { registers with
              outputPayload := Function.update registers.outputPayload element value
              copied := element + 1 } }
    else atnAgentGoto s instanceIndex rank .acknowledge

/-- Phase: Acknowledge, and return Ok. -/
def acknowledgeStep (s : State V) (instanceIndex rank : Nat) : State V :=
  let pe := T.atnagentPe instanceIndex rank
  let a := s.control.atnagents instanceIndex rank
  let registers := s.payloads.atnagents instanceIndex rank
  let slot : Slot := .outputAcknowledgement pe instanceIndex
  let stored := s.control.store pe slot ⟨a.key instanceIndex⟩
  if stored.publishable pe slot then
    { s with
      control :=
        { stored.publish pe T.coordinatorPe slot with
          atnagents := update₂ s.control.atnagents instanceIndex rank { a with pc := .resting }
          acknowledgements :=
            update₂ s.control.acknowledgements instanceIndex rank
              (s.control.acknowledgements instanceIndex rank ++ [a.invocationSequence]) }
      payloads.returns :=
        s.payloads.returns ++
          [{  instanceIndex := instanceIndex
              rank := rank
              sequence := a.invocationSequence
              lane := a.admission.executorLaneIndex
              lease := a.admission.executorLeaseSequence
              observed := registers.observed
              output := registers.outputPayload }] }
  else atnAgentGoto s instanceIndex rank .aborted

/-- The result of a cancelled wait. -/
def atnAgentCancelled (s : State V) (instanceIndex rank : Nat) : State V :=
  let result := s.signals.cancellationResult (T.atnagentPe instanceIndex rank)
  if result = .protocolMismatch ∨ result = .timeout then atnAgentGoto s instanceIndex rank (.converge result)
  else atnAgentGoto s instanceIndex rank (.stopped result)

/-- `converge_failure` up to its wait. -/
def convergeStep (s : State V) (instanceIndex rank : Nat) (candidate : ResultCode) : State V :=
  let pe := T.atnagentPe instanceIndex rank
  let a := s.control.atnagents instanceIndex rank
  if Signals.admissible candidate (a.key instanceIndex) then
    { atnAgentGoto s instanceIndex rank .awaitFailure with
      signals := s.signals.tryPublish T.coordinatorPe pe candidate (a.key instanceIndex) a.context.layerOrdinal }
  else atnAgentGoto s instanceIndex rank .aborted

/-- One step of a rank on its own; `none` while it waits. -/
def atnAgentStep (K : Kernels V) (s : State V) (instanceIndex rank : Nat) : Option (State V) :=
  let pe := T.atnagentPe instanceIndex rank
  let a := s.control.atnagents instanceIndex rank
  match a.pc with
  | .resting => none
  | .submit => some (T.submitStep s instanceIndex rank)
  | .awaitAdmission =>
    if a.invocationSequence ≤ (s.control.slots pe (.admission instanceIndex)).sequence then
      some (T.admissionStep s instanceIndex rank)
    else if s.signals.flagged pe then some (atnAgentGoto s instanceIndex rank .cancelled)
    else none
  | .copyInput => some (T.copyInputStep s instanceIndex rank)
  | .publishInput rest => some (T.publishInputStep s instanceIndex rank rest)
  | .awaitCommit =>
    if a.invocationSequence ≤ (s.control.slots pe (.outputCommit instanceIndex)).sequence then
      some (T.commitStep s instanceIndex rank)
    else if s.signals.flagged pe then some (atnAgentGoto s instanceIndex rank .cancelled)
    else none
  | .materialize => some (T.materializeStep K s instanceIndex rank)
  | .acknowledge => some (T.acknowledgeStep s instanceIndex rank)
  | .cancelled => some (T.atnAgentCancelled s instanceIndex rank)
  | .converge candidate => some (T.convergeStep s instanceIndex rank candidate)
  | .awaitFailure =>
    if s.signals.published pe then
      some (atnAgentGoto s instanceIndex rank (.stopped (s.signals.failures pe).record.resultCode))
    else none
  | .stopped _ => none
  | .aborted => none

/-- The deadline of a wait that is neither ready nor cancelled. -/
def atnAgentExpire (s : State V) (instanceIndex rank : Nat) : Option (State V) :=
  let pe := T.atnagentPe instanceIndex rank
  let a := s.control.atnagents instanceIndex rank
  match a.pc with
  | .awaitAdmission =>
    if a.invocationSequence ≤ (s.control.slots pe (.admission instanceIndex)).sequence ∨ s.signals.flagged pe then none
    else some (atnAgentGoto s instanceIndex rank (.converge .timeout))
  | .awaitCommit =>
    if a.invocationSequence ≤ (s.control.slots pe (.outputCommit instanceIndex)).sequence ∨ s.signals.flagged pe then
      none
    else some (atnAgentGoto s instanceIndex rank (.converge .timeout))
  | .awaitFailure =>
    if s.signals.published pe then none else some (atnAgentGoto s instanceIndex rank .aborted)
  | _ => none

def atnAgentMove (K : Kernels V) (s : State V) (instanceIndex rank : Nat) : AtnAgentMove V → Option (State V)
  | .request context input =>
    if (s.control.atnagents instanceIndex rank).pc = .resting then
      some (T.atnAgentRequest s instanceIndex rank context input)
    else none
  | .step => T.atnAgentStep K s instanceIndex rank
  | .expire => T.atnAgentExpire s instanceIndex rank

end Topology

end CrossPool.Fabric
