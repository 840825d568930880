import CrossPool.Fabric.AtnAgent

/-!
# FfnAgent lanes

One lane of an FfnAgent is a resident graph: wait for a lease and its payloads,
bind, compute, prepare the delivery, deliver, complete, and again. The nodes
behind a failed wait still run. Buffers are read and written one element at a
time, the blocks of a delivery grid interleave, and the elements of a nonblocking
put are read and written at any moment until the lane is quiet.
-/

namespace CrossPool.Fabric

open CrossPool.Control (ResultCode)
open CrossPool.Transport (ForwardMode OutputRequirement DpRowLayout)
open CrossPool.Lib

/-- The lane's own next step, one step of a delivery block, or the expiry of the
deadline it waits under. -/
inductive LaneMove where
  | step
  | block (index : Nat)
  | expire
deriving DecidableEq, Repr

/-- One row of `materialize_shared_tables`. -/
structure LayerExecutionEntry where
  instanceIndex : Nat
  layerOrdinal : Nat
  capacities : List CapacityExecutionEntry
  requiresRoutingMetadata : Bool
deriving DecidableEq, Repr

namespace Topology

variable (T : Topology) {V : Type}

/-! ## Installed tables -/

/-- The layers of one FfnAgent, in Instance and layer order. -/
def layerEntries (pe : Nat) : List LayerExecutionEntry :=
  (List.range T.instanceCount).flatMap fun instanceIndex =>
    (List.range (T.instanceEntry instanceIndex).layers.length).filterMap fun layerOrdinal =>
      let pes := T.ffnagentPes instanceIndex layerOrdinal
      if pe ∈ pes then
        some
          { instanceIndex := instanceIndex
            layerOrdinal := layerOrdinal
            capacities := T.capacities pe instanceIndex layerOrdinal
            requiresRoutingMetadata := (T.layerEntry instanceIndex layerOrdinal).kind = .moe && pes.idxOf pe ≠ 0 }
      else none

/-- What `wait_pre_compute` selects for an execution: the TP rank, the capacity,
and whether routing metadata is awaited. -/
def selectExecution (pe : Nat) (execution : LaneExecution) : Option (Nat × Nat × Bool) := do
  let layer ← (T.layerEntries pe).find? fun entry =>
    entry.instanceIndex = execution.key.instanceIndex && entry.layerOrdinal = execution.layerOrdinal
  let selected ← layer.capacities.find? fun candidate => execution.payloadRows ≤ candidate.payloadRowCapacity
  let pes := T.ffnagentPes execution.key.instanceIndex execution.layerOrdinal
  if T.signatureCount pe ≤ selected.executionSignatureIndex then none
  else if pe ∉ pes ∨ pes.length ≠ (T.instanceEntry execution.key.instanceIndex).ffnTpSize then none
  else some (pes.idxOf pe, selected.payloadRowCapacity, layer.requiresRoutingMetadata)

/-- The PEs of the layer a lane executes. -/
def executionPes (execution : LaneExecution) : List Nat :=
  T.ffnagentPes execution.key.instanceIndex execution.layerOrdinal

def executionLayer (execution : LaneExecution) : Layer :=
  T.layerEntry execution.key.instanceIndex execution.layerOrdinal

/-- Live elements of the payload of an execution. -/
def executionElements (execution : LaneExecution) : Nat :=
  T.payloadElements execution.key.instanceIndex execution.payloadRows

/-- Routing elements of `rows` rows: one expert id with its weight each. -/
def routingElements (execution : LaneExecution) (rows : Nat) : Nat :=
  rows * (T.executionLayer execution).effectiveTopk

/-! ## Acquire -/

/-- Move one lane without touching anything else. -/
def laneGoto (s : State V) (pe lane : Nat) (pc : LanePc) : State V :=
  { s with control := s.control.setLane pe lane { s.control.lanes pe lane with pc := pc } }

/-- `terminate_lane` and `terminate_delivery` up to their failure publication. -/
def laneTerminate (s : State V) (pe lane : Nat) (site : TerminateSite) (result : ResultCode) : State V :=
  { s with
    control :=
      s.control.setLane pe lane
        { s.control.lanes pe lane with
          pc := .terminate site result
          terminal := true } }

/-- Change a lane's registers and its place in the graph. -/
def laneRegisters (s : State V) (pe lane : Nat) (registers : LaneRegisters V) (pc : LanePc) : State V :=
  { laneGoto s pe lane pc with payloads := s.payloads.setLane pe lane registers }

/-- Phase: Observe Execution, where the word is reached, up to TP membership. -/
def observeStep (s : State V) (pe lane : Nat) : State V :=
  let publication := s.control.slots pe (.laneExecution lane)
  let l := s.control.lanes pe lane
  let failed : State V :=
    { s with
      control :=
        s.control.setLane pe lane
          { l with
            pc := .terminate .lane .protocolMismatch
            terminal := true
            execution := publication.record } }
  if !validateExpected publication publication.record.executorLeaseSequence publication.record.key ∨
      T.instanceCount ≤ publication.record.key.instanceIndex then failed
  else
    match T.selectExecution pe publication.record with
    | none => failed
    | some (rank, capacity, requires) =>
      { s with
        control :=
          s.control.setLane pe lane
            { l with
              pc := .awaitPayloads
              terminal := false
              execution := publication.record
              localTpRank := rank
              payloadRowCapacity := capacity
              requiresRoutingMetadata := requires } }

/-- Phase: Await Payloads: what one poll finds. -/
def pollPayloads (s : State V) (pe lane : Nat) : InspectionStatus :=
  let l := s.control.lanes pe lane
  let input := s.payloads.slots pe (.inputReady lane)
  let routing := s.payloads.slots pe (.routingMetadataReady lane)
  inspectPublications (if l.requiresRoutingMetadata then [input, routing] else [input])
    l.execution.executorLeaseSequence l.execution.key

/-! ## Compute -/

/-- Start the compute branch; the owner of the router reads for it first. -/
def bindStep (s : State V) (pe lane : Nat) : State V :=
  let l := s.control.lanes pe lane
  let registers := s.payloads.lanes pe lane
  laneRegisters s pe lane { registers with input := [] }
    (if (T.executionLayer l.execution).kind = .moe ∧ l.localTpRank = 0 then .routerRead else .expertRead)

/-- Read one element of the input, or go on. -/
def readInputStep (s : State V) (pe lane : Nat) (done : LanePc) : State V :=
  let l := s.control.lanes pe lane
  let registers := s.payloads.lanes pe lane
  if registers.input.length < T.executionElements l.execution then
    laneRegisters s pe lane
      { registers with input := registers.input ++ [s.payloads.memory pe .zero lane registers.input.length] } l.pc
  else
    laneRegisters s pe lane
      { registers with
        routing := []
        written := 0 } done

/-- Routing finalisation, one element of the routing block. -/
def routerWriteStep (K : Kernels V) (s : State V) (pe lane : Nat) : State V :=
  let l := s.control.lanes pe lane
  let registers := s.payloads.lanes pe lane
  let value :=
    K.route l.execution.key.instanceIndex l.execution.layerOrdinal registers.input registers.written
  if registers.written < T.routingElements l.execution l.execution.payloadRows then
    { s with
      payloads :=
        (s.payloads.write pe .routing lane registers.written value).setLane pe lane
          { registers with written := registers.written + 1 } }
  else laneGoto s pe lane .publishRouting

/-- What `arena.routing_metadata` checks of the lane's own publication. -/
def routingAdmitted (s : State V) (pe lane : Nat) : Bool :=
  let execution := (s.control.slots pe (.laneExecution lane)).record
  PublicationRecord.valid execution && execution.key.instanceIndex < T.instanceCount &&
    execution.payloadRows ≤ (s.control.lanes pe lane).payloadRowCapacity &&
    (T.executionLayer execution).kind = .moe && (T.executionLayer execution).effectiveTopk ≠ 0

/-- `publish_routing_metadata` up to its first put. -/
def publishRoutingStep (s : State V) (pe lane : Nat) : State V :=
  let l := s.control.lanes pe lane
  let registers := s.payloads.lanes pe lane
  let pes := T.executionPes l.execution
  if l.terminal || s.signals.flagged pe then
    { s with
      control :=
        s.control.setLane pe lane
          { l with
            pc := .expertRead
            terminal := true }
      payloads := s.payloads.setLane pe lane { registers with input := [] } }
  else if pes.head? ≠ some pe ∨ l.localTpRank ≠ 0 ∨ !T.routingAdmitted s pe lane then laneGoto s pe lane .aborted
  else
    { laneGoto s pe lane (.sendRouting pes.tail) with
      payloads :=
        (s.payloads.store pe (.routingMetadataReady lane)
            ⟨l.execution.key, l.execution.executorLeaseSequence⟩).setLane
          pe lane { registers with fetched := [] } }

/-- One element or the record of the routing put to the first of `rest`. -/
def sendRoutingStep (s : State V) (pe lane : Nat) (rest : List Nat) : State V :=
  let l := s.control.lanes pe lane
  let registers := s.payloads.lanes pe lane
  match rest with
  | [] => laneRegisters s pe lane { registers with input := [] } .expertRead
  | destination :: rest =>
    if registers.fetched.length < T.routingElements l.execution l.payloadRowCapacity then
      { s with
        payloads :=
          s.payloads.setLane pe lane
            { registers with
              fetched := registers.fetched ++ [s.payloads.memory pe .routing lane registers.fetched.length] } }
    else if s.payloads.publishable pe (.routingMetadataReady lane) then
      { laneGoto s pe lane (.sendRouting rest) with
        payloads :=
          (s.payloads.publish pe destination (.routingMetadataReady lane) registers.fetched).setLane pe lane
            { registers with fetched := [] } }
    else laneGoto s pe lane .aborted

/-- Read one element of the routing metadata, or go on. -/
def readRoutingStep (s : State V) (pe lane : Nat) : State V :=
  let l := s.control.lanes pe lane
  let registers := s.payloads.lanes pe lane
  if registers.routing.length < T.routingElements l.execution l.execution.payloadRows then
    { s with
      payloads :=
        s.payloads.setLane pe lane
          { registers with
            routing := registers.routing ++ [s.payloads.memory pe .routing lane registers.routing.length] } }
  else laneGoto s pe lane .expertWrite

/-- The experts, one element of the partial. -/
def expertWriteStep (K : Kernels V) (s : State V) (pe lane : Nat) : State V :=
  let l := s.control.lanes pe lane
  let registers := s.payloads.lanes pe lane
  let value :=
    K.expert l.execution.key.instanceIndex l.execution.layerOrdinal l.localTpRank registers.input registers.routing
      registers.written
  if registers.written < T.executionElements l.execution then
    { s with
      payloads :=
        { (s.payloads.write pe .one lane registers.written value).setLane pe lane
            { registers with written := registers.written + 1 } with
          held := update₂ s.payloads.held pe lane none } }
  else
    { laneGoto s pe lane .prepareDelivery with
      payloads :=
        { s.payloads with
          held := update₂ s.payloads.held pe lane (some l.execution.executorLeaseSequence)
          computations :=
            s.payloads.computations ++
              [{  pe := pe
                  lane := lane
                  lease := l.execution.executorLeaseSequence
                  input := registers.input
                  routing := registers.routing }] } }

/-! ## Deliver -/

/-- Readers of the partials: no more than there are rows. -/
def activeReaderCount (execution : LaneExecution) : Nat :=
  min execution.payloadRows (T.executionPes execution).length

/-- Where complete delivery goes once the local partial is published. -/
def afterPartial (l : Lane) : LanePc :=
  if l.localTpRank < T.activeReaderCount l.execution then
    if 1 < (T.executionPes l.execution).length then .probePeerPartials else .deliver false
  else .completeExecution

def prepareStep (s : State V) (pe lane : Nat) : State V :=
  let l := s.control.lanes pe lane
  let registers := s.payloads.lanes pe lane
  let pes := T.executionPes l.execution
  if l.terminal || s.signals.flagged pe then
    { s with
      control :=
        s.control.setLane pe lane
          { l with
            pc := .completeExecution
            terminal := true } }
  else
    match deliveryVariant (T.instanceEntry l.execution.key.instanceIndex) l.execution.outputRequirement with
    | none => laneGoto s pe lane .aborted
    | some .directPartial => laneRegisters s pe lane { registers with blocks := fun _ => .start } (.deliver true)
    | some _ =>
      let readers :=
        ((List.range (T.activeReaderCount l.execution)).filter (· ≠ l.localTpRank)).map fun rank => pes.getD rank 0
      { laneGoto s pe lane (if readers = [] then T.afterPartial l else .quietPartial readers) with
        payloads :=
          (s.payloads.store pe (.partialReady pe lane) ⟨l.execution.key, l.execution.executorLeaseSequence⟩).setLane
            pe lane { registers with blocks := fun _ => .start } }

/-- Publish the partial to the first of `rest`, or go on. -/
def publishPartialStep (s : State V) (pe lane : Nat) (rest : List Nat) : State V :=
  match rest with
  | [] => laneGoto s pe lane (T.afterPartial (s.control.lanes pe lane))
  | destination :: rest =>
    if s.payloads.publishable pe (.partialReady pe lane) then
      { laneGoto s pe lane (.publishPartial rest) with
        payloads := s.payloads.publish pe destination (.partialReady pe lane) [] }
    else laneGoto s pe lane .aborted

/-- What `probe_peer_partials` finds. -/
def probePeers (s : State V) (pe lane : Nat) : InspectionStatus :=
  let l := s.control.lanes pe lane
  let peers := (T.executionPes l.execution).eraseIdx l.localTpRank
  inspectPublications (peers.map fun source => s.payloads.slots pe (.partialReady source lane))
    l.execution.executorLeaseSequence l.execution.key

/-- The delivery's `resolve_context`: the published execution of the lane and this
PE's rank; `none` where it aborts. -/
def deliveryContext (s : State V) (pe lane : Nat) : Option (LaneExecution × Nat) :=
  let execution := (s.control.slots pe (.laneExecution lane)).record
  let i := T.instanceEntry execution.key.instanceIndex
  let pes := T.executionPes execution
  if !PublicationRecord.valid execution ∨ T.instanceCount ≤ execution.key.instanceIndex ∨
      i.layers.length ≤ execution.layerOrdinal ∨
      (i.decodePayloadRowCapacity < execution.payloadRows ∧ i.prefillPayloadRowCapacity < execution.payloadRows) ∨
      pes = [] ∨ pes.length ≠ i.ffnTpSize ∨ T.atnagentPes execution.key.instanceIndex = [] ∨ pe ∉ pes then none
  else some (execution, pes.idxOf pe)

/-- The elements of one block of the grid: first and past the last. -/
def blockRange (begin count block blockCount : Nat) : Nat × Nat :=
  (begin + count * block / blockCount, begin + count * (block + 1) / blockCount)

/-- The elements a rank reduces: first and count. -/
def rankRange (execution : LaneExecution) (rank : Nat) : Nat × Nat :=
  let width := (T.executionPes execution).length
  let base := execution.payloadRows / width
  let extra := execution.payloadRows % width
  let hidden := (T.instanceEntry execution.key.instanceIndex).hiddenSize
  ((rank * base + min rank extra) * hidden, (base + if rank < extra then 1 else 0) * hidden)

/-- Where complete delivery puts the output. -/
def completeDestinations (execution : LaneExecution) : List Nat :=
  let pes := T.atnagentPes execution.key.instanceIndex
  if execution.outputRequirement = .perRankComplete then pes else pes.take 1

/-- The puts of one block to each destination. -/
def blockPuts (destinations : List Nat) (source : Buffer) (first stop : Nat) : List (PendingPut V) :=
  destinations.flatMap fun destination =>
    (List.range' first (stop - first)).map fun element =>
      { destination := destination
        source := source
        element := element
        value := none }

def setBlock (s : State V) (pe lane block : Nat) (pc : BlockPc V) : State V :=
  let registers := s.payloads.lanes pe lane
  { s with
    payloads := s.payloads.setLane pe lane { registers with blocks := Function.update registers.blocks block pc } }

/-- Issue the puts of one block. -/
def issuePuts (s : State V) (pe lane block : Nat) (puts : List (PendingPut V)) : State V :=
  let registers := s.payloads.lanes pe lane
  { s with
    payloads :=
      s.payloads.setLane pe lane
        { registers with
          blocks := Function.update registers.blocks block .done
          puts := registers.puts ++ puts } }

/-- One block of `deliver_direct_partial_output`. -/
def directBlockStep (s : State V) (pe lane block : Nat) : State V :=
  match T.deliveryContext s pe lane with
  | none => laneGoto s pe lane .aborted
  | some (execution, rank) =>
    let i := T.instanceEntry execution.key.instanceIndex
    let pes := T.atnagentPes execution.key.instanceIndex
    if execution.outputRequirement ≠ .groupSumComplete ∨ !i.groupSumCompleteAdmitted ∨
        pes.length < (T.executionPes execution).length then laneGoto s pe lane .aborted
    else
      -- the source cuts this range at bytes, so that two blocks may share an element
      let (first, stop) := blockRange 0 (T.executionElements execution) block T.deliveryBlockCount
      issuePuts s pe lane block (blockPuts [pes.getD rank 0] .one first stop)

/-- One block of `deliver_complete_output_range` up to its elements. -/
def completeBlockStart (s : State V) (pe lane block : Nat) : State V :=
  if s.signals.flagged pe then setBlock s pe lane block .skipped
  else
    match T.deliveryContext s pe lane with
    | none => laneGoto s pe lane .aborted
    | some (execution, rank) =>
      let i := T.instanceEntry execution.key.instanceIndex
      let width := (T.executionPes execution).length
      if execution.outputRequirement ≠ .perRankComplete ∧
          (execution.outputRequirement ≠ .groupSumComplete ∨ !i.groupSumCompleteAdmitted ∨
            width ≤ (T.atnagentPes execution.key.instanceIndex).length) then
        laneGoto s pe lane .aborted
      else
        let (begin, count) := T.rankRange execution rank
        let (first, stop) := blockRange begin count block T.deliveryBlockCount
        if first = stop then setBlock s pe lane block .done
        else if 1 < width then setBlock s pe lane block (.reduce first first stop [])
        else setBlock s pe lane block (.put first stop)

/-- `reduce_tp_partials` at one element: read the next peer, or stage the sum. -/
def reduceStep (K : Kernels V) (s : State V) (pe lane block first element stop : Nat) (partials : List V) : State V :=
  let execution := (s.control.slots pe (.laneExecution lane)).record
  let pes := T.executionPes execution
  if element < stop then
    match pes[partials.length]? with
    | some peer =>
      let value := s.payloads.memory peer .one lane element
      let read := setBlock s pe lane block (.reduce first element stop (partials ++ [value]))
      { read with
        payloads.reads :=
          s.payloads.reads ++
            [{  reader := pe
                peer := peer
                lane := lane
                lease := (s.control.lanes pe lane).execution.executorLeaseSequence
                element := element
                value := value
                held := s.payloads.held peer lane }] }
    | none =>
      let staged := { s with payloads := s.payloads.write pe .zero lane element (K.orderedSum partials) }
      setBlock staged pe lane block (.reduce first (element + 1) stop [])
  else setBlock s pe lane block (.put first stop)

/-- Issue the puts of one block's reduced elements. -/
def putBlockStep (s : State V) (pe lane block first stop : Nat) : State V :=
  let execution := (s.control.slots pe (.laneExecution lane)).record
  let source : Buffer := if 1 < (T.executionPes execution).length then .zero else .one
  issuePuts s pe lane block (blockPuts (T.completeDestinations execution) source first stop)

/-- One step of one block. -/
def blockStep (K : Kernels V) (s : State V) (pe lane block : Nat) (direct : Bool) : Option (State V) :=
  if block < T.deliveryBlockCount then
    match (s.payloads.lanes pe lane).blocks block with
    | .start => some (if direct then T.directBlockStep s pe lane block else T.completeBlockStart s pe lane block)
    | .reduce first element stop partials => some (T.reduceStep K s pe lane block first element stop partials)
    | .put first stop => some (T.putBlockStep s pe lane block first stop)
    | .done => none
    | .skipped => none
  else none

def blockFinished (registers : LaneRegisters V) (block : Nat) : Bool :=
  match registers.blocks block with
  | .done => true
  | .skipped => true
  | _ => false

/-! ## Complete -/

/-- `complete_lane_execution` up to its quiet. -/
def completeStep (s : State V) (pe lane : Nat) : State V :=
  let l := s.control.lanes pe lane
  if l.terminal || s.signals.flagged pe then laneGoto s pe lane .quietTerminal
  else
    { s with
      control :=
        (s.control.store pe (.ffnAgentCompletion pe lane)
            ⟨l.execution.key, l.execution.executorLeaseSequence⟩).setLane
          pe lane { l with pc := .quietCompletion } }

/-- Publish the completion of a quiet lane and go back to waiting. -/
def publishCompletionStep (s : State V) (pe lane : Nat) : State V :=
  let l := s.control.lanes pe lane
  if s.control.publishable pe (.ffnAgentCompletion pe lane) then
    { s with
      control :=
        { s.control.publish pe T.coordinatorPe (.ffnAgentCompletion pe lane) with
          lanes :=
            update₂ s.control.lanes pe lane
              { l with
                pc := .awaitExecution
                lastLeaseSequence := l.execution.executorLeaseSequence }
          completions :=
            update₂ s.control.completions pe lane
              (s.control.completions pe lane ++ [l.execution.executorLeaseSequence]) } }
  else laneGoto s pe lane .aborted

/-- Leave the resident loop. -/
def exitStep (s : State V) (pe lane : Nat) : State V :=
  { s with
    control :=
      s.control.setLane pe lane
        { s.control.lanes pe lane with
          pc := .exited
          terminal := true } }

/-- The end of `terminate_lane` and `terminate_delivery`. -/
def terminateStep (s : State V) (pe lane : Nat) (site : TerminateSite) (result : ResultCode) : State V :=
  let l := s.control.lanes pe lane
  let next := laneGoto s pe lane (if site = .lane then .prepareDelivery else .deliver false)
  if result = .protocolMismatch ∨ result = .timeout then
    if Signals.admissible result l.execution.key then
      { next with
        signals := s.signals.tryPublish T.coordinatorPe pe result l.execution.key l.execution.layerOrdinal }
    else laneGoto s pe lane .aborted
  else next

/-! ## Lane graph -/

/-- One step of a lane on its own; `none` while it waits. -/
def laneStep (K : Kernels V) (s : State V) (pe lane : Nat) : Option (State V) :=
  let l := s.control.lanes pe lane
  let registers := s.payloads.lanes pe lane
  match l.pc with
  | .awaitExecution =>
    let expected := (l.lastLeaseSequence + 1) % 2 ^ 64
    if expected = 0 then some (laneGoto s pe lane .aborted)
    else if expected ≤ (s.control.slots pe (.laneExecution lane)).sequence then some (T.observeStep s pe lane)
    else if s.signals.flagged pe then some (laneGoto s pe lane (.cancelled .lane))
    else none
  | .awaitPayloads =>
    match pollPayloads s pe lane with
    | .protocolMismatch => some (laneTerminate s pe lane .lane .protocolMismatch)
    | .ready => some (laneGoto s pe lane .bindCompute)
    | .pending => if s.signals.flagged pe then some (laneGoto s pe lane (.cancelled .lane)) else none
  | .bindCompute =>
    if s.signals.flagged pe then some (laneGoto s pe lane (.cancelled .lane)) else some (T.bindStep s pe lane)
  | .routerRead => some (T.readInputStep s pe lane .routerWrite)
  | .routerWrite => some (T.routerWriteStep K s pe lane)
  | .publishRouting => some (T.publishRoutingStep s pe lane)
  | .sendRouting rest => some (T.sendRoutingStep s pe lane rest)
  | .expertRead =>
    some
      (T.readInputStep s pe lane
        (if (T.executionLayer l.execution).kind = .moe then .expertReadRouting else .expertWrite))
  | .expertReadRouting => some (T.readRoutingStep s pe lane)
  | .expertWrite => some (T.expertWriteStep K s pe lane)
  | .prepareDelivery => some (T.prepareStep s pe lane)
  | .quietPartial readers => if registers.puts = [] then some (laneGoto s pe lane (.publishPartial readers)) else none
  | .publishPartial rest => some (T.publishPartialStep s pe lane rest)
  | .probePeerPartials =>
    match T.probePeers s pe lane with
    | .protocolMismatch => some (laneTerminate s pe lane .delivery .protocolMismatch)
    | .ready => some (laneGoto s pe lane (.deliver false))
    | .pending => if s.signals.flagged pe then some (laneGoto s pe lane (.cancelled .delivery)) else none
  | .deliver _ =>
    if (List.range T.deliveryBlockCount).all (blockFinished registers) then
      some (laneGoto s pe lane .completeExecution)
    else none
  | .completeExecution => some (completeStep s pe lane)
  | .quietCompletion => if registers.puts = [] then some (T.publishCompletionStep s pe lane) else none
  | .quietTerminal => if registers.puts = [] then some (exitStep s pe lane) else none
  | .cancelled site => some (laneTerminate s pe lane site (s.signals.cancellationResult pe))
  | .terminate site result => some (T.terminateStep s pe lane site result)
  | .exited => none
  | .aborted => none

/-- The deadline of a wait that is neither ready nor cancelled. -/
def laneExpire (s : State V) (pe lane : Nat) : Option (State V) :=
  match (s.control.lanes pe lane).pc with
  | .awaitPayloads =>
    if pollPayloads s pe lane = .pending ∧ !s.signals.flagged pe then
      some (laneTerminate s pe lane .lane .timeout)
    else none
  | .probePeerPartials =>
    if T.probePeers s pe lane = .pending ∧ !s.signals.flagged pe then
      some (laneTerminate s pe lane .delivery .timeout)
    else none
  | _ => none

def laneMove (K : Kernels V) (s : State V) (pe lane : Nat) : LaneMove → Option (State V)
  | .step => T.laneStep K s pe lane
  | .block index =>
    match (s.control.lanes pe lane).pc with
    | .deliver direct => T.blockStep K s pe lane index direct
    | _ => none
  | .expire => T.laneExpire s pe lane

end Topology

end CrossPool.Fabric
