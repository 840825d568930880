import CrossPool.Lib.Runs
import CrossPool.Fabric.Coordinator
import CrossPool.Fabric.FfnAgent

/-!
# Runs of a Fabric generation

Any party may take its next step, the network may deliver any put that is on its
way, deadlines may expire, new requests may arrive and any PE may be asked to
shut down, in any order.
-/

namespace CrossPool.Fabric

open CrossPool.Lib

/-- The two halves of one element of a nonblocking put. -/
inductive PutMove where
  | fetch
  | land
deriving DecidableEq, Repr

inductive Event (V : Type) where
  | coordinator
  | atnagent (instanceIndex rank : Nat) (move : AtnAgentMove V)
  | lane (pe lane : Nat) (move : LaneMove)
  | publication (destination : Nat) (slot : Slot) (delivery : Delivery slot.Record)
  | payload (destination : Nat) (slot : PayloadSlot) (delivery : Delivery LaneSuccess)
  | failure (destination : Nat) (delivery : Delivery FailurePayload)
  | put (pe lane index : Nat) (move : PutMove)
  | shutdown (pe : Nat)

namespace Topology

variable (T : Topology) {V : Type}

/-- The Instance ranks of a generation. -/
def isRank (instanceIndex rank : Nat) : Bool :=
  instanceIndex < T.instanceCount && rank < (T.atnagentPes instanceIndex).length

/-- The lanes of a generation. -/
def isLane (pe lane : Nat) : Bool :=
  T.atnagentCount ≤ pe && pe < T.peCount && lane < T.executorLaneCount

/-- Deliver a control publication. -/
def deliverPublication (s : State V) (destination : Nat) (slot : Slot) (delivery : Delivery slot.Record) :
    Option (State V) :=
  ((s.control.slots destination slot).deliver publicationSequence delivery).map fun (channel, _) =>
    { s with control := s.control.setSlot destination slot channel }

/-- Deliver a payload publication, with the element it writes. -/
def deliverPayload (s : State V) (destination : Nat) (slot : PayloadSlot) (delivery : Delivery LaneSuccess) :
    Option (State V) :=
  ((s.payloads.slots destination slot).deliver publicationSequence delivery).map fun (channel, written) =>
    let delivered := s.payloads.setSlot destination slot channel
    match written with
    | none => { s with payloads := delivered }
    | some (element, value) =>
      { s with payloads := delivered.write destination slot.target.1 slot.target.2 element value }

def deliverFailure (s : State V) (destination : Nat) (delivery : Delivery FailurePayload) : Option (State V) :=
  ((s.signals.failures destination).deliver (fun _ => 1) delivery).map fun (channel, _) =>
    { s with signals := s.signals.setFailure destination channel }

/-- Advance one element of a lane's nonblocking puts. -/
def putStep (s : State V) (pe lane index : Nat) (move : PutMove) : Option (State V) :=
  let registers := s.payloads.lanes pe lane
  match registers.puts[index]?, move with
  | some put, .fetch =>
    if put.value.isNone then
      let fetched := { put with value := some (s.payloads.memory pe put.source lane put.element) }
      some
        { s with payloads := s.payloads.setLane pe lane { registers with puts := registers.puts.set index fetched } }
    else none
  | some put, .land =>
    put.value.map fun value =>
      { s with
        payloads :=
          (s.payloads.write put.destination .one lane put.element value).setLane pe lane
            { registers with puts := registers.puts.eraseIdx index } }
  | none, _ => none

def next (K : Kernels V) (s : State V) : Event V → Option (State V)
  | .coordinator => T.coordinatorStep s
  | .atnagent instanceIndex rank move =>
    if T.isRank instanceIndex rank then T.atnAgentMove K s instanceIndex rank move else none
  | .lane pe lane move => if T.isLane pe lane then T.laneMove K s pe lane move else none
  | .publication destination slot delivery => deliverPublication s destination slot delivery
  | .payload destination slot delivery => deliverPayload s destination slot delivery
  | .failure destination delivery => deliverFailure s destination delivery
  | .put pe lane index move => putStep s pe lane index move
  | .shutdown pe => some { s with signals.shutdown := Function.update s.signals.shutdown pe true }

/-- A new generation: zeroed publications, resting parties, any contents of the
lane buffers. -/
def create (K : Kernels V) (policy : PolicyState) (memory : Nat → Buffer → Nat → Nat → V) : State V where
  control :=
    { slots := fun _ slot => Channel.create slot.zero
      scheduler := Scheduler.create policy T.instanceCount T.executorLaneCount
      coordinator := .readFailure
      atnagents := fun _ _ =>
        { pc := .resting
          context := ⟨0, 0, 0, .idle, .perRankComplete, .none⟩
          invocationSequence := 0
          admission := default }
      lanes := fun _ _ =>
        { pc := .awaitExecution
          terminal := false
          execution := default
          lastLeaseSequence := 0
          localTpRank := 0
          payloadRowCapacity := 0
          requiresRoutingMetadata := false }
      leases := fun _ => []
      submissions := fun _ _ => []
      completions := fun _ _ => []
      acknowledgements := fun _ _ => [] }
  signals :=
    { failures := fun _ => Channel.create default
      claim := false
      shutdown := fun _ => false }
  payloads :=
    { memory := memory
      slots := fun _ _ => Channel.create default
      lanes := fun _ _ =>
        { input := []
          routing := []
          written := 0
          fetched := []
          blocks := fun _ => .start
          puts := [] }
      atnagents := fun _ _ =>
        { inputPayload := fun _ => K.zero
          outputPayload := fun _ => K.zero
          copied := 0
          fetched := []
          observed := fun _ => K.zero }
      inputs := fun _ _ => []
      held := fun _ _ => none
      computations := []
      reads := []
      returns := [] }

/-- One generation under a scheduling policy, over every interleaving. -/
def fabric (K : Kernels V) (policy : PolicyState) : System (State V) (Event V) where
  init s := ∃ memory, s = T.create K policy memory
  step s event t := T.next K s event = some t

/-- Runs as the step function computes them. -/
theorem run_reaches (K : Kernels V) (policy : PolicyState) (memory : Nat → Buffer → Nat → Nat → V)
    (events : List (Event V)) (P : State V → Bool)
    (leads : (events.foldlM (T.next K) (T.create K policy memory)).any P) :
    ∃ s, (T.fabric K policy).Reachable s ∧ P s := by
  have start : (T.fabric K policy).Reachable (T.create K policy memory) := .start ⟨memory, rfl⟩
  exact System.ReachableUnder.run (T.next K) (fun _ _ _ taken => ⟨trivial, taken⟩) start events P leads

end Topology

/-! ## One of everything

The smallest generation: an AtnAgent rank, an FfnAgent, a lane, a dense layer. -/

def solo : Topology where
  atnagentCount := 1
  ffnagentCount := 1
  executorLaneCount := 1
  lanePayloadCapacityBytes := 2
  instances :=
    [{  groupSumCompleteAdmitted := false
        hiddenSize := 1
        payloadRowBytes := 2
        decodePayloadRowCapacity := 1
        prefillPayloadRowCapacity := 1
        atnTpSize := 1
        atnDpSize := 1
        atnagentIndices := [0]
        layers := [⟨.dense, 0, [0]⟩] }]
  valid := by decide
  capacities _ _ _ := [⟨1, 0⟩]
  signatureCount _ := 1
  deliveryBlockCount := 1
  deliveryBlockCount_pos := Nat.one_pos

/-- Experts that add one. -/
def soloKernels : Kernels Nat where
  route _ _ _ _ := 0
  expert _ _ _ input _ element := input.getD element 0 + 1
  orderedSum := List.sum
  zero := 0

/-- The rank submits a request of one row. -/
def soloSubmits : List (Event Nat) :=
  [ .atnagent 0 0 (.request ⟨0, 1, 1, .decode, .perRankComplete, .none⟩ fun _ => 5), .atnagent 0 0 .step ]

/-- The Coordinator admits it, the rank publishes its input, the lane computes,
delivers and publishes completion. -/
def soloCompletes : List (Event Nat) :=
  List.flatten
    [ [ .publication 1 (.submission 0 0) (.land 0), .publication 1 (.submission 0 0) (.signal 0) ],
      List.replicate 11 .coordinator,
      [ .publication 0 (.admission 0) (.land 0), .publication 0 (.admission 0) (.signal 0) ],
      List.replicate 6 (.atnagent 0 0 .step),
      [ .payload 1 (.inputReady 0) (.element 0 0), .payload 1 (.inputReady 0) (.land 0),
        .payload 1 (.inputReady 0) (.signal 0) ],
      List.replicate 3 .coordinator,
      [ .publication 1 (.laneExecution 0) (.signal 0) ],
      List.replicate 8 (.lane 1 0 .step),
      List.replicate 2 (.lane 1 0 (.block 0)),
      List.replicate 2 (.lane 1 0 .step),
      [ .put 1 0 0 .fetch, .put 1 0 0 .land, .lane 1 0 .step ] ]

/-- The Coordinator commits, the rank acknowledges and submits again, and the lane is
leased to its second request. -/
def soloReturns : List (Event Nat) :=
  List.flatten
    [ [ .publication 1 (.ffnAgentCompletion 1 0) (.signal 0) ],
      List.replicate 10 .coordinator,
      [ .publication 0 (.outputCommit 0) (.land 0), .publication 0 (.outputCommit 0) (.signal 0) ],
      List.replicate 4 (.atnagent 0 0 .step),
      [ .publication 1 (.outputAcknowledgement 0 0) (.land 0), .publication 1 (.outputAcknowledgement 0 0) (.signal 0) ],
      soloSubmits,
      [ .publication 1 (.submission 0 0) (.land 0), .publication 1 (.submission 0 0) (.signal 0) ],
      List.replicate 28 .coordinator,
      [ .publication 1 (.laneExecution 0) (.signal 0) ] ]

/-- The rank's deadline expires and its failure reaches the FfnAgent. -/
def soloFails : List (Event Nat) :=
  [ .atnagent 0 0 .expire, .atnagent 0 0 .step, .failure 1 (.land 0), .failure 1 (.signal 0) ]

end CrossPool.Fabric
