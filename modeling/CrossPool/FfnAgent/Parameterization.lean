import CrossPool.Lib.Layout
import CrossPool.Lib.Procedure
import CrossPool.Lib.Words

/-!
# Parameterization of captured graphs

A layer is captured twice, on different weights and storage. Where the two captures differ
they have to differ by a declared address, and there the Primary Graph is rewritten for one
lane. The weights it reads are noted as sites, to be set again for each layer.
-/

namespace CrossPool.FfnAgent.Parameterization

open CrossPool.Lib

/-! ## Graphs -/

/-- A dependency between two nodes, by their positions. -/
structure GraphEdge where
  source : Nat
  destination : Nat
  fromPort : Nat
  toPort : Nat
  type : Nat
deriving DecidableEq, Repr

structure MemsetParams where
  value : Nat
  elementSize : Nat
  width : Nat
  height : Nat
  pitch : Nat
deriving DecidableEq, Repr

inductive MemcpyKind where
  | deviceToDevice
  | default
  | other
deriving DecidableEq, Repr

/-- What a copy node holds besides its two addresses; `arrays` where it copies arrays. -/
structure MemcpyParams where
  arrays : Bool
  extent : Nat × Nat × Nat
  sourcePosition : Nat × Nat × Nat
  destinationPosition : Nat × Nat × Nat
  kind : MemcpyKind
deriving DecidableEq, Repr

/-- Launch identity and geometry of a kernel node. -/
structure KernelSchema where
  function : Nat
  kernel : Nat
  context : Nat
  grid : Nat × Nat × Nat
  block : Nat × Nat × Nat
  sharedMemoryBytes : Nat
deriving DecidableEq, Repr

/-- One argument with its offset in the packed parameters. -/
structure KernelNodeArgument (α : Type) where
  offsetBytes : Nat
  bytes : α

/-- A node, over what its arguments and its addresses are. The edges of a graph are listed
in their order, as `graph_edges` does. -/
inductive Node (α β : Type) where
  | childGraph (edges : List GraphEdge) (nodes : List (Node α β))
  | memset (destination : β) (parameters : MemsetParams)
  | memcpy (source destination : β) (parameters : MemcpyParams)
  | empty
  | kernel (schema : KernelSchema) (arguments : List (KernelNodeArgument α))
  | unsupported (kind : Nat)

structure Graph (α β : Type) where
  edges : List GraphEdge
  nodes : List (Node α β)

abbrev CapturedNode :=
  Node (List UInt8) Nat

abbrev CapturedGraph :=
  Graph (List UInt8) Nat

/-- Induction over the nodes of a graph and of its child graphs. -/
theorem Node.induction {α β : Type} {P : Node α β → Prop}
    (childGraph : ∀ edges nodes, (∀ node ∈ nodes, P node) → P (.childGraph edges nodes))
    (memset : ∀ destination parameters, P (.memset destination parameters))
    (memcpy : ∀ source destination parameters, P (.memcpy source destination parameters)) (empty : P .empty)
    (kernel : ∀ schema arguments, P (.kernel schema arguments)) (unsupported : ∀ kind, P (.unsupported kind))
    (node : Node α β) : P node := by
  apply @Node.rec α β P (fun nodes => ∀ node ∈ nodes, P node) childGraph memset memcpy empty kernel unsupported
  · intro node impossible
    cases impossible
  · intro first rest here later node listed
    rcases List.mem_cons.mp listed with rfl | among
    · exact here
    · exact later node among

mutual

/-- Replace what the arguments and the addresses are. -/
def Node.map {α β α' β' : Type} (f : α → α') (g : β → β') : Node α β → Node α' β'
  | .childGraph edges nodes => .childGraph edges (mapNodes f g nodes)
  | .memset destination parameters => .memset (g destination) parameters
  | .memcpy source destination parameters => .memcpy (g source) (g destination) parameters
  | .empty => .empty
  | .kernel schema arguments => .kernel schema (arguments.map fun argument => ⟨argument.offsetBytes, f argument.bytes⟩)
  | .unsupported kind => .unsupported kind

def mapNodes {α β α' β' : Type} (f : α → α') (g : β → β') : List (Node α β) → List (Node α' β')
  | [] => []
  | node :: rest => node.map f g :: mapNodes f g rest

end

def Graph.map {α β α' β' : Type} (f : α → α') (g : β → β') (graph : Graph α β) : Graph α' β' :=
  ⟨graph.edges, mapNodes f g graph.nodes⟩

/-- `node_type`. -/
def Node.kind {α β : Type} : Node α β → Nat × Nat
  | .childGraph .. => (0, 0)
  | .memset .. => (1, 0)
  | .memcpy .. => (2, 0)
  | .empty => (3, 0)
  | .kernel .. => (4, 0)
  | .unsupported kind => (5, kind)

/-- `same_direct_topology`. -/
def sameDirectTopology {α β : Type} (edges edges' : List GraphEdge) (nodes nodes' : List (Node α β)) : Bool :=
  nodes.map Node.kind = nodes'.map Node.kind && edges = edges'

/-! ## Declarations -/

/-- The width of an address. -/
def addressBytes : Nat :=
  8

structure ResourceReplacement where
  primaryAddress : Nat
  controlAddress : Nat
  targetAddress : Nat
  valueOffsetBytes : Nat
deriving DecidableEq, Repr

structure LaneAddressReplacement where
  primaryAddress : Nat
  controlAddress : Nat
  bytes : Nat
  targetAddress : Nat
  required : Bool
  readOnly : Bool
deriving DecidableEq, Repr

/-- A site is an address in the arguments of a node, which is given by its path. -/
structure BindingSite where
  node : List Nat
  parameterOffsetBytes : Nat
  valueOffsetBytes : Nat
deriving DecidableEq, Repr

/-- What one call is given besides the graphs; `onDevice` tells where an address points. -/
structure Declarations where
  resources : List ResourceReplacement
  laneReplacements : List LaneAddressReplacement
  captureRoutingMetadataAddress : Nat
  captureRoutingWeightsAddress : Nat
  capturePayloadRowsAddress : Nat
  onDevice : Nat → Bool

/-- The address lies in the interval from `base` on. -/
def within (base bytes address : Nat) : Bool :=
  base ≤ address && address - base < bytes

/-- A binding that an address has: a weight, or a place in a range of storage. -/
inductive Hole where
  | weight (index : Nat)
  | range (index offset : Nat)
deriving DecidableEq, Repr

/-- How often each weight and each range has been met. -/
structure Counts where
  resources : List Nat
  lanes : List Nat

def Counts.add (counts : Counts) : Hole → Counts
  | .weight index => { counts with resources := counts.resources.modify index (· + 1) }
  | .range index _ => { counts with lanes := counts.lanes.modify index (· + 1) }

/-- The loops over the declarations: the only item that meets a condition, with what its
checks return. -/
def findOnly {α γ : Type} (meets : α → Except String Bool) (ambiguous : String) (check : α → Except String γ) :
    Nat → List α → Option (Nat × γ) → Except String (Option (Nat × γ))
  | _, [], found => return found
  | index, item :: rest, found => do
    if ← meets item then
      if found.isSome then throw ambiguous
      let checked ← check item
      findOnly meets ambiguous check (index + 1) rest (some (index, checked))
    else findOnly meets ambiguous check (index + 1) rest found

/-- Both addresses lie in a range, at one offset; `mismatch` where they disagree. -/
def LaneAddressReplacement.meets (mismatch : String) (primary control : Nat) (range : LaneAddressReplacement) :
    Except String Bool := do
  let inPrimary := within range.primaryAddress range.bytes primary
  let inControl := within range.controlAddress range.bytes control
  if !inPrimary && !inControl then return false
  if !(inPrimary && inControl && primary - range.primaryAddress = control - range.controlAddress) then throw mismatch
  return true

/-- `checked::sum` of two addresses. -/
def sumAddresses (base offset : Nat) : Except String Nat :=
  match checkedSum base [offset] with
  | some total => return total
  | none => throw "xpool checked integer sum overflows result type"

/-- `bind_memory_address`, with the index of the range that is matched. -/
def bindMemoryAddress (laneReplacements : List LaneAddressReplacement) (primary control bytes : Nat) (writing : Bool) :
    Except String (Hole × Nat) := do
  let check (range : LaneAddressReplacement) : Except String (Nat × Nat) := do
    let offset := primary - range.primaryAddress
    if range.bytes - offset < bytes then throw "xpool typed graph access exceeds a declared resource"
    if writing && range.readOnly then throw "xpool typed graph writes a shared read-only resource"
    return (offset, ← sumAddresses range.targetAddress offset)
  match ← findOnly (·.meets "xpool typed graph access changes its resource or relative offset" primary control)
      "xpool typed graph access has ambiguous resources" check 0 laneReplacements none with
  | none => throw "xpool typed graph access has no declared resource owner"
  | some (index, offset, target) => return (.range index offset, target)

namespace Declarations

variable (d : Declarations)

/-- What the two addresses at one place of an argument are declared to be. -/
def classify (primary control : Nat) : Except String (Option Hole) := do
  let resource ← findOnly (fun r => return primary = r.primaryAddress && control = r.controlAddress)
    "xpool ambiguous weight binding" (fun _ => return ()) 0 d.resources none
  let lane ← findOnly (·.meets "xpool resource pair changes range or relative offset" primary control)
    "xpool ambiguous resource-range binding" (fun range => return primary - range.primaryAddress) 0 d.laneReplacements none
  match resource, lane with
  | some _, some _ => throw "xpool weight and resource-range bindings overlap"
  | some (index, _), none => return some (.weight index)
  | none, some (index, offset) => return some (.range index offset)
  | none, none => return none

/-- The address that a binding is rewritten to. -/
def targetAddress : Hole → Except String Nat
  | .weight index => return (d.resources[index]?.map (·.targetAddress)).getD 0
  | .range index offset => sumAddresses ((d.laneReplacements[index]?.map (·.targetAddress)).getD 0) offset

end Declarations

/-! ## Arguments -/

/-- The state of the loops over one node: the argument as rewritten so far, the bytes that
bindings cover, and the weights found with their offsets. -/
structure Scan where
  value : List UInt8
  covered : List Bool
  nodeMatches : List (Nat × Nat)
  counts : Counts
  changed : Bool

/-- `read_address`. -/
def readAddress (bytes : List UInt8) (byteOffset : Nat) : Nat :=
  decode (window bytes byteOffset addressBytes)

/-- The weights of a binding with their offset among the parameters. -/
def Hole.sites (offset : Nat) : Hole → List (Nat × Nat)
  | .weight index => [(offset, index)]
  | .range .. => []

/-- The loop over the byte offsets of an argument, at one of them. -/
def bindWindow (d : Declarations) (captured control : List UInt8) (offsetBytes byteOffset : Nat) (scan : Scan) :
    Except String Scan := do
  match ← d.classify (readAddress captured byteOffset) (readAddress control byteOffset) with
  | none => return scan
  | some hole =>
    if (window scan.covered byteOffset addressBytes).any id then throw "xpool parameter binding sites overlap"
    let address ← d.targetAddress hole
    return {
      value := overwrite scan.value byteOffset (encode addressBytes address)
      covered := overwrite scan.covered byteOffset (List.replicate addressBytes true)
      nodeMatches := scan.nodeMatches ++ hole.sites (offsetBytes + byteOffset)
      counts := scan.counts.add hole
      changed := true }

/-- The loop, with the number of offsets left. -/
def bindWindows (d : Declarations) (captured control : List UInt8) (offsetBytes : Nat) :
    Nat → Nat → Scan → Except String Scan
  | 0, _, scan => return scan
  | left + 1, byteOffset, scan => do
    let scan ← bindWindow d captured control offsetBytes byteOffset scan
    bindWindows d captured control offsetBytes left (byteOffset + 1) scan

/-- One argument: its bindings, and the check that nothing else differs. -/
def bindArgument (d : Declarations) (nodeIndex parameterIndex : Nat) (primary control : KernelNodeArgument (List UInt8))
    (scan : Scan) : Except String Scan := do
  let captured := primary.bytes
  let scan ← bindWindows d captured control.bytes primary.offsetBytes (captured.length + 1 - addressBytes) 0
    { scan with value := captured, covered := List.replicate captured.length false }
  match (List.range captured.length).find? fun i => captured[i]? ≠ control.bytes[i]? && scan.covered[i]? ≠ some true with
  | none => return scan
  | some byteOffset =>
    throw
      ("xpool Primary Graph contains an undeclared parameter-byte delta at node " ++ toString nodeIndex ++ ", argument " ++
        toString parameterIndex ++ ", byte " ++ toString byteOffset)

/-- The loop over the arguments, with those rewritten. -/
def bindArguments (d : Declarations) (nodeIndex : Nat) :
    Nat → List (KernelNodeArgument (List UInt8)) → List (KernelNodeArgument (List UInt8)) → Scan →
      Except String (List (KernelNodeArgument (List UInt8)) × Scan)
  | index, primary :: rest, control :: rest', scan => do
    let scan ← bindArgument d nodeIndex index primary control scan
    let (later, scan') ← bindArguments d nodeIndex (index + 1) rest rest' scan
    return (⟨primary.offsetBytes, scan.value⟩ :: later, scan')
  | _, _, _, scan => return ([], scan)

/-- `contains_address`. -/
def containsAddress (arguments : List (KernelNodeArgument (List UInt8))) (address : Nat) : Bool :=
  arguments.any fun argument =>
    (List.range (argument.bytes.length + 1 - addressBytes)).any fun offset => readAddress argument.bytes offset = address

/-- `same_schema`. -/
def sameSchema (schema schema' : KernelSchema) (arguments arguments' : List (KernelNodeArgument (List UInt8))) : Bool :=
  schema = schema' &&
    arguments.map (fun argument => (argument.offsetBytes, argument.bytes.length)) =
      arguments'.map fun argument => (argument.offsetBytes, argument.bytes.length)

/-! ## Nodes -/

/-- The state of the recursion: the matches and the parameterization so far. -/
structure Progress where
  counts : Counts
  bindingSites : List BindingSite
  routingFinalization : Option (List Nat)

/-- A kernel node that reads all routing addresses. -/
def Declarations.routingCandidate (d : Declarations) (arguments : List (KernelNodeArgument (List UInt8))) : Bool :=
  d.capturePayloadRowsAddress ≠ 0 && containsAddress arguments d.capturePayloadRowsAddress &&
    containsAddress arguments d.captureRoutingMetadataAddress && containsAddress arguments d.captureRoutingWeightsAddress

/-- The part of the recursion for kernel nodes. -/
def parameterizeKernel (d : Declarations) (path : List Nat) (nodeIndex : Nat) (schema schema' : KernelSchema)
    (arguments arguments' : List (KernelNodeArgument (List UInt8))) (progress : Progress) :
    Except String (CapturedNode × Progress) := do
  if !sameSchema schema schema' arguments arguments' then throw "xpool Primary and Control Graph kernel schemas differ"
  let candidate := d.routingCandidate arguments
  if candidate && progress.routingFinalization.isSome then
    throw "xpool Primary Graph has multiple Routing Finalization candidates"
  let (rewritten, scan) ← bindArguments d nodeIndex 0 arguments arguments' ⟨[], [], [], progress.counts, false⟩
  let sites := scan.nodeMatches.map fun found =>
    BindingSite.mk path found.1 ((d.resources[found.2]?.map (·.valueOffsetBytes)).getD 0)
  return (.kernel schema (if scan.changed then rewritten else arguments), {
    counts := scan.counts
    bindingSites := progress.bindingSites ++ sites
    routingFinalization := if candidate then some path else progress.routingFinalization })

/-- `memset_access_bytes`. -/
def memsetAccessBytes (destination : Nat) (p : MemsetParams) : Except String Nat := do
  if destination = 0 || p.width = 0 || p.height = 0 then throw "xpool graph Memset requires nonempty device storage"
  if !(p.elementSize = 1 || p.elementSize = 2 || p.elementSize = 4) then
    throw "xpool graph Memset has an unsupported element size"
  match checkedProd [p.width, p.elementSize] with
  | none => throw "xpool checked integer product overflows result type"
  | some row =>
    if !(p.height = 1 || row ≤ p.pitch) then throw "xpool graph Memset pitch is smaller than a row"
    match checkedProd [p.height - 1, p.pitch] with
    | none => throw "xpool checked integer product overflows result type"
    | some rows => sumAddresses rows row

/-- `memcpy_access_bytes`. -/
def memcpyAccessBytes (onDevice : Nat → Bool) (source destination : Nat) (p : MemcpyParams) : Except String Nat := do
  if !(!p.arrays && p.extent.1 ≠ 0 && p.extent.2 = (1, 1) && p.sourcePosition = (0, 0, 0) &&
      p.destinationPosition = (0, 0, 0)) then
    throw "xpool graph Memcpy requires contiguous one-dimensional storage"
  if p.kind = .other then throw "xpool graph Memcpy requires device-to-device direction"
  if !(onDevice source && onDevice destination) then throw "xpool graph Memcpy requires device allocations"
  return p.extent.1

mutual

/-- The loop of `parameterize_graph_recursive`, at one node. -/
def parameterizeNode (d : Declarations) (path : List Nat) (nodeIndex : Nat) :
    CapturedNode → CapturedNode → Progress → Except String (CapturedNode × Progress)
  | .childGraph edges nodes, .childGraph edges' nodes', progress => do
    if !sameDirectTopology edges edges' nodes nodes' then throw "xpool Primary and Control Graph topologies differ"
    let (nodes, progress) ← parameterizeNodes d (path ++ [nodeIndex]) 0 nodes nodes' progress
    return (.childGraph edges nodes, progress)
  | .memset destination p, .memset destination' p', progress => do
    if p ≠ p' then throw "xpool Primary and Control Memset metadata differ"
    let bytes ← memsetAccessBytes destination p
    let (hole, target) ← bindMemoryAddress d.laneReplacements destination destination' bytes true
    return (.memset target p, { progress with counts := progress.counts.add hole })
  | .memcpy source destination p, .memcpy source' destination' p', progress => do
    let bytes ← memcpyAccessBytes d.onDevice source destination p
    let bytes' ← memcpyAccessBytes d.onDevice source' destination' p'
    if !(bytes = bytes' && p.kind = p'.kind) then throw "xpool Primary and Control Memcpy metadata differ"
    let (hole, sourceTarget) ← bindMemoryAddress d.laneReplacements source source' bytes false
    let (hole', destinationTarget) ← bindMemoryAddress d.laneReplacements destination destination' bytes true
    return (.memcpy sourceTarget destinationTarget p, { progress with counts := (progress.counts.add hole).add hole' })
  | .empty, .empty, progress => return (.empty, progress)
  | .kernel schema arguments, .kernel schema' arguments', progress =>
    parameterizeKernel d (path ++ [nodeIndex]) nodeIndex schema schema' arguments arguments' progress
  | _, _, _ => throw "xpool Primary Graph contains an unsupported node kind"

/-- The loop over the nodes of one graph. -/
def parameterizeNodes (d : Declarations) (path : List Nat) :
    Nat → List CapturedNode → List CapturedNode → Progress → Except String (List CapturedNode × Progress)
  | nodeIndex, node :: rest, control :: rest', progress => do
    let (node, progress) ← parameterizeNode d path nodeIndex node control progress
    let (rest, progress) ← parameterizeNodes d path (nodeIndex + 1) rest rest' progress
    return (node :: rest, progress)
  | _, _, _, progress => return ([], progress)

end

/-- `GraphParameterization`, with the graph as rewritten. -/
structure GraphParameterization where
  graph : CapturedGraph
  bindingSites : List BindingSite
  routingFinalization : Option (List Nat)

/-- `parameterize_graph`. -/
def parameterizeGraph (d : Declarations) (primary control : CapturedGraph) : Except String GraphParameterization := do
  if !sameDirectTopology primary.edges control.edges primary.nodes control.nodes then
    throw "xpool Primary and Control Graph topologies differ"
  let (nodes, progress) ← parameterizeNodes d [] 0 primary.nodes control.nodes
    ⟨⟨d.resources.map fun _ => 0, d.laneReplacements.map fun _ => 0⟩, [], none⟩
  if !progress.counts.resources.all (· ≠ 0) then throw "xpool Primary Graph omits a required layer-resource binding"
  if !(d.laneReplacements.zip progress.counts.lanes).all fun entry => !entry.1.required || entry.2 ≠ 0 then
    throw "xpool Primary Graph omits a required lane-resource binding"
  return ⟨⟨primary.edges, nodes⟩, progress.bindingSites, progress.routingFinalization⟩

end CrossPool.FfnAgent.Parameterization
