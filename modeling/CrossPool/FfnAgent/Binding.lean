import CrossPool.FfnAgent.Template

/-!
# Binding a layer

One graph serves all layers with one signature: before it runs, the addresses of the
weights of a layer are written at its sites. The graph that runs is then the captured graph
on the storage of the lane and on the weights of this layer, whatever layers ran before.
-/

namespace CrossPool.FfnAgent.Parameterization

open CrossPool.Lib

/-! ## Updates -/

/-- A parameter update: bytes for an offset among the parameters of a kernel node. -/
structure KernelNodeUpdate where
  node : List Nat
  offset : Nat
  value : List UInt8

/-- The loop of `bind_compute` over the sites. -/
def siteUpdates (bindingValues : List UInt8) (sites : List BindingSite) : List KernelNodeUpdate :=
  sites.map fun site => ⟨site.node, site.parameterOffsetBytes, window bindingValues site.valueOffsetBytes addressBytes⟩

/-- Write bytes at an offset among the parameters, where this argument holds them. -/
def KernelNodeArgument.write (argument : KernelNodeArgument (List UInt8)) (offset : Nat) (value : List UInt8) :
    KernelNodeArgument (List UInt8) :=
  if argument.offsetBytes ≤ offset ∧ offset + value.length ≤ argument.offsetBytes + argument.bytes.length then
    ⟨argument.offsetBytes, overwrite argument.bytes (offset - argument.offsetBytes) value⟩
  else argument

def KernelNodeUpdate.apply (path : List Nat) (argument : KernelNodeArgument (List UInt8)) (update : KernelNodeUpdate) :
    KernelNodeArgument (List UInt8) :=
  if path = update.node then argument.write update.offset update.value else argument

mutual

/-- Change the arguments of all kernel nodes, by the path of the node. -/
def Node.mapArguments (f : List Nat → KernelNodeArgument (List UInt8) → KernelNodeArgument (List UInt8)) (path : List Nat) :
    CapturedNode → CapturedNode
  | .childGraph edges nodes => .childGraph edges (mapArgumentsOf f path 0 nodes)
  | .memset destination p => .memset destination p
  | .memcpy source destination p => .memcpy source destination p
  | .empty => .empty
  | .kernel schema arguments => .kernel schema (arguments.map (f path))
  | .unsupported kind => .unsupported kind

def mapArgumentsOf (f : List Nat → KernelNodeArgument (List UInt8) → KernelNodeArgument (List UInt8)) (path : List Nat) :
    Nat → List CapturedNode → List CapturedNode
  | _, [] => []
  | nodeIndex, node :: rest => node.mapArguments f (path ++ [nodeIndex]) :: mapArgumentsOf f path (nodeIndex + 1) rest

end

/-- A graph after some updates, each of which changes the parameters of one kernel node. -/
def updated (updates : List KernelNodeUpdate) (graph : CapturedGraph) : CapturedGraph :=
  ⟨graph.edges, mapArgumentsOf (fun path argument => updates.foldl (KernelNodeUpdate.apply path) argument) [] 0 graph.nodes⟩

/-- What the call that applies updates is documented to do. -/
structure AppliesUpdates (apply : List KernelNodeUpdate → CapturedGraph → CapturedGraph) : Prop where
  applies : ∀ updates graph, apply updates graph = updated updates graph

/-- `bind_compute`, on the graph that runs next; the binding values are those of the layer. -/
def bindCompute (apply : List KernelNodeUpdate → CapturedGraph → CapturedGraph) (bindingValues : List UInt8)
    (sites : List BindingSite) (graph : CapturedGraph) : CapturedGraph :=
  if sites.length = 0 then graph else apply (siteUpdates bindingValues sites) graph

mutual

/-- The arguments of all kernel nodes. -/
def Node.kernels {α β : Type} : Node α β → List (List (KernelNodeArgument α))
  | .childGraph _ nodes => kernelsOf nodes
  | .kernel _ arguments => [arguments]
  | _ => []

def kernelsOf {α β : Type} : List (Node α β) → List (List (KernelNodeArgument α))
  | [] => []
  | node :: rest => node.kernels ++ kernelsOf rest

end

/-- The arguments of a kernel lie apart from each other among its parameters. -/
def Packed (arguments : List (KernelNodeArgument (List UInt8))) : Prop :=
  arguments.Pairwise fun first second =>
    first.offsetBytes + first.bytes.length ≤ second.offsetBytes ∨ second.offsetBytes + second.bytes.length ≤ first.offsetBytes

/-- The addresses of a layer on the storage of the lane. -/
def Declarations.layer (d : Declarations) (bindingValues : List UInt8) : Addresses where
  weights index := readAddress bindingValues ((d.resources[index]?.map (·.valueOffsetBytes)).getD 0)
  ranges := d.target.ranges

/-! ## One argument -/

/-- The binding is a weight. -/
def Hole.isWeight : Hole → Bool
  | .weight _ => true
  | .range .. => false

/-- What a binding of the layer does to an argument. -/
def writeHole (a : Addresses) (argument : KernelNodeArgument (List UInt8)) (hole : Nat × Hole) : KernelNodeArgument (List UInt8) :=
  if hole.2.isWeight then argument.write hole.1 (a.word hole.2) else argument

@[simp] theorem writeHole_weight (a : Addresses) (argument : KernelNodeArgument (List UInt8)) (offset index : Nat) :
    writeHole a argument (offset, .weight index) = argument.write offset (a.word (.weight index)) :=
  rfl

@[simp] theorem writeHole_range (a : Addresses) (argument : KernelNodeArgument (List UInt8)) (offset index inner : Nat) :
    writeHole a argument (offset, .range index inner) = argument :=
  rfl

section Arguments

variable {a a' : Addresses} {d : Declarations} {t : KernelNodeArgument ArgumentTemplate}
  {ts : List (KernelNodeArgument ArgumentTemplate)}

theorem length_fill {s : ArgumentTemplate} (sound : s.Sound d) : (s.fill a).length = s.bytes.length :=
  length_overlay sound.spaced (length_word a)

/-- Bindings that lie elsewhere leave an argument as it is. -/
theorem foldl_writeHole_of_apart {argument : KernelNodeArgument (List UInt8)} {holes : List (Nat × Hole)}
    (apart : ∀ hole ∈ holes,
      ¬(argument.offsetBytes ≤ hole.1 ∧ hole.1 + addressBytes ≤ argument.offsetBytes + argument.bytes.length)) :
    holes.foldl (writeHole a) argument = argument := by
  induction holes with
  | nil => rfl
  | cons hole rest ih =>
    have same : writeHole a argument hole = argument := by
      rw [writeHole, KernelNodeArgument.write, length_word, if_neg (apart hole List.mem_cons_self), ite_self]
    rw [List.foldl_cons, same]
    exact ih fun other listed => apart other (List.mem_cons_of_mem _ listed)

/-- The bindings of an argument fill the holes of its weights. -/
theorem foldl_writeHole (bytes : List UInt8) (spaced : Spaced addressBytes bytes.length t.bytes.holes) :
    (parameterHoles t).foldl (writeHole a) ⟨t.offsetBytes, bytes⟩ =
      ⟨t.offsetBytes, overlay a.word (t.bytes.holes.filter fun hole => hole.2.isWeight) bytes⟩ := by
  obtain ⟨offset, ⟨_, holes⟩⟩ := t
  rw [parameterHoles]
  dsimp only at spaced ⊢
  induction holes generalizing bytes with
  | nil => rfl
  | cons hole rest ih =>
    rw [List.map_cons, List.foldl_cons, writeHole, List.filter_cons]
    have inside := spaced.within hole List.mem_cons_self
    by_cases weight : hole.2.isWeight
    · have room : offset ≤ offset + hole.1 ∧ offset + hole.1 + addressBytes ≤ offset + bytes.length := by omega
      have sized : (overwrite bytes hole.1 (a.word hole.2)).length = bytes.length :=
        length_overwrite (by rw [length_word]; exact inside)
      rw [if_pos weight, if_pos weight, KernelNodeArgument.write, length_word, if_pos room, Nat.add_sub_cancel_left,
        ih _ (sized.symm ▸ spaced.tail)]
      rfl
    · rw [if_neg weight, if_neg weight]
      exact ih bytes spaced.tail

/-- An argument on some addresses is then on those of the layer. -/
theorem foldl_writeHole_fill (sound : t.bytes.Sound d) (ranges : a.ranges = a'.ranges) :
    (parameterHoles t).foldl (writeHole a') (a.fillArgument t) = a'.fillArgument t := by
  have sized : (t.bytes.fill a).length = t.bytes.bytes.length := length_fill sound
  rw [Addresses.fillArgument, foldl_writeHole _ (sized.symm ▸ sound.spaced), Addresses.fillArgument, ArgumentTemplate.fill,
    overlay_filter sound.spaced (length_word a) (length_word a'), ArgumentTemplate.fill]
  congr 2
  funext hole
  cases hole with
  | weight index => rfl
  | range index offset =>
    rw [if_neg (by simp [Hole.isWeight]), Addresses.word, Addresses.of, ranges]
    rfl

/-- The same among all arguments of a kernel. -/
theorem foldl_writeHole_all (sound : ∀ s ∈ ts, s.bytes.Sound d) (packed : Packed (ts.map d.primary.fillArgument))
    (ranges : a.ranges = a'.ranges) (listed : t ∈ ts) :
    (ts.flatMap parameterHoles).foldl (writeHole a') (a.fillArgument t) = a'.fillArgument t := by
  have elsewhere : ∀ {b : Addresses} {s : KernelNodeArgument ArgumentTemplate}, s ∈ ts →
      (s.offsetBytes + s.bytes.bytes.length ≤ t.offsetBytes ∨ t.offsetBytes + t.bytes.bytes.length ≤ s.offsetBytes) →
      ∀ hole ∈ parameterHoles s, ¬((b.fillArgument t).offsetBytes ≤ hole.1 ∧
        hole.1 + addressBytes ≤ (b.fillArgument t).offsetBytes + (b.fillArgument t).bytes.length) := by
    intro b s among apart hole hole'
    obtain ⟨inner, within, rfl⟩ := List.mem_map.mp hole'
    have inside := (sound s among).spaced.within inner within
    dsimp only [Addresses.fillArgument]
    rw [length_fill (sound t listed)]
    have width : addressBytes = 8 := rfl
    omega
  obtain ⟨before, after, rfl⟩ := List.append_of_mem listed
  rw [Packed, List.pairwise_map, List.pairwise_append, List.pairwise_cons] at packed
  obtain ⟨-, ⟨later, -⟩, earlier⟩ := packed
  have start : (before.flatMap parameterHoles).foldl (writeHole a') (a.fillArgument t) = a.fillArgument t := by
    apply foldl_writeHole_of_apart
    intro hole hole'
    obtain ⟨s, among, within⟩ := List.mem_flatMap.mp hole'
    have known := sound s (List.mem_append_left _ among)
    have apart := earlier s among t List.mem_cons_self
    dsimp only [Addresses.fillArgument] at apart
    rw [length_fill known, length_fill (sound t listed)] at apart
    exact elsewhere (List.mem_append_left _ among) apart hole within
  rw [List.flatMap_append, List.flatMap_cons, List.foldl_append, List.foldl_append, start,
    foldl_writeHole_fill (sound t listed) ranges]
  apply foldl_writeHole_of_apart
  intro hole hole'
  obtain ⟨s, among, within⟩ := List.mem_flatMap.mp hole'
  have known := sound s (List.mem_append_right _ (List.mem_cons_of_mem _ among))
  have apart := later s among
  dsimp only [Addresses.fillArgument] at apart
  rw [length_fill known, length_fill (sound t listed)] at apart
  exact elsewhere (List.mem_append_right _ (List.mem_cons_of_mem _ among)) apart.symm hole within

end Arguments

/-! ## The whole graph -/

/-- What the bindings at some places do to the arguments of a node. -/
def writePlaces (a : Addresses) (places : List Place) (path : List Nat) (argument : KernelNodeArgument (List UInt8)) :
    KernelNodeArgument (List UInt8) :=
  places.foldl (fun argument place => if path = place.1 then writeHole a argument place.2 else argument) argument

section Nodes

variable {a a' : Addresses} {d : Declarations} {path : List Nat} {places : List Place}

/-- The updates of a layer are the bindings of its weights. -/
theorem foldl_updates {bindingValues : List UInt8} (room : ∀ resource ∈ d.resources,
      resource.valueOffsetBytes + addressBytes ≤ bindingValues.length)
    (declared : ∀ place ∈ places, ∀ index, place.2.2 = .weight index → index < d.resources.length)
    (argument : KernelNodeArgument (List UInt8)) :
    (siteUpdates bindingValues (places.flatMap d.sites)).foldl (KernelNodeUpdate.apply path) argument =
      writePlaces (d.layer bindingValues) places path argument := by
  rw [writePlaces]
  induction places generalizing argument with
  | nil => rfl
  | cons place rest ih =>
    have later := ih fun other listed => declared other (List.mem_cons_of_mem _ listed)
    rw [List.flatMap_cons, siteUpdates, List.map_append, List.foldl_append, List.foldl_cons]
    rw [siteUpdates] at later
    rw [later]
    congr 1
    obtain ⟨node, offset, hole⟩ := place
    cases hole with
    | range index inner =>
      rw [writeHole_range, ite_self]
      rfl
    | weight index =>
      have small : index < d.resources.length := declared (node, offset, .weight index) List.mem_cons_self index rfl
      have inside := room _ (List.getElem_mem small)
      have word : (d.layer bindingValues).word (.weight index) =
          window bindingValues ((d.resources[index]?.map (·.valueOffsetBytes)).getD 0) addressBytes := by
        apply encode_readAddress
        rw [List.getElem?_eq_getElem small]
        exact inside
      rw [writeHole_weight, word]
      rfl

/-- Only the bindings below a node matter for it. -/
theorem writePlaces_filter (a : Addresses) (places : List Place) (path : List Nat) :
    writePlaces a (places.filter fun place => path <+: place.1) path = writePlaces a places path := by
  funext argument
  rw [writePlaces, writePlaces, List.foldl_filter]
  refine congrArg (fun f => List.foldl f argument places) ?_
  funext argument place
  by_cases here : path = place.1
  · rw [if_pos here, if_pos (decide_eq_true (here ▸ List.prefix_rfl))]
  · rw [if_neg here, ite_self]

/-- The places of some nodes are below one of them. -/
theorem prefix_of_mem_placesOf {place : Place} {ts : List Template}
    (below : ∀ t ∈ ts, ∀ path, place ∈ t.places path → path <+: place.1) {start : Nat} (listed : place ∈ placesOf path start ts) :
    ∃ nodeIndex, start ≤ nodeIndex ∧ path ++ [nodeIndex] <+: place.1 := by
  induction ts generalizing start with
  | nil => cases listed
  | cons t rest ih =>
    rw [placesOf] at listed
    rcases List.mem_append.mp listed with here | later
    · exact ⟨start, Nat.le_refl start, below t List.mem_cons_self (path ++ [start]) here⟩
    · obtain ⟨nodeIndex, after, found⟩ := ih (fun other among => below other (List.mem_cons_of_mem _ among)) later
      exact ⟨nodeIndex, by omega, found⟩

theorem prefix_of_mem_places {place : Place} (t : Template) : ∀ path, place ∈ t.places path → path <+: place.1 := by
  induction t using Node.induction with
  | childGraph edges nodes ih =>
    intro path listed
    obtain ⟨nodeIndex, -, below⟩ := prefix_of_mem_placesOf ih listed
    exact (List.prefix_append path [nodeIndex]).trans below
  | memset destination p =>
    intro path listed
    obtain rfl := List.mem_singleton.mp listed
    exact List.prefix_rfl
  | memcpy source destination p =>
    intro path listed
    rcases List.mem_cons.mp listed with rfl | second
    · exact List.prefix_rfl
    · obtain rfl := List.mem_singleton.mp second
      exact List.prefix_rfl
  | kernel schema arguments =>
    intro path listed
    rw [Node.places] at listed
    obtain ⟨hole, -, rfl⟩ := List.mem_map.mp listed
    exact List.prefix_rfl
  | _ =>
    intro path impossible
    cases impossible

/-- Two nodes of one graph have no places in common. -/
theorem eq_of_prefix {place : List Nat} {i j : Nat} (first : path ++ [i] <+: place) (second : path ++ [j] <+: place) : i = j := by
  have same := (List.prefix_of_prefix_length_le first second (by simp)).eq_of_length (by simp)
  exact List.head_eq_of_cons_eq (List.append_cancel_left same)

/-- The holes below a node, among those of its graph. -/
theorem filter_placesOf_cons (t : Template) (rest : List Template) (start : Nat) :
    (placesOf path start (t :: rest)).filter (fun place => path ++ [start] <+: place.1) = t.places (path ++ [start]) := by
  rw [placesOf, List.filter_append]
  have own : (t.places (path ++ [start])).filter (fun place => path ++ [start] <+: place.1) = t.places (path ++ [start]) := by
    apply List.filter_eq_self.mpr
    intro place listed
    exact decide_eq_true (prefix_of_mem_places t _ listed)
  have others : (placesOf path (start + 1) rest).filter (fun place => path ++ [start] <+: place.1) = [] := by
    apply List.filter_eq_nil_iff.mpr
    intro place listed below
    obtain ⟨nodeIndex, after, below'⟩ := prefix_of_mem_placesOf (fun t _ => prefix_of_mem_places t) listed
    have same := eq_of_prefix (of_decide_eq_true below) below'
    omega
  rw [own, others, List.append_nil]

theorem filter_placesOf_tail (t : Template) (rest : List Template) {start nodeIndex : Nat} (later : start < nodeIndex) :
    (placesOf path start (t :: rest)).filter (fun place => path ++ [nodeIndex] <+: place.1) =
      (placesOf path (start + 1) rest).filter fun place => path ++ [nodeIndex] <+: place.1 := by
  rw [placesOf, List.filter_append]
  have others : (t.places (path ++ [start])).filter (fun place => path ++ [nodeIndex] <+: place.1) = [] := by
    apply List.filter_eq_nil_iff.mpr
    intro place listed below
    have same := eq_of_prefix (of_decide_eq_true below) (prefix_of_mem_places t _ listed)
    omega
  rw [others, List.nil_append]

/-- The holes of a graph, read from those of the whole. -/
theorem filter_below {nodes : List Template} (covers : (places.filter fun place => path <+: place.1) = placesOf path 0 nodes)
    (nodeIndex : Nat) :
    (places.filter fun place => path ++ [nodeIndex] <+: place.1) =
      (placesOf path 0 nodes).filter fun place => path ++ [nodeIndex] <+: place.1 := by
  rw [← covers, List.filter_filter]
  apply List.filter_congr
  intro place _
  by_cases below : path ++ [nodeIndex] <+: place.1
  · simp [below, (List.prefix_append path [nodeIndex]).trans below]
  · simp [below]

/-- A node on some addresses is then on those of the layer. -/
theorem mapArguments_fill (ranges : a.ranges = a'.ranges) (t : Template) : ∀ path, Sound d t →
    (∀ arguments ∈ (d.primary.fill t).kernels, Packed arguments) →
    (places.filter fun place => path <+: place.1) = t.places path →
    (a.fill t).mapArguments (writePlaces a' places) path = a'.fill t := by
  induction t using Node.induction with
  | childGraph edges nodes ih =>
    intro path sound packed covers
    cases sound with
    | childGraph sound =>
      rw [fill_childGraph, fill_childGraph, Node.mapArguments]
      refine congrArg _ ?_
      have below := filter_below covers
      rw [fill_childGraph, Node.kernels] at packed
      suffices all : ∀ start, (∀ nodeIndex, start ≤ nodeIndex → (places.filter fun place => path ++ [nodeIndex] <+: place.1) =
          (placesOf path start nodes).filter fun place => path ++ [nodeIndex] <+: place.1) →
          mapArgumentsOf (writePlaces a' places) path start (mapNodes (ArgumentTemplate.fill a) a.of nodes) =
            mapNodes (ArgumentTemplate.fill a') a'.of nodes from
        all 0 fun nodeIndex _ => below nodeIndex
      clear covers below
      induction nodes with
      | nil =>
        intro start _
        rfl
      | cons t rest later =>
        intro start covers
        rw [mapNodes, mapNodes, mapArgumentsOf]
        rw [mapNodes, kernelsOf] at packed
        have here := ih t List.mem_cons_self (path ++ [start]) (sound t List.mem_cons_self)
          (fun arguments listed => packed arguments (List.mem_append_left _ listed))
          ((covers start (Nat.le_refl start)).trans (filter_placesOf_cons t rest start))
        refine congrArg₂ List.cons here ?_
        apply later (fun other listed => ih other (List.mem_cons_of_mem _ listed))
          (fun arguments listed => packed arguments (List.mem_append_right _ listed))
          (fun other listed => sound other (List.mem_cons_of_mem _ listed))
        intro nodeIndex after
        exact (covers nodeIndex (by omega)).trans (filter_placesOf_tail t rest (by omega))
  | memset destination p =>
    intro path sound _ _
    cases sound with
    | memset measured written =>
      obtain ⟨index, offset, range, rfl, -⟩ := written.placed
      simp only [Addresses.fill, Node.map, Node.mapArguments, Addresses.of, ranges]
  | memcpy source destination p =>
    intro path sound _ _
    cases sound with
    | memcpy measured read written =>
      obtain ⟨index, offset, range, rfl, -⟩ := read.placed
      obtain ⟨index', offset', range', rfl, -⟩ := written.placed
      simp only [Addresses.fill, Node.map, Node.mapArguments, Addresses.of, ranges]
  | empty =>
    intro path _ _ _
    rfl
  | kernel schema arguments =>
    intro path sound packed covers
    cases sound with
    | kernel sound =>
      rw [fill_kernel, fill_kernel, Node.mapArguments, List.map_map]
      refine congrArg _ ?_
      apply List.map_congr_left
      intro t listed
      rw [Function.comp_apply, ← writePlaces_filter, covers, Node.places, writePlaces, List.foldl_map]
      simp only [if_true]
      exact foldl_writeHole_all sound (packed _ (List.mem_singleton_self _)) ranges listed
  | unsupported kind =>
    intro path sound _ _
    cases sound

/-- Without updates a graph stays as it is. -/
theorem mapArguments_self (node : CapturedNode) : ∀ path, node.mapArguments (fun _ argument => argument) path = node := by
  induction node using Node.induction with
  | childGraph edges nodes ih =>
    intro path
    rw [Node.mapArguments]
    refine congrArg _ ?_
    suffices all : ∀ start, mapArgumentsOf (fun _ argument => argument) path start nodes = nodes from all 0
    induction nodes with
    | nil =>
      intro start
      rfl
    | cons node rest later =>
      intro start
      rw [mapArgumentsOf, ih node List.mem_cons_self, later fun other listed => ih other (List.mem_cons_of_mem _ listed)]
  | kernel schema arguments =>
    intro path
    rw [Node.mapArguments, List.map_id']
  | _ =>
    intro path
    rfl

/-- The weights among the holes of a node are declared. -/
theorem declared_of_mem_places {t : Template} (sound : Sound d t) : ∀ path, ∀ place ∈ t.places path, ∀ index,
    place.2.2 = .weight index → index < d.resources.length := by
  induction t using Node.induction with
  | childGraph edges nodes ih =>
    cases sound with
    | childGraph sound =>
      intro path
      rw [Node.places]
      suffices all : ∀ start, ∀ place ∈ placesOf path start nodes, ∀ index, place.2.2 = .weight index →
          index < d.resources.length from all 0
      induction nodes with
      | nil =>
        intro start place impossible
        cases impossible
      | cons t rest later =>
        intro start place listed
        rw [placesOf] at listed
        rcases List.mem_append.mp listed with here | among
        · exact ih t List.mem_cons_self (sound t List.mem_cons_self) _ place here
        · exact later (fun other listed' => ih other (List.mem_cons_of_mem _ listed'))
            (fun other listed' => sound other (List.mem_cons_of_mem _ listed')) (start + 1) place among
  | memset destination p =>
    intro path place listed index weight
    obtain rfl := List.mem_singleton.mp listed
    cases sound with
    | memset measured written =>
      obtain ⟨other, offset, range, hole, -⟩ := written.placed
      cases hole.symm.trans weight
  | memcpy source destination p =>
    intro path place listed index weight
    cases sound with
    | memcpy measured read written =>
      obtain ⟨other, offset, range, hole, -⟩ := read.placed
      obtain ⟨other', offset', range', hole', -⟩ := written.placed
      rcases List.mem_cons.mp listed with rfl | second
      · cases hole.symm.trans weight
      · obtain rfl := List.mem_singleton.mp second
        cases hole'.symm.trans weight
  | kernel schema arguments =>
    intro path place listed index weight
    cases sound with
    | kernel sound =>
      rw [Node.places] at listed
      obtain ⟨hole, among, rfl⟩ := List.mem_map.mp listed
      obtain ⟨t, listed', within⟩ := List.mem_flatMap.mp among
      obtain ⟨inner, found, rfl⟩ := List.mem_map.mp within
      have declares := (sound t listed').declared inner found
      dsimp only at weight
      rw [weight] at declares
      obtain ⟨⟨resource, is⟩, -⟩ := declares
      exact (List.getElem?_eq_some_iff.mp is.found).1
  | _ =>
    intro path place impossible
    cases impossible

end Nodes

section Layers

variable {apply : List KernelNodeUpdate → CapturedGraph → CapturedGraph} {d : Declarations} {primary control : CapturedGraph}
  {result : GraphParameterization} {t : GraphTemplate} {a : Addresses} {bindingValues : List UInt8}

/-- Binding a layer sets all weights to those of the layer. -/
theorem Parameterized.bindCompute (parameterized : Parameterized d primary control result t) (device : AppliesUpdates apply)
    (packed : ∀ arguments ∈ kernelsOf primary.nodes, Packed arguments) (ranges : a.ranges = d.target.ranges)
    (room : ∀ resource ∈ d.resources, resource.valueOffsetBytes + addressBytes ≤ bindingValues.length) :
    bindCompute apply bindingValues result.bindingSites (a.fillGraph t) = (d.layer bindingValues).fillGraph t := by
  have everywhere : Sound d (.childGraph t.edges t.nodes) := .childGraph parameterized.sound
  have updates : updated (siteUpdates bindingValues result.bindingSites) (a.fillGraph t) = (d.layer bindingValues).fillGraph t := by
    have weights : (fun path argument => (siteUpdates bindingValues result.bindingSites).foldl (KernelNodeUpdate.apply path) argument) =
        writePlaces (d.layer bindingValues) (GraphTemplate.places t) := by
      funext path argument
      rw [parameterized.bindingSites]
      exact foldl_updates room (declared_of_mem_places everywhere []) argument
    have filled := @mapArguments_fill a (d.layer bindingValues) d (GraphTemplate.places t) ranges (.childGraph t.edges t.nodes) []
      everywhere (by
        rw [fill_childGraph, Node.kernels]
        have same := congrArg Graph.nodes parameterized.atPrimary
        rw [← same] at packed
        exact packed)
      (by
        apply List.filter_eq_self.mpr
        intro place _
        exact decide_eq_true List.nil_prefix)
    rw [fill_childGraph, fill_childGraph, Node.mapArguments, Node.childGraph.injEq] at filled
    rw [updated, weights]
    exact congrArg (Graph.mk t.edges) filled.2
  rw [Parameterization.bindCompute]
  split
  · next none =>
    rw [List.eq_nil_of_length_eq_zero none] at updates
    rw [← updates, updated]
    have kept := mapArguments_self (.childGraph t.edges (a.fillGraph t).nodes) []
    rw [Node.mapArguments, Node.childGraph.injEq] at kept
    exact (congrArg (Graph.mk t.edges) kept.2).symm
  · rw [device.applies]
    exact updates

/-- The two captures and the graph of the lane are one graph on three sets of addresses, and
whatever layers it has run, it then runs the captured graph on the next layer. -/
theorem bound_layers (device : AppliesUpdates apply) (returned : parameterizeGraph d primary control = .ok result)
    (packed : ∀ arguments ∈ kernelsOf primary.nodes, Packed arguments) :
    ∃ t, Parameterized d primary control result t ∧
      ∀ layers bindingValues, (∀ values ∈ layers ++ [bindingValues], ∀ resource ∈ d.resources,
          resource.valueOffsetBytes + addressBytes ≤ values.length) →
        (layers ++ [bindingValues]).foldl (fun graph values => bindCompute apply values result.bindingSites graph) result.graph =
          (d.layer bindingValues).fillGraph t := by
  obtain ⟨t, parameterized⟩ := parameterizeGraph_eq_ok returned
  refine ⟨t, parameterized, ?_⟩
  intro layers bindingValues room
  rw [← parameterized.atTarget]
  suffices all : ∀ a : Addresses, a.ranges = d.target.ranges →
      (layers ++ [bindingValues]).foldl (fun graph values => bindCompute apply values result.bindingSites graph) (a.fillGraph t) =
        (d.layer bindingValues).fillGraph t from all d.target rfl
  induction layers with
  | nil =>
    intro a ranges
    exact parameterized.bindCompute device packed ranges (room bindingValues (List.mem_singleton_self _))
  | cons values rest ih =>
    intro a ranges
    rw [List.cons_append, List.foldl_cons, parameterized.bindCompute device packed ranges (room values List.mem_cons_self)]
    exact ih (fun other listed => room other (List.mem_cons_of_mem _ listed)) (d.layer values) rfl

end Layers

/-! ## Bytes -/

/-- One argument of the captures and of the rewritten graph, with the sites in it: every byte is that of both
captures or in one site, and a site reads as a declared pair and holds the address of its target. -/
structure Rebased (d : Declarations) (primary control rewritten : List UInt8) (sites : List (Nat × Hole)) : Prop where
  sizes : control.length = primary.length ∧ rewritten.length = primary.length
  inside : ∀ site ∈ sites, site.1 + addressBytes ≤ primary.length
  bytes : ∀ i < primary.length, (∃! site, site ∈ sites ∧ site.1 ≤ i ∧ i < site.1 + addressBytes) ∨
    ¬InHole addressBytes sites i ∧ control[i]? = primary[i]? ∧ rewritten[i]? = primary[i]?
  declared : ∀ site ∈ sites, d.Declares (readAddress primary site.1) (readAddress control site.1) site.2
  targets : ∀ site ∈ sites, window rewritten site.1 addressBytes = encode addressBytes (d.target.of site.2)

section Bytes

variable {d : Declarations} {primary control : CapturedGraph} {result : GraphParameterization}

theorem window_fill {s : ArgumentTemplate} (sound : s.Sound d) (a : Addresses) {site : Nat × Hole} (listed : site ∈ s.holes) :
    window (s.fill a) site.1 addressBytes = a.word site.2 := by
  have sized := length_word a
  have inside := sound.spaced.within site listed
  apply List.ext_getElem?
  intro i
  by_cases small : i < addressBytes
  · obtain ⟨filled, -⟩ := @getElem?_overlay _ a.word addressBytes (site.1 + i) s.holes s.bytes sound.spaced sized
    rw [getElem?_window small]
    have word := filled site listed (Nat.le_add_right _ _) (by omega)
    rwa [Nat.add_sub_cancel_left] at word
  · rw [List.getElem?_eq_none, List.getElem?_eq_none]
    · rw [sized]
      omega
    · rw [length_window (by rw [length_fill sound]; exact inside)]
      omega

theorem ArgumentTemplate.Sound.rebased {s : ArgumentTemplate} (sound : s.Sound d) :
    Rebased d (s.fill d.primary) (s.fill d.control) (s.fill d.target) s.holes := by
  have kept (a : Addresses) {i : Nat} (outside : ¬InHole addressBytes s.holes i) : (s.fill a)[i]? = s.bytes[i]? :=
    (@getElem?_overlay _ a.word addressBytes i s.holes s.bytes sound.spaced (length_word a)).2 outside
  refine ⟨⟨?_, ?_⟩, ?_, ?_, sound.declared, fun site listed => window_fill sound d.target listed⟩
  · rw [length_fill sound, length_fill sound]
  · rw [length_fill sound, length_fill sound]
  · intro site listed
    rw [length_fill sound]
    exact sound.spaced.within site listed
  · intro i _
    by_cases covered : InHole addressBytes s.holes i
    · obtain ⟨site, listed, covers⟩ := covered
      refine .inl ⟨site, ⟨listed, covers⟩, ?_⟩
      rintro other ⟨listed', covers'⟩
      exact sound.spaced.unique listed' listed covers' covers
    · exact .inr ⟨covered, (kept d.control covered).trans (kept d.primary covered).symm,
        (kept d.target covered).trans (kept d.primary covered).symm⟩

/-- The arguments of a sound node are sound. -/
theorem sound_of_mem_kernels (t : Template) : Sound d t → ∀ arguments ∈ t.kernels, ∀ s ∈ arguments, s.bytes.Sound d := by
  induction t using Node.induction with
  | childGraph edges nodes ih =>
    intro sound arguments listed
    cases sound with
    | childGraph sound =>
      rw [Node.kernels] at listed
      induction nodes with
      | nil => cases listed
      | cons t rest later =>
        rw [kernelsOf, List.mem_append] at listed
        rcases listed with first | others
        · exact ih t List.mem_cons_self (sound t List.mem_cons_self) arguments first
        · exact later (fun other among => ih other (List.mem_cons_of_mem _ among)) others
            fun other among => sound other (List.mem_cons_of_mem _ among)
  | kernel schema arguments =>
    intro sound arguments' listed
    cases sound with
    | kernel sound =>
      obtain rfl := List.mem_singleton.mp listed
      exact sound
  | _ =>
    intro _ arguments listed
    cases listed

end Bytes

/-! ## A run -/

/-- A weight, and a range that the kernel and a memset write. -/
def sampleDeclarations : Declarations where
  resources := [⟨4096, 8192, 4096, 8⟩]
  laneReplacements := [⟨65536, 131072, 256, 1048576, true, false⟩]
  captureRoutingMetadataAddress := 0
  captureRoutingWeightsAddress := 0
  capturePayloadRowsAddress := 0
  onDevice _ := true

/-- The capture on some weight and some storage. -/
def sampleCapture (weight storage : Nat) : CapturedGraph where
  edges := [⟨0, 1, 0, 0, 0⟩]
  nodes := [
    .childGraph [] [.memset (storage + 32) ⟨0, 4, 2, 1, 0⟩],
    .kernel ⟨1, 0, 0, (1, 1, 1), (32, 1, 1), 0⟩ [⟨0, 7 :: encode addressBytes weight⟩, ⟨16, encode addressBytes (storage + 16)⟩]]

theorem bound_layers_sample : ∃ t,
    Parameterized sampleDeclarations (sampleCapture 4096 65536) (sampleCapture 8192 131072)
        ⟨sampleCapture 4096 1048576, [⟨[1], 1, 8⟩], none⟩ t ∧
      ∀ layers bindingValues, (∀ values ∈ layers ++ [bindingValues], ∀ resource ∈ sampleDeclarations.resources,
          resource.valueOffsetBytes + addressBytes ≤ values.length) →
        (layers ++ [bindingValues]).foldl (fun graph values => bindCompute updated values [⟨[1], 1, 8⟩] graph)
            (sampleCapture 4096 1048576) =
          (sampleDeclarations.layer bindingValues).fillGraph t :=
  bound_layers ⟨fun _ _ => rfl⟩ rfl (by unfold Packed; decide)

end CrossPool.FfnAgent.Parameterization
