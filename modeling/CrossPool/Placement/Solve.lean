import CrossPool.Lib.Grouping
import CrossPool.Placement.Projection

/-!
# Placement by counts

Layers of a model with the same rows are one class to the solver, which counts how many
layers of a class each TP rank places on each FfnAgent, and how many of them stay with
the model's primary group. A solution is taken apart into a group for every layer, and
the groups are counted again.
-/

namespace CrossPool.Placement

open Lib (Arc ExactMaxFlow)

/-! ## Layer classes -/

/-- A configured model with what every TP rank of every layer holds. -/
structure ModelLayers (ρ : Type) where
  tpSize : Nat
  layers : List (List ρ)
  ranked : 0 < tpSize
  rows : ∀ layer ∈ layers, layer.length = tpSize

/-- The models whose TP size the FfnAgents admit. -/
structure Problem (ρ : Type) where
  ffnagentCount : Nat
  models : List (ModelLayers ρ)
  fits : ∀ model ∈ models, model.tpSize ≤ ffnagentCount

/-- The layers of one model that are interchangeable to the solver. -/
structure LayerClass (ρ : Type) where
  modelIndex : Nat
  layerIndices : List Nat
  rankRows : List ρ

section Classes

variable {ρ : Type} [DecidableEq ρ]

def ModelLayers.classes (model : ModelLayers ρ) (modelIndex : Nat) : List (LayerClass ρ) :=
  (Lib.group (fun layer => model.layers.getD layer []) (List.range model.layers.length)).map fun (rankRows, layerIndices) =>
    { modelIndex, layerIndices, rankRows }

def Problem.classes (problem : Problem ρ) : List (LayerClass ρ) :=
  problem.models.zipIdx.flatMap fun (model, modelIndex) => model.classes modelIndex

variable {problem : Problem ρ} {model : ModelLayers ρ} {layerClass : LayerClass ρ} {modelIndex : Nat}

theorem mem_classes :
    layerClass ∈ problem.classes ↔
      ∃ model, problem.models[layerClass.modelIndex]? = some model ∧ layerClass ∈ model.classes layerClass.modelIndex := by
  simp only [Problem.classes, List.mem_flatMap, Prod.exists, List.mk_mem_zipIdx_iff_getElem?]
  constructor
  · rintro ⟨model, modelIndex, listed, member⟩
    have owner : layerClass.modelIndex = modelIndex := by
      obtain ⟨_, _, rfl⟩ := List.mem_map.mp member
      rfl
    exact ⟨model, owner ▸ listed, owner ▸ member⟩
  · rintro ⟨model, listed, member⟩
    exact ⟨model, layerClass.modelIndex, listed, member⟩

theorem ModelLayers.mem_classes (member : layerClass ∈ model.classes modelIndex) :
    (layerClass.rankRows, layerClass.layerIndices) ∈
      Lib.group (fun layer => model.layers.getD layer []) (List.range model.layers.length) := by
  obtain ⟨entry, listed, rfl⟩ := List.mem_map.mp member
  exact listed

theorem ModelLayers.classes_perm : ((model.classes modelIndex).flatMap LayerClass.layerIndices).Perm
    (List.range model.layers.length) := by
  rw [ModelLayers.classes, List.flatMap_map]
  exact Lib.group_perm

theorem ModelLayers.layer_lt (member : layerClass ∈ model.classes modelIndex) {layer : Nat}
    (listed : layer ∈ layerClass.layerIndices) : layer < model.layers.length := by
  rw [← List.mem_range, ← (@ModelLayers.classes_perm ρ _ model modelIndex).mem_iff]
  exact List.mem_flatMap.mpr ⟨layerClass, member, listed⟩

/-- A class has a row for every TP rank. -/
theorem ModelLayers.rankRows_length (member : layerClass ∈ model.classes modelIndex) :
    layerClass.rankRows.length = model.tpSize := by
  have grouped := ModelLayers.mem_classes member
  obtain ⟨layer, listed⟩ := List.exists_mem_of_ne_nil _ (Lib.group_nonempty grouped)
  have inside := ModelLayers.layer_lt member listed
  rw [← Lib.group_keyed grouped layer listed, List.getD_eq_getElem _ _ inside]
  exact model.rows _ (List.getElem_mem inside)

theorem ModelLayers.layerIndices_nodup (member : layerClass ∈ model.classes modelIndex) : layerClass.layerIndices.Nodup :=
  Lib.group_nodup List.nodup_range (ModelLayers.mem_classes member)

/-- No layer stands in two classes. -/
theorem Problem.classes_pairwise (problem : Problem ρ) : problem.classes.Pairwise fun first second =>
    first.modelIndex = second.modelIndex → first.layerIndices.Disjoint second.layerIndices := by
  rw [Problem.classes, List.pairwise_flatMap]
  constructor
  · rintro ⟨model, modelIndex⟩ _
    apply List.pairwise_map.mpr
    apply (Lib.group_pairwise_disjoint List.nodup_range).imp
    intro first second disjoint _
    exact disjoint
  · have indices : problem.models.zipIdx.Pairwise fun first second => first.2 ≠ second.2 := by
      apply List.pairwise_map.mp
      rw [List.zipIdx_map_snd]
      exact List.nodup_range'
    apply indices.imp
    rintro ⟨model, modelIndex⟩ ⟨model', modelIndex'⟩ differ first member second member' same
    obtain ⟨_, _, rfl⟩ := List.mem_map.mp member
    obtain ⟨_, _, rfl⟩ := List.mem_map.mp member'
    exact absurd same differ

/-- Every layer stands in a class. -/
theorem Problem.exists_class (listed : problem.models[modelIndex]? = some model) {layer : Nat}
    (inside : layer < model.layers.length) :
    ∃ layerClass ∈ problem.classes, layerClass.modelIndex = modelIndex ∧ layer ∈ layerClass.layerIndices := by
  have member := (@ModelLayers.classes_perm ρ _ model modelIndex).mem_iff.mpr (List.mem_range.mpr inside)
  obtain ⟨layerClass, member, here⟩ := List.mem_flatMap.mp member
  have owner : layerClass.modelIndex = modelIndex := by
    obtain ⟨_, _, rfl⟩ := List.mem_map.mp member
    rfl
  exact ⟨layerClass, mem_classes.mpr ⟨model, owner ▸ listed, owner ▸ member⟩, owner, here⟩

end Classes

/-! ## The constraints -/

/-- The values of the solver's counting variables, by class, FfnAgent and TP rank; the
primary group's members are by model, FfnAgent and TP rank. No domain admits a negative
value. -/
structure Solution where
  assignmentCount : Nat → Nat → Nat → Nat
  primaryMember : Nat → Nat → Nat → Bool
  primaryLayerCount : Nat → Nat
  primaryAssignmentCount : Nat → Nat → Nat → Nat

/-- One FfnAgent for every TP rank of a primary group, none of them twice. -/
structure PrimaryMembers (ffnagentCount tpSize : Nat) (member : Nat → Nat → Bool) : Prop where
  ranks : ∀ rank < tpSize, ∑ agent ∈ Finset.range ffnagentCount, (member agent rank).toNat = 1
  agents : ∀ agent < ffnagentCount, ∑ rank ∈ Finset.range tpSize, (member agent rank).toNat ≤ 1

/-- The constraints on the counts of one class. -/
structure ClassFeasible (ffnagentCount tpSize layerCount : Nat) (assignment : Nat → Nat → Nat) (member : Nat → Nat → Bool)
    (selectedCount : Nat) (selected : Nat → Nat → Nat) : Prop where
  assigned : ∀ rank < tpSize, ∀ agent < ffnagentCount, assignment agent rank ≤ layerCount
  ranks : ∀ rank < tpSize, ∑ agent ∈ Finset.range ffnagentCount, assignment agent rank = layerCount
  agents : ∀ agent < ffnagentCount, ∑ rank ∈ Finset.range tpSize, assignment agent rank ≤ layerCount
  selectable : selectedCount ≤ layerCount
  domain : ∀ agent < ffnagentCount, ∀ rank < tpSize, selected agent rank ≤ layerCount
  product : ∀ agent < ffnagentCount, ∀ rank < tpSize, selected agent rank = selectedCount * (member agent rank).toNat
  covered : ∀ agent < ffnagentCount, ∀ rank < tpSize, selected agent rank ≤ assignment agent rank
  residual : ∀ agent < ffnagentCount,
    ∑ rank ∈ Finset.range tpSize, ((assignment agent rank : Int) - selected agent rank) ≤ layerCount - selectedCount

section Constraints

variable {ρ : Type} [DecidableEq ρ]

/-- The layers of a model that stay with its primary group. -/
def Problem.primaryLayers (problem : Problem ρ) (primaryLayerCount : Nat → Nat) (modelIndex : Nat) : Nat :=
  (problem.classes.zipIdx.map fun (layerClass, classIndex) =>
    if layerClass.modelIndex = modelIndex then primaryLayerCount classIndex else 0).sum

/-- The assignment and primary-group constraints of the solver's model. -/
structure Feasible (problem : Problem ρ) (solution : Solution) : Prop where
  classes : ∀ (classIndex : Nat) layerClass, problem.classes[classIndex]? = some layerClass →
    ClassFeasible problem.ffnagentCount layerClass.rankRows.length layerClass.layerIndices.length
      (solution.assignmentCount classIndex) (solution.primaryMember layerClass.modelIndex)
      (solution.primaryLayerCount classIndex) (solution.primaryAssignmentCount classIndex)
  members : ∀ (modelIndex : Nat) model, problem.models[modelIndex]? = some model →
    PrimaryMembers problem.ffnagentCount model.tpSize (solution.primaryMember modelIndex)
  reused : ∀ modelIndex < problem.models.length, 1 ≤ problem.primaryLayers solution.primaryLayerCount modelIndex

/-! ## Taking a solution apart -/

variable {σ : Type} [ToString σ]

/-- The group of every layer, by model and layer. -/
abbrev Groups : Type := Nat × Nat → Option (List Nat)

/-- What a class leaves to be projected. -/
def Solution.residualCounts (solution : Solution) (classIndex : Nat) : Counts := fun rank agent =>
  solution.assignmentCount classIndex agent rank - solution.primaryAssignmentCount classIndex agent rank

/-- The first FfnAgent marked as the rank's primary member. -/
def Solution.primaryAgent (solution : Solution) (ffnagentCount modelIndex rank : Nat) : Except String Nat :=
  match (List.range ffnagentCount).find? fun agent => solution.primaryMember modelIndex agent rank with
  | some agent => .ok agent
  | none => .error "StopIteration"

/-- The layers of a class with their groups: the first ones with the primary group, the
others with the groups that the residual counts are projected to. -/
def placeClass (solve : List (Arc Nat) → Nat → Nat → Except σ Nat) (ffnagentCount : Nat) (solution : Solution)
    (classIndex : Nat) (layerClass : LayerClass ρ) : Except String (List (Nat × List Nat)) := do
  let tpSize := layerClass.rankRows.length
  let primaryGroup ← (List.range tpSize).mapM (solution.primaryAgent ffnagentCount layerClass.modelIndex)
  let primaryCount := solution.primaryLayerCount classIndex
  let projected ← projectAssignmentCounts solve tpSize ffnagentCount (solution.residualCounts classIndex)
  let others := layerClass.layerIndices.drop primaryCount
  if projected.length < others.length then throw "zip() argument 2 is shorter than argument 1"
  if others.length < projected.length then throw "zip() argument 2 is longer than argument 1"
  return (layerClass.layerIndices.take primaryCount).map (·, primaryGroup) ++ others.zip projected

def store (groups : Groups) (modelIndex : Nat) (pairs : List (Nat × List Nat)) : Groups :=
  pairs.foldl (fun groups (layer, group) => Function.update groups (modelIndex, layer) (some group)) groups

def placeNext (solve : List (Arc Nat) → Nat → Nat → Except σ Nat) (ffnagentCount : Nat) (solution : Solution)
    (groups : Groups) (entry : LayerClass ρ × Nat) : Except String Groups := do
  let pairs ← placeClass solve ffnagentCount solution entry.2 entry.1
  return store groups entry.1.modelIndex pairs

/-- A group for every layer. -/
def decompose (solve : List (Arc Nat) → Nat → Nat → Except σ Nat) (problem : Problem ρ) (solution : Solution) :
    Except String Groups :=
  problem.classes.zipIdx.foldlM (placeNext solve problem.ffnagentCount solution) fun _ => none

def readGroup (groups : Groups) (modelIndex layer : Nat) : Except String (List Nat) :=
  match groups (modelIndex, layer) with
  | some group => .ok group
  | none => .error s!"KeyError: ({modelIndex}, {layer})"

/-- Count the groups of one class again. -/
def auditClass (ffnagentCount : Nat) (solution : Solution) (groups : Groups) (entry : LayerClass ρ × Nat) :
    Except String Unit := do
  let tpSize := entry.1.rankRows.length
  let chosen ← entry.1.layerIndices.mapM (readGroup groups entry.1.modelIndex)
  if chosen.any fun group => tpSize < group.length || group.any (ffnagentCount ≤ ·) then throw "list index out of range"
  if ∃ rank ∈ List.range tpSize, ∃ agent ∈ List.range ffnagentCount,
      placed chosen rank agent ≠ solution.assignmentCount entry.2 agent rank then
    throw "FFN Placement projection does not reproduce solved assignment counts"

def audit (problem : Problem ρ) (solution : Solution) (groups : Groups) : Except String Unit :=
  problem.classes.zipIdx.forM (auditClass problem.ffnagentCount solution groups)

end Constraints

end CrossPool.Placement
