import CrossPool.Placement.Solve

/-!
# The placement model is exact

Counts that satisfy the constraints are the counts of a concrete placement: a group for
every layer, with enough layers of each class on the model's primary group. One way the
solution is taken apart, the residual counts of every class being regular; the other way
the placement is counted.
-/

namespace CrossPool.Placement

open Lib (Arc ExactMaxFlow)

/-! ## Primary groups -/

/-- The group that the members mark. -/
structure PrimaryGroup (ffnagentCount tpSize : Nat) (member : Nat → Nat → Bool) (primary : List Nat) : Prop where
  group : Group tpSize ffnagentCount primary
  marked : ∀ rank < tpSize, ∀ agent < ffnagentCount, member agent rank = (primary[rank]? == some agent)

section Primary

variable {ffnagentCount tpSize : Nat} {member : Nat → Nat → Bool} {primary : List Nat}

theorem sum_marks (marks : Nat → Bool) (bound : Nat) :
    ∑ index ∈ Finset.range bound, (marks index).toNat = ((Finset.range bound).filter fun index => marks index).card := by
  rw [Finset.card_filter]
  apply Finset.sum_congr rfl
  intro index _
  cases marks index <;> rfl

/-- The members of a primary group are marked once for every rank. -/
theorem PrimaryMembers.exists_agent (members : PrimaryMembers ffnagentCount tpSize member) {rank : Nat} (small : rank < tpSize) :
    ∃ agent < ffnagentCount, ∀ other < ffnagentCount, member other rank = true ↔ other = agent := by
  have one := members.ranks rank small
  rw [sum_marks (fun agent => member agent rank)] at one
  obtain ⟨agent, only⟩ := Finset.card_eq_one.mp one
  have here : agent ∈ (Finset.range ffnagentCount).filter fun other => member other rank := by
    rw [only]
    exact Finset.mem_singleton_self agent
  refine ⟨agent, Finset.mem_range.mp (Finset.mem_filter.mp here).1, ?_⟩
  intro other inside
  constructor
  · intro marked
    have there : other ∈ (Finset.range ffnagentCount).filter fun other => member other rank :=
      Finset.mem_filter.mpr ⟨Finset.mem_range.mpr inside, marked⟩
    rw [only] at there
    exact Finset.mem_singleton.mp there
  · rintro rfl
    exact (Finset.mem_filter.mp here).2

/-- The marks are a group. -/
theorem PrimaryMembers.exists_group (members : PrimaryMembers ffnagentCount tpSize member) :
    ∃ primary, PrimaryGroup ffnagentCount tpSize member primary := by
  choose! agent inside only using fun (rank : Nat) (small : rank < tpSize) => members.exists_agent small
  refine ⟨(List.range tpSize).map agent, ⟨?_, ?_, ?_⟩, ?_⟩
  · simp
  · intro chosen listed
    obtain ⟨rank, small, rfl⟩ := List.mem_map.mp listed
    exact inside rank (List.mem_range.mp small)
  · apply List.Nodup.map_on _ List.nodup_range
    intro rank small rank' small' same
    rw [List.mem_range] at small small'
    by_contra differ
    have most := members.agents (agent rank) (inside rank small)
    rw [sum_marks (fun rank' => member (agent rank) rank')] at most
    have marked : member (agent rank) rank = true := (only rank small _ (inside rank small)).mpr rfl
    have marked' : member (agent rank) rank' = true := by
      rw [same]
      exact (only rank' small' _ (inside rank' small')).mpr rfl
    apply differ
    apply Finset.card_le_one.mp most
    · exact Finset.mem_filter.mpr ⟨Finset.mem_range.mpr small, marked⟩
    · exact Finset.mem_filter.mpr ⟨Finset.mem_range.mpr small', marked'⟩
  · intro rank small other within
    rw [List.getElem?_map, List.getElem?_range small, Option.map_some]
    have here := only rank small other within
    rw [Bool.eq_iff_iff, here, beq_iff_eq, Option.some.injEq, eq_comm]

/-- The marks determine the group. -/
theorem PrimaryGroup.unique {other : List Nat} (chosen : PrimaryGroup ffnagentCount tpSize member primary)
    (chosen' : PrimaryGroup ffnagentCount tpSize member other) : primary = other := by
  apply List.ext_getElem?
  intro rank
  by_cases small : rank < tpSize
  · have here : rank < primary.length := by rwa [chosen.group.length]
    have within := chosen.group.within _ (List.getElem_mem here)
    have marked := chosen.marked rank small _ within
    rw [chosen'.marked rank small _ within, List.getElem?_eq_getElem here, beq_self_eq_true, beq_iff_eq] at marked
    rw [List.getElem?_eq_getElem here, marked]
  · rw [List.getElem?_eq_none (by rw [chosen.group.length]; omega), List.getElem?_eq_none (by rw [chosen'.group.length]; omega)]

theorem PrimaryGroup.ranks (chosen : PrimaryGroup ffnagentCount tpSize member primary) {rank : Nat} (small : rank < tpSize) :
    ∃ agent < ffnagentCount, primary[rank]? = some agent := by
  rw [← chosen.group.length] at small
  exact ⟨_, chosen.group.within _ (List.getElem_mem small), List.getElem?_eq_getElem small⟩

/-- A group's marks satisfy the constraints on them. -/
theorem PrimaryGroup.members (chosen : PrimaryGroup ffnagentCount tpSize member primary) :
    PrimaryMembers ffnagentCount tpSize member := by
  constructor
  · intro rank small
    rw [sum_marks (fun agent => member agent rank), Finset.card_eq_one]
    obtain ⟨agent, inside, here⟩ := chosen.ranks small
    refine ⟨agent, ?_⟩
    ext other
    rw [Finset.mem_filter, Finset.mem_range, Finset.mem_singleton]
    constructor
    · rintro ⟨within, marked⟩
      rw [chosen.marked rank small other within, here, beq_iff_eq] at marked
      exact (Option.some.inj marked).symm
    · rintro rfl
      refine ⟨inside, ?_⟩
      rw [chosen.marked rank small other inside, here]
      exact beq_self_eq_true _
  · intro agent inside
    rw [sum_marks (fun rank => member agent rank), Finset.card_le_one]
    intro rank here rank' here'
    obtain ⟨small, marked⟩ := Finset.mem_filter.mp here
    obtain ⟨small', marked'⟩ := Finset.mem_filter.mp here'
    rw [Finset.mem_range] at small small'
    rw [chosen.marked rank small agent inside, beq_iff_eq] at marked
    rw [chosen.marked rank' small' agent inside, beq_iff_eq] at marked'
    exact (List.getElem?_inj (chosen.group.length ▸ small) chosen.group.distinct).mp (marked.trans marked'.symm)

end Primary

/-- The search for the first marked FfnAgents finds the primary group. -/
theorem PrimaryGroup.found {ffnagentCount tpSize modelIndex : Nat} {solution : Solution} {primary : List Nat}
    (chosen : PrimaryGroup ffnagentCount tpSize (solution.primaryMember modelIndex) primary) :
    (List.range tpSize).mapM (solution.primaryAgent ffnagentCount modelIndex) = .ok primary := by
  have answers : ∀ rank ∈ List.range tpSize, solution.primaryAgent ffnagentCount modelIndex rank = .ok (primary.getD rank 0) := by
    intro rank small
    rw [List.mem_range] at small
    obtain ⟨agent, inside, here⟩ := chosen.ranks small
    have only (other : Nat) (within : other < ffnagentCount) : solution.primaryMember modelIndex other rank = true ↔ agent = other := by
      rw [chosen.marked rank small other within, here, beq_iff_eq, Option.some.injEq]
    have first : (List.range ffnagentCount).find? (fun other => solution.primaryMember modelIndex other rank) = some agent := by
      have hit : ((List.range ffnagentCount).find? fun other => solution.primaryMember modelIndex other rank).isSome := by
        rw [List.find?_isSome]
        exact ⟨agent, List.mem_range.mpr inside, (only agent inside).mpr rfl⟩
      obtain ⟨other, found⟩ := Option.isSome_iff_exists.mp hit
      have within := List.mem_range.mp (List.mem_of_find?_eq_some found)
      have marked := List.find?_some found
      rw [found, (only other within).mp marked]
    rw [Solution.primaryAgent, first, List.getD_eq_getElem?_getD, here]
    rfl
  rw [Lib.mapM_ok answers]
  apply congrArg Except.ok
  apply List.ext_getElem
  · rw [List.length_map, List.length_range, chosen.group.length]
  · intro rank small small'
    rw [List.getElem_map, List.getElem_range, List.getD_eq_getElem _ _ small']

/-! ## Groups of one class -/

section Counting

variable {ffnagentCount tpSize : Nat} {groups : List (List Nat)} {group primary : List Nat}

/-- A group places an agent at most once. -/
theorem Group.count_places (chosen : Group tpSize ffnagentCount group) (agent : Nat) :
    ∑ rank ∈ Finset.range tpSize, (if group[rank]? = some agent then 1 else 0 : Int) = if agent ∈ group then 1 else 0 := by
  rw [← chosen.length, sum_places]
  split
  · rename_i member
    rw [List.count_eq_one_of_mem chosen.distinct member]
    rfl
  · rename_i absent
    rw [List.count_eq_zero_of_not_mem absent]
    rfl

theorem Group.count_agents (chosen : Group tpSize ffnagentCount group) {rank : Nat} (small : rank < tpSize) :
    ∑ agent ∈ Finset.range ffnagentCount, (if group[rank]? = some agent then 1 else 0 : Int) = 1 := by
  rw [← chosen.length] at small
  have within := chosen.within _ (List.getElem_mem small)
  simp only [List.getElem?_eq_getElem small, Option.some.injEq]
  rw [Finset.sum_ite_eq, if_pos (Finset.mem_range.mpr within)]

theorem placed_cons (rank agent : Nat) :
    placed (group :: groups) rank agent = placed groups rank agent + if group[rank]? = some agent then 1 else 0 := by
  simp only [placed, List.countP_cons, beq_iff_eq]
  split <;> simp

theorem placed_append (groups others : List (List Nat)) (rank agent : Nat) :
    placed (groups ++ others) rank agent = placed groups rank agent + placed others rank agent := by
  simp [placed]

theorem placed_replicate (count rank agent : Nat) :
    placed (List.replicate count primary) rank agent = count * (primary[rank]? == some agent).toNat := by
  rw [placed, List.countP_replicate]
  cases primary[rank]? == some agent <;> simp

/-- Every group places every rank. -/
theorem sum_placed_agents (chosen : ∀ group ∈ groups, Group tpSize ffnagentCount group) {rank : Nat} (small : rank < tpSize) :
    ∑ agent ∈ Finset.range ffnagentCount, placed groups rank agent = groups.length := by
  induction groups with
  | nil => simp [placed]
  | cons group groups ih =>
    simp only [placed_cons, Finset.sum_add_distrib]
    rw [ih fun other member => chosen other (List.mem_cons_of_mem group member),
      (chosen group List.mem_cons_self).count_agents small, List.length_cons]
    push_cast
    rfl

/-- How often the ranks together stand on an agent. -/
theorem sum_placed_ranks (chosen : ∀ group ∈ groups, Group tpSize ffnagentCount group) (agent : Nat) :
    ∑ rank ∈ Finset.range tpSize, placed groups rank agent = groups.countP fun group => agent ∈ group := by
  induction groups with
  | nil => simp [placed]
  | cons group groups ih =>
    simp only [placed_cons, Finset.sum_add_distrib]
    rw [ih fun other member => chosen other (List.mem_cons_of_mem group member),
      (chosen group List.mem_cons_self).count_places agent, List.countP_cons]
    by_cases member : agent ∈ group <;> simp [member]

theorem countP_eq_le_countP (holds : List Nat → Bool) (true' : holds primary = true) :
    (groups.countP fun group => group = primary) ≤ groups.countP holds := by
  apply List.countP_mono_left
  intro group _ same
  rw [of_decide_eq_true same]
  exact true'

theorem countP_eq_le_countP_not (holds : List Nat → Bool) (false' : holds primary = false) :
    (groups.countP fun group => group = primary) + groups.countP holds ≤ groups.length := by
  have others : (groups.countP fun group => group = primary) ≤ groups.countP fun group => ¬holds group = true :=
    countP_eq_le_countP _ (by simp [false'])
  have split := List.length_eq_countP_add_countP holds (l := groups)
  omega

end Counting

/-- Groups for the layers of a class with the solved counts, enough of them the primary. -/
structure ClassPlaced (ffnagentCount tpSize layerCount : Nat) (assignment : Nat → Nat → Nat) (member : Nat → Nat → Bool)
    (selectedCount : Nat) (groups : List (List Nat)) : Prop where
  length : groups.length = layerCount
  each : ∀ group ∈ groups, Group tpSize ffnagentCount group
  counts : ∀ rank < tpSize, ∀ agent < ffnagentCount, placed groups rank agent = assignment agent rank
  primary : ∃ primary, PrimaryGroup ffnagentCount tpSize member primary ∧
    selectedCount ≤ groups.countP fun group => group = primary

section Classes

variable {ffnagentCount tpSize layerCount selectedCount : Nat} {assignment selected : Nat → Nat → Nat}
  {member : Nat → Nat → Bool} {groups : List (List Nat)} {primary : List Nat}

/-- What a class leaves after its primary layers is regular. -/
theorem ClassFeasible.projectable
    (feasible : ClassFeasible ffnagentCount tpSize layerCount assignment member selectedCount selected)
    (members : PrimaryMembers ffnagentCount tpSize member) (ranked : 0 < tpSize) (fits : tpSize ≤ ffnagentCount) :
    Projectable tpSize ffnagentCount (fun rank agent => (assignment agent rank : Int) - selected agent rank)
      (layerCount - selectedCount) := by
  refine ⟨ranked, fits, ?_, ?_, feasible.residual⟩
  · intro rank small agent inside
    have covered := feasible.covered agent inside rank small
    omega
  · intro rank small
    rw [Finset.sum_sub_distrib]
    have total : ∑ agent ∈ Finset.range ffnagentCount, (assignment agent rank : Int) = layerCount := by
      exact_mod_cast feasible.ranks rank small
    have picked : ∑ agent ∈ Finset.range ffnagentCount, (selected agent rank : Int) = selectedCount := by
      have once := members.ranks rank small
      have whole : ∑ agent ∈ Finset.range ffnagentCount, selected agent rank = selectedCount := by
        rw [Finset.sum_congr rfl fun agent inside => feasible.product agent (Finset.mem_range.mp inside) rank small,
          ← Finset.mul_sum, once, mul_one]
      exact_mod_cast whole
    rw [total, picked]

/-- The primary layers and the projected ones together have the solved counts. -/
theorem ClassFeasible.placed
    (feasible : ClassFeasible ffnagentCount tpSize layerCount assignment member selectedCount selected)
    (chosen : PrimaryGroup ffnagentCount tpSize member primary) (length : groups.length + selectedCount = layerCount)
    (projected : ∀ group ∈ groups, Group tpSize ffnagentCount group)
    (residual : ∀ rank < tpSize, ∀ agent < ffnagentCount,
      Placement.placed groups rank agent = (assignment agent rank : Int) - selected agent rank) :
    ClassPlaced ffnagentCount tpSize layerCount assignment member selectedCount
      (List.replicate selectedCount primary ++ groups) := by
  refine ⟨?_, ?_, ?_, primary, chosen, ?_⟩
  · rw [List.length_append, List.length_replicate]
    omega
  · intro group listed
    rcases List.mem_append.mp listed with listed | listed
    · rw [List.eq_of_mem_replicate listed]
      exact chosen.group
    · exact projected group listed
  · intro rank small agent inside
    have product := feasible.product agent inside rank small
    rw [placed_append, placed_replicate, residual rank small agent inside, product,
      chosen.marked rank small agent inside]
    push_cast
    omega
  · rw [List.countP_append, List.countP_replicate]
    simp

/-- Counted groups satisfy the constraints. -/
theorem ClassPlaced.feasible
    (concrete : ClassPlaced ffnagentCount tpSize layerCount assignment member selectedCount groups) :
    ClassFeasible ffnagentCount tpSize layerCount assignment member selectedCount
      (fun agent rank => selectedCount * (member agent rank).toNat) := by
  obtain ⟨primary, chosen, reused⟩ := concrete.primary
  have length := concrete.length
  have selectable : selectedCount ≤ layerCount := by
    rw [← length]
    exact reused.trans List.countP_le_length
  have marks (agent rank : Nat) : (member agent rank).toNat ≤ 1 := Bool.toNat_le _
  refine ⟨?_, ?_, ?_, selectable, ?_, fun _ _ _ _ => rfl, ?_, ?_⟩
  · intro rank small agent inside
    have counted := concrete.counts rank small agent inside
    have most : (groups.countP fun group => group[rank]? == some agent) ≤ groups.length := List.countP_le_length
    rw [Placement.placed] at counted
    omega
  · intro rank small
    have whole := sum_placed_agents concrete.each small
    rw [Finset.sum_congr rfl fun agent inside => concrete.counts rank small agent (Finset.mem_range.mp inside)] at whole
    rw [← length]
    exact_mod_cast whole
  · intro agent inside
    have whole := sum_placed_ranks concrete.each agent
    rw [Finset.sum_congr rfl fun rank small => concrete.counts rank (Finset.mem_range.mp small) agent inside] at whole
    rw [← length]
    have most : (groups.countP fun group => agent ∈ group) ≤ groups.length := List.countP_le_length
    have bound : ∑ rank ∈ Finset.range tpSize, (assignment agent rank : Int) ≤ groups.length := by
      rw [whole]
      exact_mod_cast most
    exact_mod_cast bound
  · intro agent _ rank _
    calc
      selectedCount * (member agent rank).toNat ≤ selectedCount * 1 := Nat.mul_le_mul_left _ (marks agent rank)
      _ ≤ layerCount := by omega
  · intro agent inside rank small
    have counted := concrete.counts rank small agent inside
    rw [chosen.marked rank small agent inside]
    by_cases here : primary[rank]? = some agent
    · have least : (groups.countP fun group => group = primary) ≤ groups.countP fun group => group[rank]? == some agent := by
        apply countP_eq_le_countP
        rw [here]
        exact beq_self_eq_true _
      rw [here, beq_self_eq_true, Bool.toNat_true, Nat.mul_one]
      rw [Placement.placed] at counted
      omega
    · rw [beq_eq_false_iff_ne.mpr here, Bool.toNat_false, Nat.mul_zero]
      exact Nat.zero_le _
  · intro agent inside
    have whole := sum_placed_ranks concrete.each agent
    rw [Finset.sum_congr rfl fun rank small => concrete.counts rank (Finset.mem_range.mp small) agent inside] at whole
    have picked : ∑ rank ∈ Finset.range tpSize, ((selectedCount * (member agent rank).toNat : Nat) : Int) =
        if agent ∈ primary then (selectedCount : Int) else 0 := by
      have places := chosen.group.count_places agent
      calc
        ∑ rank ∈ Finset.range tpSize, ((selectedCount * (member agent rank).toNat : Nat) : Int) =
            ∑ rank ∈ Finset.range tpSize, (selectedCount : Int) * if primary[rank]? = some agent then 1 else 0 := by
          apply Finset.sum_congr rfl
          intro rank small
          rw [chosen.marked rank (Finset.mem_range.mp small) agent inside]
          by_cases here : primary[rank]? = some agent <;> simp [here]
        _ = selectedCount * if agent ∈ primary then 1 else 0 := by rw [← Finset.mul_sum, places]
        _ = if agent ∈ primary then (selectedCount : Int) else 0 := by split <;> simp
    rw [Finset.sum_sub_distrib, whole, picked]
    -- the layers of the primary group hold the agent, or none of them does
    by_cases here : agent ∈ primary
    · have most : (groups.countP fun group => agent ∈ group) ≤ groups.length := List.countP_le_length
      rw [if_pos here]
      omega
    · have most : (groups.countP fun group => group = primary) + (groups.countP fun group => agent ∈ group) ≤ groups.length :=
        countP_eq_le_countP_not _ (by simpa using here)
      rw [if_neg here]
      omega

end Classes

/-! ## Taking a solution apart -/

/-- A group for every layer, with the given counts: at least the counted layers of each
class stay with the group that the model's members mark. -/
structure Concrete {ρ : Type} [DecidableEq ρ] (problem : Problem ρ) (assignmentCount : Nat → Nat → Nat → Nat)
    (primaryMember : Nat → Nat → Nat → Bool) (primaryLayerCount : Nat → Nat) (placement : Nat → Nat → List Nat) : Prop where
  groups : ∀ (modelIndex : Nat) model, problem.models[modelIndex]? = some model → ∀ layer < model.layers.length,
    Group model.tpSize problem.ffnagentCount (placement modelIndex layer)
  counts : ∀ (classIndex : Nat) layerClass, problem.classes[classIndex]? = some layerClass →
    ∀ rank < layerClass.rankRows.length, ∀ agent < problem.ffnagentCount,
      placed (layerClass.layerIndices.map (placement layerClass.modelIndex)) rank agent = assignmentCount classIndex agent rank
  primary : ∀ (modelIndex : Nat) model, problem.models[modelIndex]? = some model →
    ∃ primary, PrimaryGroup problem.ffnagentCount model.tpSize (primaryMember modelIndex) primary ∧
      ∀ (classIndex : Nat) layerClass, problem.classes[classIndex]? = some layerClass → layerClass.modelIndex = modelIndex →
        primaryLayerCount classIndex ≤ (layerClass.layerIndices.map (placement modelIndex)).countP fun group => group = primary
  reused : ∀ modelIndex < problem.models.length, 1 ≤ problem.primaryLayers primaryLayerCount modelIndex

section Decompose

variable {ρ σ : Type} [DecidableEq ρ] [ToString σ] {problem : Problem ρ} {solution : Solution}
  {solve : List (Arc Nat) → Nat → Nat → Except σ Nat} {classIndex : Nat} {layerClass : LayerClass ρ}

/-- A class of the problem belongs to one of its models. -/
theorem exists_model (listed : problem.classes[classIndex]? = some layerClass) :
    ∃ model, problem.models[layerClass.modelIndex]? = some model ∧ layerClass.rankRows.length = model.tpSize ∧
      model.tpSize ≤ problem.ffnagentCount ∧ layerClass.layerIndices.Nodup ∧
        ∀ layer ∈ layerClass.layerIndices, layer < model.layers.length := by
  obtain ⟨model, owner, member⟩ := mem_classes.mp (List.mem_of_getElem? listed)
  refine ⟨model, owner, ModelLayers.rankRows_length member, problem.fits model (List.mem_of_getElem? owner),
    ModelLayers.layerIndices_nodup member, ?_⟩
  intro layer here
  exact ModelLayers.layer_lt member here

/-- What the solved counts of a class are to the groups of its layers. -/
abbrev PlacedAs (problem : Problem ρ) (solution : Solution) (classIndex : Nat) (layerClass : LayerClass ρ)
    (groups : List (List Nat)) : Prop :=
  ClassPlaced problem.ffnagentCount layerClass.rankRows.length layerClass.layerIndices.length
    (solution.assignmentCount classIndex) (solution.primaryMember layerClass.modelIndex)
    (solution.primaryLayerCount classIndex) groups

/-- A class of a feasible solution is placed. -/
theorem Feasible.placeClass_ok (exact' : ExactMaxFlow solve) (feasible : Feasible problem solution)
    (listed : problem.classes[classIndex]? = some layerClass) :
    ∃ pairs, placeClass solve problem.ffnagentCount solution classIndex layerClass = .ok pairs ∧
      pairs.map Prod.fst = layerClass.layerIndices ∧
        PlacedAs problem solution classIndex layerClass (pairs.map Prod.snd) := by
  obtain ⟨model, owner, ranks, fits, -, -⟩ := exists_model listed
  have counted := feasible.classes classIndex layerClass listed
  have members := feasible.members _ model owner
  rw [← ranks] at members fits
  have ranked : 0 < layerClass.rankRows.length := ranks ▸ model.ranked
  obtain ⟨primary, chosen⟩ := members.exists_group
  have projectable := counted.projectable members ranked fits
  obtain ⟨projected, made, length, groups, counts⟩ := projectAssignmentCounts_ok exact' projectable
  have selectable := counted.selectable
  have others : (layerClass.layerIndices.drop (solution.primaryLayerCount classIndex)).length = projected.length := by
    rw [List.length_drop, length]
    omega
  have first : (layerClass.layerIndices.take (solution.primaryLayerCount classIndex)).length =
      solution.primaryLayerCount classIndex := by
    rw [List.length_take]
    omega
  refine ⟨(layerClass.layerIndices.take (solution.primaryLayerCount classIndex)).map (·, primary) ++
    (layerClass.layerIndices.drop (solution.primaryLayerCount classIndex)).zip projected, ?_, ?_, ?_⟩
  · rw [placeClass, chosen.found]
    change (projectAssignmentCounts solve _ _ fun rank agent => (solution.assignmentCount classIndex agent rank : Int) -
      solution.primaryAssignmentCount classIndex agent rank) >>= _ = _
    rw [made]
    change (if _ then _ else _) = _
    rw [if_neg (by omega)]
    change (if _ then _ else _) = _
    rw [if_neg (by omega)]
    rfl
  · rw [List.map_append, List.map_map, List.map_fst_zip others.le]
    change (layerClass.layerIndices.take _).map id ++ _ = _
    rw [List.map_id, List.take_append_drop]
  · rw [List.map_append, List.map_map, List.map_snd_zip others.ge]
    change PlacedAs problem solution classIndex layerClass ((layerClass.layerIndices.take _).map (fun _ => primary) ++ projected)
    rw [List.map_const', first]
    apply counted.placed chosen _ groups counts
    rw [length]
    omega

variable {groups : Groups} {modelIndex : Nat} {pairs : List (Nat × List Nat)}

theorem store_elsewhere {place : Nat × Nat} (elsewhere : place.1 = modelIndex → place.2 ∉ pairs.map Prod.fst) :
    store groups modelIndex pairs place = groups place := by
  induction pairs generalizing groups with
  | nil => rfl
  | cons pair pairs ih =>
    obtain ⟨layer, group⟩ := pair
    change store (Function.update groups (modelIndex, layer) (some group)) modelIndex pairs place = _
    rw [ih fun same inside => elsewhere same (List.mem_cons_of_mem layer inside), Function.update_of_ne]
    rintro rfl
    exact elsewhere rfl List.mem_cons_self

/-- The layers stored have their groups. -/
theorem store_layers (distinct : (pairs.map Prod.fst).Nodup) :
    (pairs.map Prod.fst).map (fun layer => store groups modelIndex pairs (modelIndex, layer)) = (pairs.map Prod.snd).map some := by
  induction pairs generalizing groups with
  | nil => rfl
  | cons pair pairs ih =>
    obtain ⟨layer, group⟩ := pair
    obtain ⟨fresh, distinct⟩ := List.nodup_cons.mp distinct
    change store (Function.update groups (modelIndex, layer) (some group)) modelIndex pairs (modelIndex, layer) ::
      (pairs.map Prod.fst).map (fun other =>
        store (Function.update groups (modelIndex, layer) (some group)) modelIndex pairs (modelIndex, other)) = _
    rw [ih distinct, store_elsewhere fun _ => fresh, Function.update_self]
    rfl

/-- The classes gone through have their groups stored. -/
def StoredAs (problem : Problem ρ) (solution : Solution) (done : List (LayerClass ρ × Nat)) (groups : Groups) : Prop :=
  ∀ entry ∈ done, ∃ chosen, PlacedAs problem solution entry.2 entry.1 chosen ∧
    entry.1.layerIndices.map (fun layer => groups (entry.1.modelIndex, layer)) = chosen.map some

/-- Every class of a feasible solution gets its groups. -/
theorem Feasible.decompose_ok (exact' : ExactMaxFlow solve) (feasible : Feasible problem solution) :
    ∃ groups, decompose solve problem solution = .ok groups ∧
      ∀ (classIndex : Nat) layerClass, problem.classes[classIndex]? = some layerClass →
        ∃ chosen, PlacedAs problem solution classIndex layerClass chosen ∧
          layerClass.layerIndices.map (fun layer => groups (layerClass.modelIndex, layer)) = chosen.map some := by
  have step : ∀ (done : List (LayerClass ρ × Nat)) (item : LayerClass ρ × Nat) (rest : List (LayerClass ρ × Nat)) (groups : Groups),
      problem.classes.zipIdx = done ++ item :: rest → StoredAs problem solution done groups →
        ∃ next, placeNext solve problem.ffnagentCount solution groups item = .ok next ∧
          StoredAs problem solution (done ++ [item]) next := by
    rintro done ⟨layerClass, classIndex⟩ rest groups whole before
    have listed : problem.classes[classIndex]? = some layerClass := by
      apply List.mk_mem_zipIdx_iff_getElem?.mp
      rw [whole]
      exact List.mem_append_right done List.mem_cons_self
    obtain ⟨pairs, made, layers, placed⟩ := feasible.placeClass_ok exact' listed
    obtain ⟨-, -, -, -, distinct, -⟩ := exists_model listed
    refine ⟨store groups layerClass.modelIndex pairs, ?_, ?_⟩
    · rw [placeNext, made]
      rfl
    · intro entry member
      rcases List.mem_append.mp member with earlier | here
      · obtain ⟨chosen, placed', stored⟩ := before entry earlier
        refine ⟨chosen, placed', ?_⟩
        rw [← stored]
        apply List.map_congr_left
        intro layer inside
        apply store_elsewhere
        intro same again
        have classes := problem.classes_pairwise
        rw [← List.zipIdx_map_fst 0 problem.classes] at classes
        have apart := List.pairwise_map.mp classes
        rw [whole, List.pairwise_append] at apart
        rw [layers] at again
        exact apart.2.2 entry earlier (layerClass, classIndex) List.mem_cons_self same inside again
      · obtain rfl := List.mem_singleton.mp here
        refine ⟨pairs.map Prod.snd, placed, ?_⟩
        rw [← layers]
        exact store_layers (layers ▸ distinct)
  have base : StoredAs problem solution [] fun _ => none := fun entry member => absurd member List.not_mem_nil
  obtain ⟨groups, folded, all⟩ := Lib.foldlM_ok _ base step
  refine ⟨groups, folded, ?_⟩
  intro classIndex layerClass listed
  exact all (layerClass, classIndex) (List.mk_mem_zipIdx_iff_getElem?.mpr listed)

/-- The groups stored for the layers, none where nothing is stored. -/
def placementOf (groups : Groups) (modelIndex layer : Nat) : List Nat := (groups (modelIndex, layer)).getD []

/-- The groups of every class, read back. -/
theorem map_placementOf {layers : List Nat} {chosen : List (List Nat)}
    (stored : layers.map (fun layer => groups (modelIndex, layer)) = chosen.map some) :
    layers.map (placementOf groups modelIndex) = chosen := by
  calc
    layers.map (placementOf groups modelIndex) =
        (layers.map fun layer => groups (modelIndex, layer)).map fun group => group.getD [] := by
      rw [List.map_map]
      rfl
    _ = chosen := by
      rw [stored, List.map_map]
      exact List.map_id chosen

/-- Groups that are stored with the solved counts are a concrete placement of these. -/
theorem Feasible.concrete (feasible : Feasible problem solution)
    (stored : ∀ (classIndex : Nat) layerClass, problem.classes[classIndex]? = some layerClass →
      ∃ chosen, PlacedAs problem solution classIndex layerClass chosen ∧
        layerClass.layerIndices.map (fun layer => groups (layerClass.modelIndex, layer)) = chosen.map some) :
    Concrete problem solution.assignmentCount solution.primaryMember solution.primaryLayerCount (placementOf groups) := by
  constructor
  · intro modelIndex model owner layer inside
    obtain ⟨layerClass, member, rfl, here⟩ := Problem.exists_class owner inside
    obtain ⟨classIndex, listed⟩ := List.mem_iff_getElem?.mp member
    obtain ⟨chosen, placed, same⟩ := stored classIndex layerClass listed
    obtain ⟨model', owner', ranks, -, -, -⟩ := exists_model listed
    obtain rfl := Option.some.inj (owner.symm.trans owner')
    rw [← ranks]
    apply placed.each
    rw [← map_placementOf same]
    exact List.mem_map_of_mem here
  · intro classIndex layerClass listed rank small agent inside
    obtain ⟨chosen, placed, same⟩ := stored classIndex layerClass listed
    rw [map_placementOf same]
    exact placed.counts rank small agent inside
  · intro modelIndex model owner
    obtain ⟨primary, group⟩ := (feasible.members modelIndex model owner).exists_group
    refine ⟨primary, group, ?_⟩
    rintro classIndex layerClass listed rfl
    obtain ⟨chosen, placed, same⟩ := stored classIndex layerClass listed
    obtain ⟨model', owner', ranks, -, -, -⟩ := exists_model listed
    obtain rfl := Option.some.inj (owner.symm.trans owner')
    obtain ⟨primary', group', reused⟩ := placed.primary
    rw [ranks] at group'
    rw [map_placementOf same, group.unique group']
    exact reused
  · exact feasible.reused

/-- The audit of stored groups with the solved counts passes. -/
theorem audit_ok (stored : ∀ (classIndex : Nat) layerClass, problem.classes[classIndex]? = some layerClass →
      ∃ chosen, PlacedAs problem solution classIndex layerClass chosen ∧
        layerClass.layerIndices.map (fun layer => groups (layerClass.modelIndex, layer)) = chosen.map some) :
    audit problem solution groups = .ok () := by
  apply Lib.forM_ok
  rintro ⟨layerClass, classIndex⟩ member
  obtain ⟨chosen, placed, same⟩ := stored classIndex layerClass (List.mk_mem_zipIdx_iff_getElem?.mp member)
  have answers : ∀ layer ∈ layerClass.layerIndices,
      readGroup groups layerClass.modelIndex layer = .ok (placementOf groups layerClass.modelIndex layer) := by
    intro layer here
    have present : groups (layerClass.modelIndex, layer) ∈ chosen.map some := by
      rw [← same]
      exact List.mem_map_of_mem here
    obtain ⟨group, -, found⟩ := List.mem_map.mp present
    rw [readGroup, placementOf, ← found]
    rfl
  rw [auditClass]
  dsimp only
  rw [Lib.mapM_ok answers, map_placementOf same]
  change (if _ then _ else _) = _
  rw [if_neg]
  · change (if _ then _ else _) = _
    rw [if_neg]
    · rfl
    · rintro ⟨rank, small, agent, inside, differ⟩
      exact differ (placed.counts rank (List.mem_range.mp small) agent (List.mem_range.mp inside))
  · rw [Bool.not_eq_true, List.any_eq_false]
    intro group listed
    have whole := placed.each group listed
    simp only [Bool.or_eq_true, decide_eq_true_eq, List.any_eq_true, not_or, not_exists, not_and]
    refine ⟨whole.length.le.not_gt, ?_⟩
    intro agent member
    exact (whole.within agent member).not_ge

/-- The counts of a concrete placement satisfy the constraints. -/
theorem Concrete.feasible {assignmentCount : Nat → Nat → Nat → Nat} {primaryMember : Nat → Nat → Nat → Bool}
    {primaryLayerCount : Nat → Nat} {placement : Nat → Nat → List Nat}
    (concrete : Concrete problem assignmentCount primaryMember primaryLayerCount placement) :
    Feasible problem
      { assignmentCount, primaryMember, primaryLayerCount,
        primaryAssignmentCount := fun classIndex agent rank =>
          match problem.classes[classIndex]? with
          | some layerClass => primaryLayerCount classIndex * (primaryMember layerClass.modelIndex agent rank).toNat
          | none => 0 } := by
  refine ⟨?_, ?_, concrete.reused⟩
  · intro classIndex layerClass listed
    obtain ⟨model, owner, ranks, -, -, within⟩ := exists_model listed
    obtain ⟨primary, group, reused⟩ := concrete.primary _ model owner
    rw [← ranks] at group
    have placed : ClassPlaced problem.ffnagentCount layerClass.rankRows.length layerClass.layerIndices.length
        (assignmentCount classIndex) (primaryMember layerClass.modelIndex) (primaryLayerCount classIndex)
        (layerClass.layerIndices.map (placement layerClass.modelIndex)) := by
      refine ⟨List.length_map _, ?_, concrete.counts classIndex layerClass listed, primary, group,
        reused classIndex layerClass listed rfl⟩
      intro other member
      obtain ⟨layer, here, rfl⟩ := List.mem_map.mp member
      rw [ranks]
      exact concrete.groups _ model owner layer (within layer here)
    simp only [listed]
    exact placed.feasible
  · intro modelIndex model owner
    obtain ⟨primary, group, -⟩ := concrete.primary modelIndex model owner
    exact group.members

end Decompose

/-- Counts satisfy the assignment and primary-group constraints just where a concrete
placement has them, and every feasible solution is taken apart, with an exact maximum
flow, into such a placement, which the audit after the solve accepts. -/
theorem placement_exact {ρ : Type} [DecidableEq ρ] (problem : Problem ρ) :
    (∀ assignmentCount primaryMember primaryLayerCount,
      (∃ solution, Feasible problem solution ∧ solution.assignmentCount = assignmentCount ∧
          solution.primaryMember = primaryMember ∧ solution.primaryLayerCount = primaryLayerCount) ↔
        ∃ placement, Concrete problem assignmentCount primaryMember primaryLayerCount placement) ∧
      ∀ {σ : Type} [ToString σ] (solve : List (Arc Nat) → Nat → Nat → Except σ Nat), ExactMaxFlow solve →
        ∀ solution, Feasible problem solution →
          ∃ groups, decompose solve problem solution = .ok groups ∧ audit problem solution groups = .ok () ∧
            ∃ placement, (∀ (modelIndex : Nat) model, problem.models[modelIndex]? = some model →
                ∀ layer < model.layers.length, groups (modelIndex, layer) = some (placement modelIndex layer)) ∧
              Concrete problem solution.assignmentCount solution.primaryMember solution.primaryLayerCount placement := by
  constructor
  · intro assignmentCount primaryMember primaryLayerCount
    constructor
    · rintro ⟨solution, feasible, rfl, rfl, rfl⟩
      obtain ⟨groups, -, stored⟩ := feasible.decompose_ok (Lib.maxFlow_exact String)
      exact ⟨placementOf groups, feasible.concrete stored⟩
    · rintro ⟨placement, concrete⟩
      exact ⟨_, concrete.feasible, rfl, rfl, rfl⟩
  · intro σ _ solve exact' solution feasible
    obtain ⟨groups, decomposed, stored⟩ := feasible.decompose_ok exact'
    refine ⟨groups, decomposed, audit_ok stored, placementOf groups, ?_, feasible.concrete stored⟩
    intro modelIndex model owner layer inside
    obtain ⟨layerClass, member, rfl, here⟩ := Problem.exists_class owner inside
    obtain ⟨classIndex, listed⟩ := List.mem_iff_getElem?.mp member
    obtain ⟨chosen, -, same⟩ := stored classIndex layerClass listed
    have present : groups (layerClass.modelIndex, layer) ∈ chosen.map some := by
      rw [← same]
      exact List.mem_map_of_mem here
    obtain ⟨group, -, found⟩ := List.mem_map.mp present
    rw [placementOf, ← found]
    rfl

/-- Two layers of one class over three FfnAgents. -/
def twoLayers : Problem Unit where
  ffnagentCount := 3
  models := [{ tpSize := 2, layers := [[(), ()], [(), ()]], ranked := by decide, rows := by decide }]
  fits := by decide

/-- One layer stays with FfnAgents 0 and 1, the other goes to 1 and 2. -/
def twoLayersSolved : Solution where
  assignmentCount _ agent rank := if agent = rank ∨ agent = rank + 1 then 1 else 0
  primaryMember _ agent rank := agent == rank
  primaryLayerCount _ := 1
  primaryAssignmentCount _ agent rank := if agent = rank then 1 else 0

theorem twoLayersSolved_feasible : Feasible twoLayers twoLayersSolved := by
  have classes : twoLayers.classes = [⟨0, [0, 1], [(), ()]⟩] := rfl
  constructor
  · intro classIndex layerClass listed
    rw [classes, List.getElem?_singleton] at listed
    split at listed
    · rename_i first
      obtain rfl := Option.some.inj listed
      subst first
      constructor <;> decide
    · cases listed
  · intro modelIndex model owner
    rw [twoLayers, List.getElem?_singleton] at owner
    split at owner
    · rename_i first
      obtain rfl := Option.some.inj owner
      subst first
      constructor <;> decide
    · cases owner
  · intro modelIndex inside
    obtain rfl : modelIndex = 0 := by
      simpa [twoLayers] using inside
    decide

theorem placement_exact_twoLayers :
    ∃ groups, decompose (Lib.maxFlow String) twoLayers twoLayersSolved = .ok groups ∧
      audit twoLayers twoLayersSolved groups = .ok () := by
  obtain ⟨groups, decomposed, audited, -⟩ := (placement_exact twoLayers).2 (Lib.maxFlow String) (Lib.maxFlow_exact String)
    twoLayersSolved twoLayersSolved_feasible
  exact ⟨groups, decomposed, audited⟩

end CrossPool.Placement
