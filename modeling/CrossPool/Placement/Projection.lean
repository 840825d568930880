import CrossPool.Lib.Loops
import CrossPool.Lib.Matching
import Mathlib.Algebra.BigOperators.Fin
import Mathlib.Algebra.BigOperators.Intervals
import Mathlib.Data.List.GetD

/-!
# Projection of assignment counts

Counts of layers by TP rank and FfnAgent become ordered TP groups. Dummy ranks turn
the counts into a regular square; every perfect matching along nonzero counts names one
group, and the first such matching in lexicographic order is taken out until nothing is
left. Regularity, kept by every matching taken out, is what the matchings come from.
-/

namespace CrossPool.Placement

open Lib (Arc ExactMaxFlow)

/-- The number of layers by TP rank and FfnAgent. -/
abbrev Counts : Type := Nat → Nat → Int

variable {σ : Type} [ToString σ]

/-- Whether one exact matching extends the fixed agents of the first ranks. -/
def perfectMatchingExists (solve : List (Arc Nat) → Nat → Nat → Except σ Nat) (size : Nat) (counts : Counts)
    (taken : List Nat) : Except String Bool :=
  if ¬taken.Nodup then .ok false
  else if taken.zipIdx.any fun (agent, rank) => counts rank agent == 0 then .ok false
  else
    let remainingAgents := (List.finRange size).filter fun agent => agent.val ∉ taken
    if remainingAgents.isEmpty then .ok true
    else
      let source := 0
      let rankBegin := 1
      let agentBegin := rankBegin + size
      let sink := agentBegin + size
      let arcs := Lib.bipartite source sink (fun rank : Fin size => rankBegin + rank.val)
        (fun agent : Fin size => agentBegin + agent.val) (fun rank agent => counts rank agent != 0)
        ((List.finRange size).drop taken.length) remainingAgents
      match solve arcs source sink with
      | .error status => .error s!"FFN Placement matching flow returned status {status}"
      | .ok flow => .ok (flow == remainingAgents.length)

/-- What every FfnAgent lacks to the degree. -/
def deficitsOf (tpSize ffnagentCount : Nat) (counts : Counts) (degree : Int) : List Int :=
  (List.range ffnagentCount).map fun agent => degree - ∑ rank ∈ Finset.range tpSize, counts rank agent

/-- One dummy rank over the deficits: its counts, what found no room, the deficits left. -/
def fillRow (remaining : Int) : List Int → List Int × Int × List Int
  | [] => ([], remaining, [])
  | deficit :: deficits =>
    let assigned := min remaining deficit
    let (row, left, rest) := fillRow (remaining - assigned) deficits
    (assigned :: row, left, (deficit - assigned) :: rest)

/-- The dummy ranks with the deficits they leave. -/
def dummyRows (degree : Int) : Nat → List Int → Except String (List (List Int) × List Int)
  | 0, deficits => .ok ([], deficits)
  | missing + 1, deficits => do
    let (row, remaining, deficits) := fillRow degree deficits
    if remaining ≠ 0 then throw "FFN Placement dummy-edge regularization failed"
    let (rows, deficits) ← dummyRows degree missing deficits
    return (row :: rows, deficits)

/-- The counts with the dummy ranks below them. -/
def appendRows (tpSize : Nat) (counts : Counts) (rows : List (List Int)) : Counts := fun rank agent =>
  if rank < tpSize then counts rank agent else (rows.getD (rank - tpSize) []).getD agent 0

/-- The first agent that the matching goes on with at one rank. -/
def extendMatching (solve : List (Arc Nat) → Nat → Nat → Except σ Nat) (size : Nat) (residual : Counts)
    (taken : List Nat) (rank : Nat) : Except String (List Nat) := do
  match ← (List.range size).findM? fun agent => perfectMatchingExists solve size residual (taken ++ [agent]) with
  | some agent => return taken ++ [agent]
  | none => throw s!"FFN Placement has no matching extension at rank {rank}"

/-- The lexicographically first perfect matching. -/
def firstMatching (solve : List (Arc Nat) → Nat → Nat → Except σ Nat) (size : Nat) (residual : Counts) :
    Except String (List Nat) :=
  (List.range size).foldlM (extendMatching solve size residual) []

/-- The counts without one matching. -/
def peel (residual : Counts) (chosen : List Nat) : Counts := fun rank agent =>
  if chosen[rank]? = some agent then residual rank agent - 1 else residual rank agent

/-- Take out the first perfect matching, whose first ranks are the next group. -/
def peelGroup (solve : List (Arc Nat) → Nat → Nat → Except σ Nat) (tpSize ffnagentCount : Nat)
    (peeled : List (List Nat) × Counts) (_round : Nat) : Except String (List (List Nat) × Counts) := do
  let (groups, residual) := peeled
  let chosen ← firstMatching solve ffnagentCount residual
  return (groups ++ [chosen.take tpSize], peel residual chosen)

/-- Decompose one rank-by-FfnAgent count matrix into ordered TP groups. -/
def projectAssignmentCounts (solve : List (Arc Nat) → Nat → Nat → Except σ Nat) (tpSize ffnagentCount : Nat)
    (counts : Counts) : Except String (List (List Nat)) := do
  let degree := ∑ agent ∈ Finset.range ffnagentCount, counts 0 agent
  if tpSize > ffnagentCount ∨ ∃ rank ∈ List.range tpSize, ∑ agent ∈ Finset.range ffnagentCount, counts rank agent ≠ degree then
    throw "FFN Placement aggregate counts are not rank regular"
  let deficits := deficitsOf tpSize ffnagentCount counts degree
  if ∃ deficit ∈ deficits, deficit < 0 then throw "FFN Placement aggregate counts cannot be regularized"
  let (rows, deficits) ← dummyRows degree (ffnagentCount - tpSize) deficits
  let residual := appendRows tpSize counts rows
  if (∃ deficit ∈ deficits, deficit ≠ 0) ∨
      ∃ rank ∈ List.range ffnagentCount, ∑ agent ∈ Finset.range ffnagentCount, residual rank agent ≠ degree then
    throw "FFN Placement regularized graph has invalid degree"
  let (groups, residual) ← (List.range degree.toNat).foldlM (peelGroup solve tpSize ffnagentCount) ([], residual)
  if ∃ rank ∈ List.range ffnagentCount, ∃ agent ∈ List.range ffnagentCount, residual rank agent ≠ 0 then
    throw "FFN Placement matching projection left residual edges"
  return groups

/-! ## Perfect matchings -/

/-- One agent for every rank, all different, along counts that are not zero. -/
structure Perfect (size : Nat) (counts : Counts) (whole : List Nat) : Prop where
  length : whole.length = size
  within : ∀ agent ∈ whole, agent < size
  distinct : whole.Nodup
  joined : ∀ rank agent, whole[rank]? = some agent → counts rank agent ≠ 0

/-- The fixed agents begin a perfect matching. -/
def Extends (size : Nat) (counts : Counts) (taken : List Nat) : Prop := ∃ whole, Perfect size counts whole ∧ taken <+: whole

variable {size : Nat} {counts residual : Counts} {taken whole : List Nat}
  {solve : List (Arc Nat) → Nat → Nat → Except σ Nat}

/-- The agents of a network's nodes that are still free. -/
def freeAgents (size : Nat) (taken : List Nat) : List (Fin size) :=
  (List.finRange size).filter fun agent => agent.val ∉ taken

theorem mem_freeAgents {agent : Fin size} : agent ∈ freeAgents size taken ↔ agent.val ∉ taken := by
  simp [freeAgents]

theorem freeAgents_nodup : (freeAgents size taken).Nodup := (List.nodup_finRange size).filter _

theorem freeAgents_length (distinct : taken.Nodup) (within : ∀ agent ∈ taken, agent < size) :
    (freeAgents size taken).length + taken.length = size := by
  have split := (List.finRange size).length_eq_length_filter_add fun agent => decide (agent.val ∉ taken)
  have fixed : ((List.finRange size).filter fun agent => !decide (agent.val ∉ taken)).length = taken.length := by
    have same : (((List.finRange size).filter fun agent => !decide (agent.val ∉ taken)).map Fin.val).Perm taken := by
      rw [List.perm_ext_iff_of_nodup (((List.nodup_finRange size).filter _).map Fin.val_injective) distinct]
      intro agent
      simp only [List.mem_map, List.mem_filter, List.mem_finRange, true_and]
      constructor
      · rintro ⟨agent, member, rfl⟩
        simpa using member
      · intro member
        exact ⟨⟨agent, within agent member⟩, by simpa using member, rfl⟩
    rw [← same.length_eq, List.length_map]
  rw [List.length_finRange] at split
  rw [freeAgents]
  omega

theorem mem_unfixed {rank : Fin size} : rank ∈ (List.finRange size).drop taken.length ↔ taken.length ≤ rank.val := by
  rw [List.mem_drop_iff_getElem]
  constructor
  · rintro ⟨index, small, rfl⟩
    simp
  · intro later
    refine ⟨rank.val - taken.length, by simp; omega, ?_⟩
    apply Fin.ext
    simp
    omega

theorem apart_network : Lib.Apart 0 (1 + size + size) (fun rank : Fin size => 1 + rank.val)
    (fun agent : Fin size => 1 + size + agent.val) := by
  constructor
  · omega
  · intro rank rank' same
    exact Fin.ext (by simpa using same)
  · intro agent agent' same
    exact Fin.ext (by simpa using same)
  all_goals intros; omega

/-- A matching of the free ranks and agents completes the fixed ones. -/
theorem Extends.of_matches {mate : Fin size → Fin size} (distinct : taken.Nodup) (within : ∀ agent ∈ taken, agent < size)
    (short : taken.length ≤ size) (fixed : ∀ rank agent, taken[rank]? = some agent → counts rank agent ≠ 0)
    (matching : Lib.Matches (fun rank agent => counts rank.val agent.val != 0) ((List.finRange size).drop taken.length)
      (freeAgents size taken) mate) : Extends size counts taken := by
  refine ⟨taken ++ ((List.finRange size).drop taken.length).map fun rank => (mate rank).val, ⟨?_, ?_, ?_, ?_⟩, by simp⟩
  · simp
    omega
  · intro agent member
    rcases List.mem_append.mp member with member | member
    · exact within agent member
    · obtain ⟨rank, -, rfl⟩ := List.mem_map.mp member
      exact (mate rank).isLt
  · rw [List.nodup_append]
    refine ⟨distinct, ?_, ?_⟩
    · apply List.Nodup.map_on _ ((List.nodup_finRange size).sublist (List.drop_sublist _ _))
      intro rank member rank' member' same
      exact matching.apart rank member rank' member' (Fin.ext same)
    · intro agent member other member' same
      obtain ⟨rank, free, rfl⟩ := List.mem_map.mp member'
      exact mem_freeAgents.mp (matching.listed rank free) (same ▸ member)
  · intro rank agent read
    by_cases early : rank < taken.length
    · rw [List.getElem?_append_left early] at read
      exact fixed rank agent read
    · rw [List.getElem?_append_right (by omega), List.getElem?_map] at read
      obtain ⟨node, found, rfl⟩ := Option.map_eq_some_iff.mp read
      rw [List.getElem?_drop] at found
      obtain ⟨small, rfl⟩ := List.getElem?_eq_some_iff.mp found
      have free := mem_unfixed.mpr (show taken.length ≤ ((List.finRange size)[taken.length + (rank - taken.length)]).val by
        simp)
      have joined := matching.joined _ free
      rw [bne_iff_ne] at joined
      simpa [show taken.length + (rank - taken.length) = rank by omega] using joined

/-- A perfect matching that begins with the fixed agents matches the others. -/
theorem Extends.matches (extends' : Extends size counts taken) :
    ∃ mate, Lib.Matches (fun rank agent => counts rank.val agent.val != 0) ((List.finRange size).drop taken.length)
      (freeAgents size taken) mate := by
  obtain ⟨whole, perfect, rest, rfl⟩ := extends'
  have long (rank : Fin size) : rank.val < (taken ++ rest).length := by
    rw [perfect.length]
    exact rank.isLt
  refine ⟨fun rank => ⟨(taken ++ rest).get ⟨rank, long rank⟩, perfect.within _ (List.get_mem _ _)⟩, ?_, ?_, ?_⟩
  · intro rank free
    have later := mem_unfixed.mp free
    rw [mem_freeAgents]
    intro member
    have member' : (taken ++ rest).get ⟨rank, long rank⟩ ∈ rest := by
      rw [List.get_eq_getElem, List.getElem_append_right later]
      exact List.getElem_mem _
    exact (List.nodup_append.mp perfect.distinct).2.2 _ member _ member' rfl
  · intro rank _
    rw [bne_iff_ne]
    exact perfect.joined rank.val _ (List.getElem?_eq_getElem (long rank))
  · intro rank _ rank' _ same
    exact Fin.ext ((List.Nodup.getElem_inj_iff perfect.distinct).mp (Fin.mk.inj same))

/-- With an exact solver, the question is answered. -/
theorem perfectMatchingExists_eq [Decidable (Extends size counts taken)] (exact' : ExactMaxFlow solve)
    (within : ∀ agent ∈ taken, agent < size) (short : taken.length ≤ size) :
    perfectMatchingExists solve size counts taken = .ok (decide (Extends size counts taken)) := by
  rw [perfectMatchingExists]
  by_cases distinct : taken.Nodup
  · rw [if_neg (not_not_intro distinct)]
    by_cases fixed : ∀ rank agent, taken[rank]? = some agent → counts rank agent ≠ 0
    · rw [if_neg]
      · have count := freeAgents_length distinct within
        change (if (freeAgents size taken).isEmpty then _ else _) = _
        split
        · rename_i none
          rw [List.isEmpty_iff] at none
          rw [none, List.length_nil] at count
          rw [decide_eq_true]
          exact ⟨taken, ⟨by omega, within, distinct, fixed⟩, List.prefix_rfl⟩
        · rename_i some
          obtain ⟨agent, -⟩ := List.exists_mem_of_ne_nil _ (fun none => some (List.isEmpty_iff.mpr none))
          have inhabited : Inhabited (Fin size) := ⟨agent⟩
          obtain ⟨flow, solved, full⟩ : ∃ flow, solve (Lib.bipartite 0 (1 + size + size)
              (fun rank : Fin size => 1 + rank.val) (fun agent : Fin size => 1 + size + agent.val)
              (fun rank agent => counts rank.val agent.val != 0) ((List.finRange size).drop taken.length)
              (freeAgents size taken)) 0 (1 + size + size) = .ok flow ∧ (flow = _ ↔ ∃ mate, Lib.Matches _ _ _ mate) :=
            exact'.bipartite apart_network ((List.nodup_finRange size).sublist (List.drop_sublist taken.length _))
              freeAgents_nodup
          have sides : ((List.finRange size).drop taken.length).length = (freeAgents size taken).length := by
            rw [List.length_drop, List.length_finRange]
            omega
          change (match solve (Lib.bipartite 0 (1 + size + size) _ _ _ _ (freeAgents size taken)) 0 (1 + size + size) with
            | .error _ => _
            | .ok flow => Except.ok (flow == (freeAgents size taken).length)) = _
          rw [solved]
          apply congrArg Except.ok
          rw [beq_eq_decide, ← sides]
          apply decide_eq_decide.mpr
          rw [full]
          constructor
          · rintro ⟨mate, matching⟩
            exact .of_matches distinct within short fixed matching
          · exact Extends.matches
      · rw [List.any_eq_true]
        rintro ⟨⟨agent, rank⟩, member, zero⟩
        rw [List.mk_mem_zipIdx_iff_getElem?] at member
        exact fixed rank agent member (beq_iff_eq.mp zero)
    · push Not at fixed
      obtain ⟨rank, agent, read, zero⟩ := fixed
      rw [if_pos, decide_eq_false]
      · rintro ⟨whole, perfect, rest, rfl⟩
        refine perfect.joined rank agent ?_ zero
        rw [List.getElem?_append_left (List.getElem?_eq_some_iff.mp read).1, read]
      · rw [List.any_eq_true]
        exact ⟨⟨agent, rank⟩, List.mk_mem_zipIdx_iff_getElem?.mpr read, beq_iff_eq.mpr zero⟩
  · rw [if_pos distinct, decide_eq_false]
    rintro ⟨whole, perfect, begins⟩
    exact distinct (perfect.distinct.sublist begins.sublist)

theorem Extends.within (extends' : Extends size counts taken) : ∀ agent ∈ taken, agent < size := by
  obtain ⟨whole, perfect, begins⟩ := extends'
  exact fun agent member => perfect.within agent (begins.subset member)

/-- What begins a perfect matching and is not all of it goes on with some agent. -/
theorem Extends.next (extends' : Extends size counts taken) (short : taken.length < size) :
    ∃ agent < size, Extends size counts (taken ++ [agent]) := by
  obtain ⟨whole, perfect, rest, rfl⟩ := extends'
  cases rest with
  | nil =>
    rw [List.append_nil] at perfect
    exact absurd perfect.length (by omega)
  | cons agent rest =>
    refine ⟨agent, perfect.within agent (by simp), taken ++ agent :: rest, perfect, rest, ?_⟩
    rw [List.append_assoc, List.singleton_append]

/-- No locally small choice is a trap: the search ends with a perfect matching. -/
theorem firstMatching_ok (exact' : ExactMaxFlow solve) (start : Extends size residual []) :
    ∃ whole, firstMatching solve size residual = .ok whole ∧ Perfect size residual whole := by
  classical
  have step : ∀ rank < size, ∀ taken, taken.length = rank ∧ Extends size residual taken →
      ∃ next, extendMatching solve size residual taken rank = .ok next ∧
        next.length = rank + 1 ∧ Extends size residual next := by
    rintro rank small taken ⟨rfl, extends'⟩
    have answers : ∀ agent ∈ List.range size, perfectMatchingExists solve size residual (taken ++ [agent]) =
        .ok (decide (Extends size residual (taken ++ [agent]))) := by
      intro agent member
      apply perfectMatchingExists_eq exact'
      · intro other inside
        rcases List.mem_append.mp inside with inside | inside
        · exact extends'.within other inside
        · rw [List.mem_singleton.mp inside]
          exact List.mem_range.mp member
      · rw [List.length_append, List.length_singleton]
        omega
    obtain ⟨agent, inside, goes⟩ := extends'.next small
    have hit : ((List.range size).find? fun agent => decide (Extends size residual (taken ++ [agent]))).isSome := by
      rw [List.find?_isSome]
      exact ⟨agent, List.mem_range.mpr inside, decide_eq_true goes⟩
    obtain ⟨chosen, first⟩ := Option.isSome_iff_exists.mp hit
    refine ⟨taken ++ [chosen], ?_, by simp, ?_⟩
    · rw [extendMatching, Lib.findM?_ok answers, first]
      rfl
    · have chosen' := List.find?_some first
      exact of_decide_eq_true chosen'
  obtain ⟨taken, found, long, whole, perfect, begins⟩ := Lib.foldlM_range_ok _ ⟨List.length_nil, start⟩ step
  refine ⟨taken, found, ?_⟩
  rwa [begins.eq_of_length (long.trans perfect.length.symm)]

/-! ## Regular counts -/

/-- Counts that are nowhere negative, with every row and column sum the degree. -/
structure Regular (size : Nat) (counts : Counts) (degree : Int) : Prop where
  nonneg : ∀ rank < size, ∀ agent < size, 0 ≤ counts rank agent
  rows : ∀ rank < size, ∑ agent ∈ Finset.range size, counts rank agent = degree
  columns : ∀ agent < size, ∑ rank ∈ Finset.range size, counts rank agent = degree

variable {degree : Int}

/-- Regular counts hold a perfect matching until nothing is left. -/
theorem Regular.extends (regular : Regular size counts degree) (positive : 0 < degree) : Extends size counts [] := by
  obtain ⟨mate, injective, joined⟩ : ∃ mate : Fin size → Fin size, Function.Injective mate ∧
      ∀ rank, counts rank.val (mate rank).val ≠ 0 := by
    have rows (rank : Fin size) : ∑ agent : Fin size, counts rank.val agent.val = degree := by
      rw [← regular.rows rank rank.isLt, Finset.sum_range]
    have columns (agent : Fin size) : ∑ rank : Fin size, counts rank.val agent.val ≤ degree := by
      rw [← regular.columns agent agent.isLt, Finset.sum_range]
    have nonneg (rank agent : Fin size) := regular.nonneg rank rank.isLt agent agent.isLt
    exact Lib.exists_mates positive nonneg rows columns
  refine ⟨(List.finRange size).map fun rank => (mate rank).val, ⟨?_, ?_, ?_, ?_⟩, List.nil_prefix⟩
  · simp
  · intro agent member
    obtain ⟨rank, -, rfl⟩ := List.mem_map.mp member
    exact (mate rank).isLt
  · exact (List.nodup_finRange size).map fun rank rank' same => injective (Fin.ext same)
  · intro rank agent read
    rw [List.getElem?_map] at read
    obtain ⟨node, found, rfl⟩ := Option.map_eq_some_iff.mp read
    obtain ⟨small, rfl⟩ := List.getElem?_eq_some_iff.mp found
    simpa using joined ((List.finRange size).get ⟨rank, small⟩)

/-- Regular counts of degree zero are zero. -/
theorem Regular.zero (regular : Regular size counts 0) {rank agent : Nat} (small : rank < size) (inside : agent < size) :
    counts rank agent = 0 := by
  have zeros := (Finset.sum_eq_zero_iff_of_nonneg fun other member =>
    regular.nonneg rank small other (Finset.mem_range.mp member)).mp (regular.rows rank small)
  exact zeros agent (Finset.mem_range.mpr inside)

/-- How often an agent stands at a place of a list is its count there. -/
theorem sum_places (whole : List Nat) (agent : Nat) :
    ∑ rank ∈ Finset.range whole.length, (if whole[rank]? = some agent then 1 else 0 : Int) = whole.count agent := by
  induction whole with
  | nil => rfl
  | cons first rest ih =>
    rw [List.length_cons, Finset.sum_range_succ', List.count_cons]
    simp only [List.getElem?_cons_succ, List.getElem?_cons_zero, Option.some.injEq, ih, beq_iff_eq]
    split <;> simp

/-- A perfect matching takes one from every row and column. -/
theorem Regular.peel (regular : Regular size counts degree) (perfect : Perfect size counts whole) :
    Regular size (peel counts whole) (degree - 1) := by
  have place {rank : Nat} (small : rank < size) : ∃ agent < size, whole[rank]? = some agent := by
    rw [← perfect.length] at small
    exact ⟨_, perfect.within _ (List.getElem_mem small), List.getElem?_eq_getElem small⟩
  have taken (rank agent : Nat) : Placement.peel counts whole rank agent =
      counts rank agent - if whole[rank]? = some agent then 1 else 0 := by
    rw [Placement.peel]
    split <;> simp
  constructor
  · intro rank small agent inside
    have before := regular.nonneg rank small agent inside
    rw [Placement.peel]
    split
    · rename_i here
      have joined := perfect.joined rank agent here
      omega
    · exact before
  · intro rank small
    obtain ⟨mate, inside, here⟩ := place small
    simp only [taken, Finset.sum_sub_distrib, regular.rows rank small, here, Option.some.injEq]
    rw [Finset.sum_ite_eq, if_pos (Finset.mem_range.mpr inside)]
  · intro agent inside
    simp only [taken, Finset.sum_sub_distrib, regular.columns agent inside]
    have everyone : whole.Perm (List.range size) := by
      apply List.Subperm.perm_of_length_le
      · apply perfect.distinct.subperm
        intro other member
        exact List.mem_range.mpr (perfect.within other member)
      · rw [List.length_range, perfect.length]
    rw [← perfect.length, sum_places, everyone.count_eq, List.count_eq_one_of_mem List.nodup_range (List.mem_range.mpr inside)]
    rfl

/-! ## Dummy ranks -/

/-- What a dummy rank takes is what the deficits lose, and it is filled when they suffice. -/
structure Filled (remaining : Int) (deficits row : List Int) (left : Int) (rest : List Int) : Prop where
  width : row.length = deficits.length
  rest_width : rest.length = deficits.length
  taken : row.sum + left = remaining
  nonneg : ∀ assigned ∈ row, 0 ≤ assigned
  rest_nonneg : ∀ deficit ∈ rest, 0 ≤ deficit
  split : ∀ agent, row.getD agent 0 + rest.getD agent 0 = deficits.getD agent 0
  total : row.sum + rest.sum = deficits.sum
  full : remaining ≤ deficits.sum → left = 0

theorem fillRow_filled {remaining : Int} {deficits : List Int} (some : 0 ≤ remaining)
    (nonneg : ∀ deficit ∈ deficits, 0 ≤ deficit) :
    Filled remaining deficits (fillRow remaining deficits).1 (fillRow remaining deficits).2.1
      (fillRow remaining deficits).2.2 := by
  induction deficits generalizing remaining with
  | nil =>
    refine ⟨rfl, rfl, ?_, ?_, ?_, fun _ => rfl, rfl, ?_⟩
    · simp [fillRow]
    · simp [fillRow]
    · simp [fillRow]
    · intro none
      simp only [List.sum_nil] at none
      exact Int.le_antisymm none some
  | cons deficit deficits ih =>
    have here := nonneg deficit List.mem_cons_self
    have filled := ih (show 0 ≤ remaining - min remaining deficit by omega)
      fun other member => nonneg other (List.mem_cons_of_mem deficit member)
    rw [fillRow]
    generalize fillRow (remaining - min remaining deficit) deficits = outcome at filled ⊢
    obtain ⟨row, left, rest⟩ := outcome
    dsimp only at filled ⊢
    refine ⟨?_, ?_, ?_, ?_, ?_, ?_, ?_, ?_⟩
    · rw [List.length_cons, filled.width, List.length_cons]
    · rw [List.length_cons, filled.rest_width, List.length_cons]
    · have taken := filled.taken
      rw [List.sum_cons]
      omega
    · intro assigned member
      rcases List.mem_cons.mp member with rfl | member
      · omega
      · exact filled.nonneg assigned member
    · intro other member
      rcases List.mem_cons.mp member with rfl | member
      · omega
      · exact filled.rest_nonneg other member
    · intro agent
      cases agent with
      | zero =>
        simp only [List.getD_cons_zero]
        omega
      | succ agent =>
        simp only [List.getD_cons_succ]
        exact filled.split agent
    · have total := filled.total
      simp only [List.sum_cons]
      omega
    · intro enough
      rw [List.sum_cons] at enough
      by_cases last : remaining ≤ deficit
      · have taken := filled.taken
        have none := List.sum_nonneg filled.nonneg
        have rest := List.sum_nonneg filled.rest_nonneg
        have total := filled.total
        apply filled.full
        omega
      · apply filled.full
        omega

/-- The dummy ranks that the deficits are made of. -/
structure Padded (degree : Int) (missing : Nat) (deficits : List Int) (rows : List (List Int)) (rest : List Int) : Prop where
  height : rows.length = missing
  width : ∀ row ∈ rows, row.length = deficits.length
  nonneg : ∀ row ∈ rows, ∀ assigned ∈ row, 0 ≤ assigned
  degrees : ∀ row ∈ rows, row.sum = degree
  rest_zero : ∀ deficit ∈ rest, deficit = 0
  split : ∀ agent, (rows.map fun row => row.getD agent 0).sum = deficits.getD agent 0

/-- Deficits that add up to the missing ranks' degrees become dummy ranks. -/
theorem dummyRows_padded {missing : Nat} {deficits : List Int} (some : 0 ≤ degree)
    (nonneg : ∀ deficit ∈ deficits, 0 ≤ deficit) (total : deficits.sum = missing * degree) :
    ∃ rows rest, dummyRows degree missing deficits = .ok (rows, rest) ∧ Padded degree missing deficits rows rest := by
  induction missing generalizing deficits with
  | zero =>
    simp only [Nat.cast_zero, zero_mul] at total
    have zeros : ∀ deficit ∈ deficits, deficit = 0 := by
      intro deficit member
      have most := List.single_le_sum nonneg deficit member
      have least := nonneg deficit member
      omega
    refine ⟨[], deficits, rfl, ⟨rfl, by simp, by simp, by simp, zeros, ?_⟩⟩
    intro agent
    rw [List.map_nil, List.sum_nil, List.getD_eq_getElem?_getD]
    cases read : deficits[agent]? with
    | none => rfl
    | some deficit => exact (zeros deficit (List.mem_of_getElem? read)).symm
  | succ missing ih =>
    have filled := fillRow_filled some nonneg
    rw [dummyRows]
    generalize fillRow degree deficits = outcome at filled ⊢
    obtain ⟨row, left, rest⟩ := outcome
    have split : ((missing + 1 : Nat) : Int) * degree = missing * degree + degree := by
      push_cast
      exact add_one_mul _ _
    have rounds : 0 ≤ (missing : Int) * degree := Int.mul_nonneg (Int.natCast_nonneg missing) some
    have full := filled.full (by omega)
    have whole := filled.taken
    have left' := filled.total
    dsimp only at full whole left'
    obtain ⟨rows, last, made, padded⟩ := ih filled.rest_nonneg (by dsimp only; omega)
    refine ⟨row :: rows, last, ?_, ?_⟩
    · simp only [full, ne_eq, not_true_eq_false, if_false, made]
      rfl
    · constructor
      · rw [List.length_cons, padded.height]
      · intro other member
        rcases List.mem_cons.mp member with rfl | member
        · exact filled.width
        · rw [padded.width other member]
          exact filled.rest_width
      · intro other member
        rcases List.mem_cons.mp member with rfl | member
        · exact filled.nonneg
        · exact padded.nonneg other member
      · intro other member
        rcases List.mem_cons.mp member with rfl | member
        · omega
        · exact padded.degrees other member
      · exact padded.rest_zero
      · intro agent
        rw [List.map_cons, List.sum_cons, padded.split agent]
        exact filled.split agent

/-! ## The projection -/

/-- An ordered group of different FfnAgents, one for each TP rank. -/
structure Group (tpSize ffnagentCount : Nat) (group : List Nat) : Prop where
  length : group.length = tpSize
  within : ∀ agent ∈ group, agent < ffnagentCount
  distinct : group.Nodup

/-- How many groups place the rank on the agent. -/
def placed (groups : List (List Nat)) : Counts := fun rank agent => groups.countP fun group => group[rank]? == some agent

/-- Counts with equal row sums and no larger column sum. -/
structure Projectable (tpSize ffnagentCount : Nat) (counts : Counts) (degree : Int) : Prop where
  ranks : 0 < tpSize
  fits : tpSize ≤ ffnagentCount
  nonneg : ∀ rank < tpSize, ∀ agent < ffnagentCount, 0 ≤ counts rank agent
  rows : ∀ rank < tpSize, ∑ agent ∈ Finset.range ffnagentCount, counts rank agent = degree
  columns : ∀ agent < ffnagentCount, ∑ rank ∈ Finset.range tpSize, counts rank agent ≤ degree

variable {tpSize ffnagentCount : Nat}

theorem Projectable.degree_nonneg (projectable : Projectable tpSize ffnagentCount counts degree) : 0 ≤ degree := by
  rw [← projectable.rows 0 projectable.ranks]
  apply Finset.sum_nonneg
  intro agent member
  exact projectable.nonneg 0 projectable.ranks agent (Finset.mem_range.mp member)

theorem deficitsOf_getD {agent : Nat} (inside : agent < ffnagentCount) :
    (deficitsOf tpSize ffnagentCount counts degree).getD agent 0 =
      degree - ∑ rank ∈ Finset.range tpSize, counts rank agent := by
  rw [List.getD_eq_getElem?_getD, deficitsOf, List.getElem?_map, List.getElem?_range inside]
  rfl

theorem Projectable.deficits_nonneg (projectable : Projectable tpSize ffnagentCount counts degree) :
    ∀ deficit ∈ deficitsOf tpSize ffnagentCount counts degree, 0 ≤ deficit := by
  intro deficit member
  obtain ⟨agent, inside, rfl⟩ := List.mem_map.mp member
  have column := projectable.columns agent (List.mem_range.mp inside)
  omega

/-- The deficits are what the missing ranks need. -/
theorem Projectable.deficits_sum (projectable : Projectable tpSize ffnagentCount counts degree) :
    (deficitsOf tpSize ffnagentCount counts degree).sum = (ffnagentCount - tpSize : Nat) * degree := by
  calc
    (deficitsOf tpSize ffnagentCount counts degree).sum =
        ∑ agent ∈ Finset.range ffnagentCount, (degree - ∑ rank ∈ Finset.range tpSize, counts rank agent) := rfl
    _ = ffnagentCount * degree - ∑ rank ∈ Finset.range tpSize, ∑ agent ∈ Finset.range ffnagentCount, counts rank agent := by
      rw [Finset.sum_sub_distrib, Finset.sum_const, Finset.card_range, nsmul_eq_mul, Finset.sum_comm]
    _ = ffnagentCount * degree - tpSize * degree := by
      rw [Finset.sum_congr rfl fun rank member => projectable.rows rank (Finset.mem_range.mp member), Finset.sum_const,
        Finset.card_range, nsmul_eq_mul]
    _ = (ffnagentCount - tpSize : Nat) * degree := by
      rw [Nat.cast_sub projectable.fits, sub_mul]

theorem sum_getD (row : List Int) : ∑ agent ∈ Finset.range row.length, row.getD agent 0 = row.sum := by
  induction row with
  | nil => rfl
  | cons first rest ih =>
    rw [List.length_cons, Finset.sum_range_succ', List.sum_cons, List.getD_cons_zero]
    simp only [List.getD_cons_succ]
    rw [ih, add_comm]

theorem sum_rows (rows : List (List Int)) (agent : Nat) :
    ∑ rank ∈ Finset.range rows.length, (rows.getD rank []).getD agent 0 = (rows.map fun row => row.getD agent 0).sum := by
  induction rows with
  | nil => rfl
  | cons first rest ih =>
    rw [List.length_cons, Finset.sum_range_succ', List.map_cons, List.sum_cons, List.getD_cons_zero]
    simp only [List.getD_cons_succ]
    rw [ih, add_comm]

/-- With the dummy ranks, the counts are regular. -/
theorem Padded.regular {rows : List (List Int)} {rest : List Int} (projectable : Projectable tpSize ffnagentCount counts degree)
    (padded : Padded degree (ffnagentCount - tpSize) (deficitsOf tpSize ffnagentCount counts degree) rows rest) :
    Regular ffnagentCount (appendRows tpSize counts rows) degree := by
  have dummy {rank : Nat} (small : rank < ffnagentCount) (late : ¬rank < tpSize) : rows.getD (rank - tpSize) [] ∈ rows := by
    have inside : rank - tpSize < rows.length := by
      have fits := projectable.fits
      rw [padded.height]
      omega
    rw [List.getD_eq_getElem _ _ inside]
    exact List.getElem_mem inside
  constructor
  · intro rank small agent inside
    rw [appendRows]
    split
    · rename_i early
      exact projectable.nonneg rank early agent inside
    · rename_i late
      have wide : agent < (rows.getD (rank - tpSize) []).length := by
        rw [padded.width _ (dummy small late), deficitsOf, List.length_map, List.length_range]
        exact inside
      rw [List.getD_eq_getElem _ 0 wide]
      exact padded.nonneg _ (dummy small late) _ (List.getElem_mem wide)
  · intro rank small
    by_cases early : rank < tpSize
    · simp only [appendRows, if_pos early]
      exact projectable.rows rank early
    · have wide : (rows.getD (rank - tpSize) []).length = ffnagentCount := by
        rw [padded.width _ (dummy small early), deficitsOf, List.length_map, List.length_range]
      simp only [appendRows, if_neg early]
      rw [← padded.degrees _ (dummy small early), ← sum_getD, wide]
  · intro agent inside
    have split := Finset.sum_range_add_sum_Ico (fun rank => appendRows tpSize counts rows rank agent) projectable.fits
    rw [← split, Finset.sum_Ico_eq_sum_range]
    have tail : ∑ rank ∈ Finset.range (ffnagentCount - tpSize), appendRows tpSize counts rows (tpSize + rank) agent =
        degree - ∑ rank ∈ Finset.range tpSize, counts rank agent := by
      rw [← deficitsOf_getD inside, ← padded.split agent, ← sum_rows, padded.height]
      apply Finset.sum_congr rfl
      intro rank _
      rw [appendRows, if_neg (by omega), Nat.add_sub_cancel_left]
    have head : ∑ rank ∈ Finset.range tpSize, appendRows tpSize counts rows rank agent =
        ∑ rank ∈ Finset.range tpSize, counts rank agent := by
      apply Finset.sum_congr rfl
      intro rank member
      rw [appendRows, if_pos (Finset.mem_range.mp member)]
    rw [tail, head]
    omega

/-! ## The groups taken out -/

/-- After some rounds: the groups so far, with what is left of the counts. -/
structure Peeled (tpSize ffnagentCount : Nat) (counts : Counts) (degree : Int) (round : Nat)
    (peeled : List (List Nat) × Counts) : Prop where
  length : peeled.1.length = round
  groups : ∀ group ∈ peeled.1, Group tpSize ffnagentCount group
  regular : Regular ffnagentCount peeled.2 (degree - round)
  split : ∀ rank < tpSize, ∀ agent < ffnagentCount, placed peeled.1 rank agent + peeled.2 rank agent = counts rank agent

theorem placed_concat (groups : List (List Nat)) (group : List Nat) (rank agent : Nat) :
    placed (groups ++ [group]) rank agent = placed groups rank agent + if group[rank]? = some agent then 1 else 0 := by
  simp only [placed, List.countP_append, List.countP_singleton, beq_iff_eq]
  split <;> simp

theorem Perfect.group (perfect : Perfect ffnagentCount counts whole) (fits : tpSize ≤ ffnagentCount) :
    Group tpSize ffnagentCount (whole.take tpSize) := by
  constructor
  · rw [List.length_take, perfect.length, Nat.min_eq_left fits]
  · exact fun agent member => perfect.within agent (List.mem_of_mem_take member)
  · exact perfect.distinct.sublist (List.take_sublist _ _)

/-- One more perfect matching makes one more group. -/
theorem Peeled.next {round : Nat} {peeled : List (List Nat) × Counts} (exact' : ExactMaxFlow solve)
    (fits : tpSize ≤ ffnagentCount) (here : Peeled tpSize ffnagentCount counts degree round peeled)
    (more : (round : Int) < degree) :
    ∃ next, peelGroup solve tpSize ffnagentCount peeled round = .ok next ∧
      Peeled tpSize ffnagentCount counts degree (round + 1) next := by
  obtain ⟨groups, residual⟩ := peeled
  obtain ⟨whole, found, perfect⟩ := firstMatching_ok exact' (here.regular.extends (by omega))
  refine ⟨(groups ++ [whole.take tpSize], peel residual whole), ?_, ?_⟩
  · simp only at found
    simp only [peelGroup, found]
    rfl
  · constructor
    · simp [here.length]
    · intro group member
      rcases List.mem_append.mp member with member | member
      · exact here.groups group member
      · rw [List.mem_singleton.mp member]
        exact perfect.group fits
    · have after := here.regular.peel perfect
      rwa [show degree - (round : Int) - 1 = degree - (round + 1 : Nat) by omega] at after
    · intro rank small agent inside
      have before := here.split rank small agent inside
      dsimp only at before ⊢
      rw [placed_concat, List.getElem?_take_of_lt small, peel]
      split <;> omega

/-- Counts that can be projected are, and the groups reproduce them. -/
theorem projectAssignmentCounts_ok (exact' : ExactMaxFlow solve)
    (projectable : Projectable tpSize ffnagentCount counts degree) :
    ∃ groups, projectAssignmentCounts solve tpSize ffnagentCount counts = .ok groups ∧
      groups.length = degree.toNat ∧ (∀ group ∈ groups, Group tpSize ffnagentCount group) ∧
      ∀ rank < tpSize, ∀ agent < ffnagentCount, placed groups rank agent = counts rank agent := by
  have some := projectable.degree_nonneg
  obtain ⟨rows, rest, made, padded⟩ := dummyRows_padded some projectable.deficits_nonneg projectable.deficits_sum
  have regular := padded.regular projectable
  have step : ∀ round < degree.toNat, ∀ peeled, Peeled tpSize ffnagentCount counts degree round peeled →
      ∃ next, peelGroup solve tpSize ffnagentCount peeled round = .ok next ∧
        Peeled tpSize ffnagentCount counts degree (round + 1) next := by
    intro round more peeled here
    exact here.next exact' projectable.fits (by omega)
  have base : Peeled tpSize ffnagentCount counts degree 0 ([], appendRows tpSize counts rows) := by
    constructor
    · rfl
    · simp
    · rwa [Nat.cast_zero, sub_zero]
    · intro rank small agent _
      simp [placed, appendRows, small]
  obtain ⟨⟨groups, residual⟩, folded, done⟩ := Lib.foldlM_range_ok _ base step
  have spent : degree - (degree.toNat : Int) = 0 := by omega
  have last := done.regular
  rw [spent] at last
  refine ⟨groups, ?_, done.length, done.groups, ?_⟩
  · rw [projectAssignmentCounts]
    simp only [projectable.rows 0 projectable.ranks]
    rw [if_neg, if_neg, made]
    · simp only [bind, Except.bind]
      rw [if_neg, folded]
      · dsimp only
        rw [if_neg]
        · rfl
        · rintro ⟨rank, small, agent, inside, left⟩
          exact left (last.zero (List.mem_range.mp small) (List.mem_range.mp inside))
      · rintro (⟨deficit, member, left⟩ | ⟨rank, small, differs⟩)
        · exact left (padded.rest_zero deficit member)
        · exact differs (regular.rows rank (List.mem_range.mp small))
    · rintro ⟨deficit, member, negative⟩
      have least := projectable.deficits_nonneg deficit member
      omega
    · rintro (wide | ⟨rank, small, differs⟩)
      · exact absurd projectable.fits (by omega)
      · exact differs (projectable.rows rank (List.mem_range.mp small))
  · intro rank small agent inside
    have fits := projectable.fits
    rw [← done.split rank small agent inside, last.zero (show rank < ffnagentCount by omega) inside, add_zero]

end CrossPool.Placement
