import Mathlib.Algebra.Order.BigOperators.Group.Finset
import Mathlib.Combinatorics.Hall.Basic
import Mathlib.Data.Fintype.BigOperators
import Mathlib.Tactic.Linarith

/-!
# Flows and matchings

Integral flows through a network of arcs, the unit network of a bipartite graph,
whose full flows are its matchings, and Hall's condition for weights with equal row
sums and no larger column sum.
-/

namespace CrossPool.Lib

/-! ## Flows -/

structure Arc (ν : Type) where
  tail : ν
  head : ν
  capacity : Nat
deriving DecidableEq, Repr

section Flow

variable {ν : Type} [DecidableEq ν]

def outflow (arcs : List (Arc ν)) (flow : Arc ν → Nat) (node : ν) : Nat :=
  ∑ arc ∈ arcs.toFinset.filter fun arc => arc.tail = node, flow arc

def inflow (arcs : List (Arc ν)) (flow : Arc ν → Nat) (node : ν) : Nat :=
  ∑ arc ∈ arcs.toFinset.filter fun arc => arc.head = node, flow arc

/-- The flow keeps to the capacities and is kept at every node but the ends. -/
structure Feasible (arcs : List (Arc ν)) (source sink : ν) (flow : Arc ν → Nat) : Prop where
  within : ∀ arc ∈ arcs, flow arc ≤ arc.capacity
  kept : ∀ node, node ≠ source → node ≠ sink → inflow arcs flow node = outflow arcs flow node

/-- Some flow carries the value from source to sink. -/
def Carries (arcs : List (Arc ν)) (source sink : ν) (value : Nat) : Prop :=
  ∃ flow, Feasible arcs source sink flow ∧ outflow arcs flow source = inflow arcs flow source + value

/-- A solver of networks without parallel arcs that ends optimal, with the largest
value that a flow carries. -/
def ExactMaxFlow {σ : Type} (solve : List (Arc ν) → ν → ν → Except σ Nat) : Prop :=
  ∀ arcs source sink, arcs.Nodup → source ≠ sink →
    ∃ value, solve arcs source sink = .ok value ∧ Carries arcs source sink value ∧
      ∀ other, Carries arcs source sink other → other ≤ value

theorem carries_zero (arcs : List (Arc ν)) (source sink : ν) : Carries arcs source sink 0 := by
  refine ⟨fun _ => 0, ⟨fun _ _ => Nat.zero_le _, fun _ _ _ => ?_⟩, ?_⟩
  · simp [inflow, outflow]
  · simp [inflow, outflow]

theorem carries_le_capacity {arcs : List (Arc ν)} {source sink : ν} {value : Nat}
    (carries : Carries arcs source sink value) : value ≤ ∑ arc ∈ arcs.toFinset, arc.capacity := by
  obtain ⟨flow, feasible, total⟩ := carries
  calc
    value ≤ outflow arcs flow source := by omega
    _ ≤ ∑ arc ∈ arcs.toFinset, flow arc := Finset.sum_le_sum_of_subset (Finset.filter_subset _ _)
    _ ≤ ∑ arc ∈ arcs.toFinset, arc.capacity :=
      Finset.sum_le_sum fun arc member => feasible.within arc (List.mem_toFinset.mp member)

open Classical in
/-- The largest value that a flow carries. -/
noncomputable def maxFlow (σ : Type) (arcs : List (Arc ν)) (source sink : ν) : Except σ Nat :=
  .ok (Nat.findGreatest (Carries arcs source sink) (∑ arc ∈ arcs.toFinset, arc.capacity))

theorem maxFlow_exact (σ : Type) : ExactMaxFlow (@maxFlow ν _ σ) := by
  classical
  intro arcs source sink _ _
  refine ⟨_, rfl, ?_, ?_⟩
  · exact Nat.findGreatest_spec (Nat.zero_le _) (carries_zero arcs source sink)
  · intro other carries
    exact Nat.le_findGreatest (carries_le_capacity carries) carries

end Flow

/-! ## The unit network of a bipartite graph -/

section Bipartite

variable {ν ι κ : Type} [DecidableEq ν]

/-- Unit arcs from the source to the left nodes, along the edges, and from the right
nodes to the sink. -/
def bipartite (source sink : ν) (leftNode : ι → ν) (rightNode : κ → ν) (edge : ι → κ → Bool) (left : List ι)
    (right : List κ) : List (Arc ν) :=
  (left.flatMap fun i => ⟨source, leftNode i, 1⟩ :: (right.filter (edge i)).map fun j => ⟨leftNode i, rightNode j, 1⟩) ++
    right.map fun j => ⟨rightNode j, sink, 1⟩

/-- No two nodes of the network are the same. -/
structure Apart (source sink : ν) (leftNode : ι → ν) (rightNode : κ → ν) : Prop where
  ends : source ≠ sink
  left : Function.Injective leftNode
  right : Function.Injective rightNode
  leftSource : ∀ i, leftNode i ≠ source
  leftSink : ∀ i, leftNode i ≠ sink
  rightSource : ∀ j, rightNode j ≠ source
  rightSink : ∀ j, rightNode j ≠ sink
  sides : ∀ i j, leftNode i ≠ rightNode j

variable {source sink : ν} {leftNode : ι → ν} {rightNode : κ → ν} {edge : ι → κ → Bool} {left : List ι} {right : List κ}
  {flow : Arc ν → Nat} {arc : Arc ν} {i : ι} {j : κ} {value : Nat}

omit [DecidableEq ν] in
theorem mem_bipartite :
    arc ∈ bipartite source sink leftNode rightNode edge left right ↔
      (∃ i ∈ left, arc = ⟨source, leftNode i, 1⟩) ∨
        (∃ i ∈ left, ∃ j ∈ right, edge i j ∧ arc = ⟨leftNode i, rightNode j, 1⟩) ∨
          ∃ j ∈ right, arc = ⟨rightNode j, sink, 1⟩ := by
  simp only [bipartite, List.mem_append, List.mem_flatMap, List.mem_cons, List.mem_map, List.mem_filter]
  constructor
  · rintro (⟨i, member, rfl | ⟨j, ⟨listed, joined⟩, rfl⟩⟩ | ⟨j, listed, rfl⟩)
    · exact .inl ⟨i, member, rfl⟩
    · exact .inr (.inl ⟨i, member, j, listed, joined, rfl⟩)
    · exact .inr (.inr ⟨j, listed, rfl⟩)
  · rintro (⟨i, member, rfl⟩ | ⟨i, member, j, listed, joined, rfl⟩ | ⟨j, listed, rfl⟩)
    · exact .inl ⟨i, member, .inl rfl⟩
    · exact .inl ⟨i, member, .inr ⟨j, ⟨listed, joined⟩, rfl⟩⟩
    · exact .inr ⟨j, listed, rfl⟩

omit [DecidableEq ν] in
theorem bipartite_nodup (apart : Apart source sink leftNode rightNode) (distinct : left.Nodup) (distinct' : right.Nodup) :
    (bipartite source sink leftNode rightNode edge left right).Nodup := by
  rw [bipartite, List.nodup_append]
  refine ⟨?_, ?_, ?_⟩
  · rw [List.nodup_flatMap]
    constructor
    · intro i _
      refine List.nodup_cons.mpr ⟨?_, ?_⟩
      · intro member
        obtain ⟨j, -, same⟩ := List.mem_map.mp member
        exact apart.leftSource i (congrArg Arc.tail same)
      · apply (distinct'.filter _).map
        intro j j' same
        exact apart.right (congrArg Arc.head same)
    · apply distinct.imp
      intro i i' differ arc member member'
      have apart' : leftNode i ≠ leftNode i' := fun same => differ (apart.left same)
      rcases List.mem_cons.mp member with rfl | joined
      · rcases List.mem_cons.mp member' with same | joined'
        · exact apart' (congrArg Arc.head same)
        · obtain ⟨j, -, same⟩ := List.mem_map.mp joined'
          exact apart.leftSource i' (congrArg Arc.tail same)
      · obtain ⟨j, -, rfl⟩ := List.mem_map.mp joined
        rcases List.mem_cons.mp member' with same | joined'
        · exact apart.leftSource i (congrArg Arc.tail same)
        · obtain ⟨j', -, same⟩ := List.mem_map.mp joined'
          exact apart' (congrArg Arc.tail same).symm
  · apply distinct'.map
    intro j j' same
    exact apart.right (congrArg Arc.tail same)
  · intro arc member other listed same
    subst same
    obtain ⟨j, -, rfl⟩ := List.mem_map.mp listed
    obtain ⟨i, -, member⟩ := List.mem_flatMap.mp member
    rcases List.mem_cons.mp member with same | joined
    · exact apart.rightSource j (congrArg Arc.tail same)
    · obtain ⟨j', -, same⟩ := List.mem_map.mp joined
      exact apart.rightSink j' (congrArg Arc.head same)

section Nodes

variable (apart : Apart source sink leftNode rightNode)
include apart

theorem outflow_source [DecidableEq ι] :
    outflow (bipartite source sink leftNode rightNode edge left right) flow source =
      ∑ i ∈ left.toFinset, flow ⟨source, leftNode i, 1⟩ := by
  have arcs : (bipartite source sink leftNode rightNode edge left right).toFinset.filter (fun arc => arc.tail = source) =
      left.toFinset.image fun i => ⟨source, leftNode i, 1⟩ := by
    ext arc
    simp only [Finset.mem_filter, List.mem_toFinset, mem_bipartite, Finset.mem_image]
    constructor
    · rintro ⟨⟨i, member, rfl⟩ | ⟨i, -, j, -, -, rfl⟩ | ⟨j, -, rfl⟩, tail⟩
      · exact ⟨i, member, rfl⟩
      · exact absurd tail (apart.leftSource i)
      · exact absurd tail (apart.rightSource j)
    · rintro ⟨i, member, rfl⟩
      exact ⟨.inl ⟨i, member, rfl⟩, rfl⟩
  rw [outflow, arcs, Finset.sum_image fun i _ i' _ same => apart.left (congrArg Arc.head same)]

theorem inflow_source : inflow (bipartite source sink leftNode rightNode edge left right) flow source = 0 := by
  apply Finset.sum_eq_zero
  intro arc member
  simp only [Finset.mem_filter, List.mem_toFinset, mem_bipartite] at member
  rcases member with ⟨⟨i, -, rfl⟩ | ⟨i, -, j, -, -, rfl⟩ | ⟨j, -, rfl⟩, head⟩
  · exact absurd head (apart.leftSource i)
  · exact absurd head (apart.rightSource j)
  · exact absurd head.symm apart.ends

theorem inflow_left (member : i ∈ left) :
    inflow (bipartite source sink leftNode rightNode edge left right) flow (leftNode i) =
      flow ⟨source, leftNode i, 1⟩ := by
  have arcs : (bipartite source sink leftNode rightNode edge left right).toFinset.filter
      (fun arc => arc.head = leftNode i) = {⟨source, leftNode i, 1⟩} := by
    ext arc
    simp only [Finset.mem_filter, List.mem_toFinset, mem_bipartite, Finset.mem_singleton]
    constructor
    · rintro ⟨⟨i', -, rfl⟩ | ⟨i', -, j, -, -, rfl⟩ | ⟨j, -, rfl⟩, head⟩
      · rw [apart.left head]
      · exact absurd head.symm (apart.sides i j)
      · exact absurd head.symm (apart.leftSink i)
    · rintro rfl
      exact ⟨.inl ⟨i, member, rfl⟩, rfl⟩
  rw [inflow, arcs, Finset.sum_singleton]

theorem outflow_left [DecidableEq κ] (member : i ∈ left) :
    outflow (bipartite source sink leftNode rightNode edge left right) flow (leftNode i) =
      ∑ j ∈ right.toFinset.filter fun j => edge i j, flow ⟨leftNode i, rightNode j, 1⟩ := by
  have arcs : (bipartite source sink leftNode rightNode edge left right).toFinset.filter
      (fun arc => arc.tail = leftNode i) =
        (right.toFinset.filter fun j => edge i j).image fun j => ⟨leftNode i, rightNode j, 1⟩ := by
    ext arc
    simp only [Finset.mem_filter, List.mem_toFinset, mem_bipartite, Finset.mem_image]
    constructor
    · rintro ⟨⟨i', -, rfl⟩ | ⟨i', -, j, listed, joined, rfl⟩ | ⟨j, -, rfl⟩, tail⟩
      · exact absurd tail.symm (apart.leftSource i)
      · obtain rfl := apart.left tail
        exact ⟨j, ⟨listed, joined⟩, rfl⟩
      · exact absurd tail.symm (apart.sides i j)
    · rintro ⟨j, ⟨listed, joined⟩, rfl⟩
      exact ⟨.inr (.inl ⟨i, member, j, listed, joined, rfl⟩), rfl⟩
  rw [outflow, arcs, Finset.sum_image fun j _ j' _ same => apart.right (congrArg Arc.head same)]

theorem inflow_right [DecidableEq ι] (listed : j ∈ right) :
    inflow (bipartite source sink leftNode rightNode edge left right) flow (rightNode j) =
      ∑ i ∈ left.toFinset.filter fun i => edge i j, flow ⟨leftNode i, rightNode j, 1⟩ := by
  have arcs : (bipartite source sink leftNode rightNode edge left right).toFinset.filter
      (fun arc => arc.head = rightNode j) =
        (left.toFinset.filter fun i => edge i j).image fun i => ⟨leftNode i, rightNode j, 1⟩ := by
    ext arc
    simp only [Finset.mem_filter, List.mem_toFinset, mem_bipartite, Finset.mem_image]
    constructor
    · rintro ⟨⟨i, -, rfl⟩ | ⟨i, member, j', -, joined, rfl⟩ | ⟨j', -, rfl⟩, head⟩
      · exact absurd head (apart.sides i j)
      · obtain rfl := apart.right head
        exact ⟨i, ⟨member, joined⟩, rfl⟩
      · exact absurd head.symm (apart.rightSink j)
    · rintro ⟨i, ⟨member, joined⟩, rfl⟩
      exact ⟨.inr (.inl ⟨i, member, j, listed, joined, rfl⟩), rfl⟩
  rw [inflow, arcs, Finset.sum_image fun i _ i' _ same => apart.left (congrArg Arc.tail same)]

theorem outflow_right (listed : j ∈ right) :
    outflow (bipartite source sink leftNode rightNode edge left right) flow (rightNode j) =
      flow ⟨rightNode j, sink, 1⟩ := by
  have arcs : (bipartite source sink leftNode rightNode edge left right).toFinset.filter
      (fun arc => arc.tail = rightNode j) = {⟨rightNode j, sink, 1⟩} := by
    ext arc
    simp only [Finset.mem_filter, List.mem_toFinset, mem_bipartite, Finset.mem_singleton]
    constructor
    · rintro ⟨⟨i, -, rfl⟩ | ⟨i, -, j', -, -, rfl⟩ | ⟨j', -, rfl⟩, tail⟩
      · exact absurd tail.symm (apart.rightSource j)
      · exact absurd tail (apart.sides i j)
      · rw [apart.right tail]
    · rintro rfl
      exact ⟨.inr (.inr ⟨j, listed, rfl⟩), rfl⟩
  rw [outflow, arcs, Finset.sum_singleton]

end Nodes

/-- The edges of a matching, one for each left node. -/
structure Matches (edge : ι → κ → Bool) (left : List ι) (right : List κ) (mate : ι → κ) : Prop where
  listed : ∀ i ∈ left, mate i ∈ right
  joined : ∀ i ∈ left, edge i (mate i)
  apart : ∀ i ∈ left, ∀ i' ∈ left, mate i = mate i' → i = i'

/-- No flow carries more than there are left nodes. -/
theorem carries_le (apart : Apart source sink leftNode rightNode)
    (carries : Carries (bipartite source sink leftNode rightNode edge left right) source sink value) :
    value ≤ left.length := by
  classical
  obtain ⟨flow, feasible, total⟩ := carries
  rw [outflow_source apart, inflow_source apart, Nat.zero_add] at total
  rw [← total]
  calc
    ∑ i ∈ left.toFinset, flow ⟨source, leftNode i, 1⟩ ≤ ∑ _i ∈ left.toFinset, 1 := by
      apply Finset.sum_le_sum
      intro i member
      exact feasible.within _ (mem_bipartite.mpr (.inl ⟨i, List.mem_toFinset.mp member, rfl⟩))
    _ = left.toFinset.card := by simp
    _ ≤ left.length := left.toFinset_card_le

/-- A full flow is a matching. -/
theorem Carries.matches [Inhabited κ] (apart : Apart source sink leftNode rightNode) (distinct : left.Nodup)
    (carries : Carries (bipartite source sink leftNode rightNode edge left right) source sink left.length) :
    ∃ mate, Matches edge left right mate := by
  classical
  obtain ⟨flow, feasible, total⟩ := carries
  rw [outflow_source apart, inflow_source apart, Nat.zero_add] at total
  have unit {i : ι} (member : i ∈ left) : flow ⟨source, leftNode i, 1⟩ ≤ 1 :=
    feasible.within _ (mem_bipartite.mpr (.inl ⟨i, member, rfl⟩))
  -- every left node gets the whole unit
  have full {i : ι} (member : i ∈ left) : flow ⟨source, leftNode i, 1⟩ = 1 := by
    have ones : ∑ i ∈ left.toFinset, flow ⟨source, leftNode i, 1⟩ = ∑ _i ∈ left.toFinset, 1 := by
      rw [total, ← Finset.card_eq_sum_ones, List.toFinset_card_of_nodup distinct]
    exact (Finset.sum_eq_sum_iff_of_le fun i member => unit (List.mem_toFinset.mp member)).mp ones i
      (List.mem_toFinset.mpr member)
  have sends (i : ι) : ∃ j, i ∈ left → j ∈ right ∧ edge i j ∧ flow ⟨leftNode i, rightNode j, 1⟩ ≠ 0 := by
    by_cases member : i ∈ left
    · have kept := feasible.kept (leftNode i) (apart.leftSource i) (apart.leftSink i)
      rw [inflow_left apart member, full member, outflow_left apart member] at kept
      obtain ⟨j, listed, carried⟩ := Finset.exists_ne_zero_of_sum_ne_zero (kept ▸ Nat.one_ne_zero)
      obtain ⟨listed, joined⟩ := Finset.mem_filter.mp listed
      exact ⟨j, fun _ => ⟨List.mem_toFinset.mp listed, joined, carried⟩⟩
    · exact ⟨default, fun inside => absurd inside member⟩
  choose mate sent using sends
  refine ⟨mate, fun i member => (sent i member).1, fun i member => (sent i member).2.1, ?_⟩
  intro i member i' member' same
  by_contra differ
  obtain ⟨inside, joined, carried⟩ := sent i member
  obtain ⟨-, joined', carried'⟩ := sent i' member'
  rw [← same] at joined' carried'
  -- the right node would get two and pass on one
  have kept := feasible.kept (rightNode (mate i)) (apart.rightSource _) (apart.rightSink _)
  have passed : flow ⟨rightNode (mate i), sink, 1⟩ ≤ 1 :=
    feasible.within _ (mem_bipartite.mpr (.inr (.inr ⟨_, inside, rfl⟩)))
  rw [inflow_right apart inside, outflow_right apart inside] at kept
  have here : i ∈ left.toFinset.filter fun i => edge i (mate i) := by simp [member, (sent i member).2.1]
  have first : i ∈ left.toFinset.filter fun other => edge other (mate i) := by simp [member, joined]
  have second : i' ∈ left.toFinset.filter fun other => edge other (mate i) := by simp [member', joined']
  have two := Finset.add_le_sum (f := fun other => flow ⟨leftNode other, rightNode (mate i), 1⟩)
    (fun _ _ => Nat.zero_le _) first second differ
  omega

/-- What a matching carries along an arc. -/
def alongMatching (source sink : ν) (leftNode : ι → ν) (rightNode : κ → ν) (left : List ι) (mate : ι → κ) (arc : Arc ν) :
    Nat :=
  if left.any fun i =>
      arc = ⟨source, leftNode i, 1⟩ || arc = ⟨leftNode i, rightNode (mate i), 1⟩ || arc = ⟨rightNode (mate i), sink, 1⟩ then 1
  else 0

section Along

variable {mate : ι → κ}

theorem alongMatching_source (member : i ∈ left) :
    alongMatching source sink leftNode rightNode left mate ⟨source, leftNode i, 1⟩ = 1 := by
  apply if_pos
  exact List.any_eq_true.mpr ⟨i, member, by simp⟩

variable (apart : Apart source sink leftNode rightNode)
include apart

theorem alongMatching_edge [DecidableEq κ] (member : i ∈ left) :
    alongMatching source sink leftNode rightNode left mate ⟨leftNode i, rightNode j, 1⟩ = if mate i = j then 1 else 0 := by
  rw [alongMatching]
  apply if_congr _ rfl rfl
  rw [List.any_eq_true]
  constructor
  · rintro ⟨i', -, same⟩
    simp only [Bool.or_eq_true, decide_eq_true_eq, Arc.mk.injEq] at same
    rcases same with (⟨tail, -⟩ | ⟨tail, head, -⟩) | ⟨tail, -⟩
    · exact absurd tail (apart.leftSource i)
    · rw [apart.left tail, apart.right head]
    · exact absurd tail (apart.sides i _)
  · rintro rfl
    exact ⟨i, member, by simp⟩

theorem alongMatching_sink [DecidableEq κ] :
    alongMatching source sink leftNode rightNode left mate ⟨rightNode j, sink, 1⟩ =
      if ∃ i ∈ left, mate i = j then 1 else 0 := by
  rw [alongMatching]
  apply if_congr _ rfl rfl
  rw [List.any_eq_true]
  constructor
  · rintro ⟨i, member, same⟩
    simp only [Bool.or_eq_true, decide_eq_true_eq, Arc.mk.injEq] at same
    rcases same with (⟨tail, -⟩ | ⟨tail, -⟩) | ⟨tail, -⟩
    · exact absurd tail (apart.rightSource j)
    · exact absurd tail.symm (apart.sides i j)
    · exact ⟨i, member, (apart.right tail).symm⟩
  · rintro ⟨i, member, rfl⟩
    exact ⟨i, member, by simp⟩

end Along

/-- A matching is a full flow. -/
theorem Matches.carries {mate : ι → κ} (matching : Matches edge left right mate)
    (apart : Apart source sink leftNode rightNode) (distinct : left.Nodup) :
    Carries (bipartite source sink leftNode rightNode edge left right) source sink left.length := by
  classical
  refine ⟨alongMatching source sink leftNode rightNode left mate, ⟨?_, ?_⟩, ?_⟩
  · intro arc member
    have capacity : arc.capacity = 1 := by
      rcases mem_bipartite.mp member with ⟨i, -, rfl⟩ | ⟨i, -, j, -, -, rfl⟩ | ⟨j, -, rfl⟩
      · rfl
      · rfl
      · rfl
    rw [capacity, alongMatching]
    split
    · exact Nat.le_refl 1
    · exact Nat.zero_le 1
  · intro node notSource notSink
    by_cases onLeft : ∃ i ∈ left, leftNode i = node
    · obtain ⟨i, member, rfl⟩ := onLeft
      rw [inflow_left apart member, outflow_left apart member, alongMatching_source member]
      rw [Finset.sum_congr rfl fun j _ => alongMatching_edge apart member, Finset.sum_ite_eq, if_pos]
      simp [matching.listed i member, matching.joined i member]
    · by_cases onRight : ∃ j ∈ right, rightNode j = node
      · obtain ⟨j, listed, rfl⟩ := onRight
        rw [inflow_right apart listed, outflow_right apart listed, alongMatching_sink apart]
        rw [Finset.sum_congr rfl fun i inside =>
          alongMatching_edge apart (List.mem_toFinset.mp (Finset.mem_filter.mp inside).1)]
        by_cases matched : ∃ i ∈ left, mate i = j
        · rw [if_pos matched]
          obtain ⟨i, member, rfl⟩ := matched
          rw [Finset.sum_eq_single i]
          · exact if_pos rfl
          · intro other inside differ
            refine if_neg fun same => differ ?_
            exact matching.apart other (List.mem_toFinset.mp (Finset.mem_filter.mp inside).1) i member same
          · intro outside
            exact absurd (by simp [member, matching.joined i member]) outside
        · rw [if_neg matched]
          apply Finset.sum_eq_zero
          intro i inside
          exact if_neg fun same => matched ⟨i, List.mem_toFinset.mp (Finset.mem_filter.mp inside).1, same⟩
      · have nothing (arc : Arc ν) (member : arc ∈ bipartite source sink leftNode rightNode edge left right) :
            arc.head ≠ node ∧ arc.tail ≠ node := by
          rcases mem_bipartite.mp member with ⟨i, inside, rfl⟩ | ⟨i, inside, j, listed, -, rfl⟩ | ⟨j, listed, rfl⟩
          · exact ⟨fun same => onLeft ⟨i, inside, same⟩, fun same => notSource same.symm⟩
          · exact ⟨fun same => onRight ⟨j, listed, same⟩, fun same => onLeft ⟨i, inside, same⟩⟩
          · exact ⟨fun same => notSink same.symm, fun same => onRight ⟨j, listed, same⟩⟩
        have noInflow : inflow (bipartite source sink leftNode rightNode edge left right)
            (alongMatching source sink leftNode rightNode left mate) node = 0 := by
          apply Finset.sum_eq_zero
          intro arc inside
          obtain ⟨member, here⟩ := Finset.mem_filter.mp inside
          exact absurd here (nothing arc (List.mem_toFinset.mp member)).1
        have noOutflow : outflow (bipartite source sink leftNode rightNode edge left right)
            (alongMatching source sink leftNode rightNode left mate) node = 0 := by
          apply Finset.sum_eq_zero
          intro arc inside
          obtain ⟨member, here⟩ := Finset.mem_filter.mp inside
          exact absurd here (nothing arc (List.mem_toFinset.mp member)).2
        rw [noInflow, noOutflow]
  · rw [outflow_source apart, inflow_source apart, Nat.zero_add,
      Finset.sum_congr rfl fun i inside => alongMatching_source (List.mem_toFinset.mp inside),
      ← Finset.card_eq_sum_ones, List.toFinset_card_of_nodup distinct]

/-- An exact solver finds as much as there are left nodes just where these can be matched. -/
theorem ExactMaxFlow.bipartite [Inhabited κ] {σ : Type} {solve : List (Arc ν) → ν → ν → Except σ Nat}
    (exact' : ExactMaxFlow solve) (apart : Apart source sink leftNode rightNode) (distinct : left.Nodup) (distinct' : right.Nodup) :
    ∃ value, solve (bipartite source sink leftNode rightNode edge left right) source sink = .ok value ∧
      (value = left.length ↔ ∃ mate, Matches edge left right mate) := by
  obtain ⟨value, solved, carries, largest⟩ :=
    exact' (Lib.bipartite source sink leftNode rightNode edge left right) source sink
      (bipartite_nodup apart distinct distinct') apart.ends
  refine ⟨value, solved, ?_⟩
  constructor
  · rintro rfl
    exact carries.matches apart distinct
  · rintro ⟨mate, matching⟩
    exact Nat.le_antisymm (carries_le apart carries) (largest _ (matching.carries apart distinct))

end Bipartite

/-! ## Regular weights -/

/-- Weights with equal positive row sums and no larger column sum join every row to a
column of its own. -/
theorem exists_mates {ι κ : Type} [Fintype ι] [Fintype κ] [DecidableEq κ] {weight : ι → κ → Int} {degree : Int}
    (positive : 0 < degree) (nonneg : ∀ i j, 0 ≤ weight i j) (rows : ∀ i, ∑ j, weight i j = degree)
    (columns : ∀ j, ∑ i, weight i j ≤ degree) : ∃ mate : ι → κ, Function.Injective mate ∧ ∀ i, weight i (mate i) ≠ 0 := by
  classical
  have hall := (Finset.all_card_le_biUnion_card_iff_exists_injective
    fun i => Finset.univ.filter fun j => weight i j ≠ 0).mp ?_
  · obtain ⟨mate, injective, chosen⟩ := hall
    exact ⟨mate, injective, fun i => (Finset.mem_filter.mp (chosen i)).2⟩
  intro some
  generalize near : (some.biUnion fun i => Finset.univ.filter fun j => weight i j ≠ 0) = neighbours
  -- the weight of the rows lies in the columns of their neighbours
  have counted : (some.card : Int) * degree ≤ neighbours.card * degree := by
    calc
      (some.card : Int) * degree = ∑ i ∈ some, ∑ j, weight i j := by
        rw [Finset.sum_congr rfl fun i _ => rows i, Finset.sum_const, nsmul_eq_mul]
      _ = ∑ i ∈ some, ∑ j ∈ neighbours, weight i j := by
        apply Finset.sum_congr rfl
        intro i member
        symm
        apply Finset.sum_subset (Finset.subset_univ _)
        intro j _ outside
        by_contra carried
        apply outside
        rw [← near]
        exact Finset.mem_biUnion.mpr ⟨i, member, Finset.mem_filter.mpr ⟨Finset.mem_univ j, carried⟩⟩
      _ = ∑ j ∈ neighbours, ∑ i ∈ some, weight i j := Finset.sum_comm
      _ ≤ ∑ j ∈ neighbours, ∑ i, weight i j := by
        apply Finset.sum_le_sum
        intro j _
        exact Finset.sum_le_sum_of_subset_of_nonneg (Finset.subset_univ _) fun i _ _ => nonneg i j
      _ ≤ ∑ _j ∈ neighbours, degree := Finset.sum_le_sum fun j _ => columns j
      _ = neighbours.card * degree := by rw [Finset.sum_const, nsmul_eq_mul]
  exact_mod_cast le_of_mul_le_mul_right counted positive

end CrossPool.Lib
