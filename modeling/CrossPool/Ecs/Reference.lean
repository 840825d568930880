import Mathlib.Algebra.Order.BigOperators.Group.List
import Mathlib.Algebra.Order.Floor.Semiring
import Mathlib.Algebra.Order.Ring.Int
import Mathlib.Data.Rat.Floor
import CrossPool.Ecs.Layout
import CrossPool.Lib.Bisection
import CrossPool.Lib.Procedure

/-!
# Stable reference limits

The engine's logical capacities are derived once from the service ceiling. The pool sizes for
a number of token pages come from the engine's sizing policy, and a bisection
looks for the largest number whose pools cost at most the ceiling; the ranks then take the minimum
of their capacities. A price is undefined where a pool gets no token or more than its reservation.
-/

namespace CrossPool.Ecs.Vmm

open CrossPool.Lib

/-! ## Prices -/

inductive ComponentType where
  | full
  | swa
deriving DecidableEq, Repr

/-- The engine's `MemoryPoolConfig`. -/
structure MemoryPoolConfig where
  maxTotalNumTokens : Nat
  maxRunningRequests : Option Nat
  fullMaxTotalNumTokens : Option Nat
  swaMaxTotalNumTokens : Option Nat
deriving DecidableEq, Repr

/-- `PoolProfile.bytes_for`. -/
def PoolProfile.bytesFor (p : PoolProfile) (bundles : Nat) : Except Failure Nat := do
  if 2 ^ 64 ≤ bundles then throw .value
  if p.bundleCapacity < bundles then throw .value
  return bundles * p.bundleBytes

namespace KvVmmLayout

variable (l : KvVmmLayout)

/-- The bundles under a pool of so many tokens and its dummy page. -/
def bundlesFor (count : Nat) : Nat :=
  let rows := (count + l.tokenPageSize + l.tokensPerRow - 1) / l.tokensPerRow
  alignUp (rows * l.rowBytes) l.mappingGranularityBytes / l.mappingGranularityBytes

end KvVmmLayout

/-- What `reference_config` reads of the elastic state, its configurator and the schedule. The pool is a
sliding-window one just when there is a second component. -/
structure ReferenceState where
  full : KvVmmLayout
  swa : Option KvVmmLayout
  requestPoolSize : Nat
  slidingWindowSize : Option Nat
  swaFullTokensRatio : ℚ
  ratio_pos : 0 < swaFullTokensRatio
  configFromBudget : Nat → Nat → MemoryPoolConfig
  calculatePoolSizesFromMaxTokens : Nat → Nat → MemoryPoolConfig

namespace ReferenceState

variable (s : ReferenceState)

def components : List (ComponentType × KvVmmLayout) :=
  (.full, s.full) :: (s.swa.map fun layout => (.swa, layout)).toList

def pageSize : Nat :=
  s.full.tokenPageSize

/-- The token count of a component. -/
def tokens (config : MemoryPoolConfig) : ComponentType → Option Nat
  | .full => if s.swa.isSome then config.fullMaxTotalNumTokens else some config.maxTotalNumTokens
  | .swa => config.swaMaxTotalNumTokens

/-- The loop of `reference_bytes`. -/
def addBytes (tokens : ComponentType → Option Nat) :
    List (ComponentType × KvVmmLayout) → Nat → Except Failure (Option Nat)
  | [], total => return some total
  | (component, layout) :: rest, total => do
    match tokens component with
    | none => return none
    | some count =>
      if 0 < count ∧ count ≤ layout.tokenCapacity then
        addBytes tokens rest (total + (← layout.profile.bytesFor (layout.bundlesFor count)))
      else return none

/-- `reference_bytes`. -/
def referenceBytes (config : MemoryPoolConfig) : Except Failure (Option Nat) :=
  addBytes (s.tokens config) s.components 0

/-- `profile.floor_bytes`; the profile checks that its bounds are 64-bit. -/
def floorBytes : Except Failure Nat :=
  let pools := s.components.map fun entry => entry.2.profile
  let floor : Nat := (pools.map fun pool => pool.floorBundles * pool.bundleBytes).sum
  let reservation : Nat := (pools.map fun pool => pool.bundleCapacity * pool.bundleBytes).sum
  if 2 ^ 64 ≤ floor ∨ 2 ^ 64 ≤ reservation then throw .value else return floor

/-! ## Legal minimum -/

def minimumSwaPages : Nat :=
  match s.slidingWindowSize with
  | none => 1
  | some window => window / s.pageSize + 2

/-- The window pages of so many pages: the multiplication and page floor of the engine. -/
def swaPages (pages : Nat) : Nat :=
  ⌊((pages * s.pageSize : Nat) : ℚ) * s.swaFullTokensRatio⌋₊ / s.pageSize

/-- From this number on there are window pages enough. -/
theorem minimumSwaPages_le_swaPages {pages : Nat}
    (enough : ⌈(s.minimumSwaPages : ℚ) / s.swaFullTokensRatio⌉₊ ≤ pages) : s.minimumSwaPages ≤ s.swaPages pages := by
  have positive : 0 < s.pageSize := s.full.tokenPageSize_pos
  have covered : (s.minimumSwaPages : ℚ) ≤ pages * s.swaFullTokensRatio := by
    rw [← div_le_iff₀ s.ratio_pos]
    exact Nat.ceil_le.mp enough
  rw [swaPages, Nat.le_div_iff_mul_le positive]
  apply Nat.le_floor
  have scaled := mul_le_mul_of_nonneg_right covered (Nat.cast_nonneg s.pageSize : (0 : ℚ) ≤ s.pageSize)
  calc ((s.minimumSwaPages * s.pageSize : Nat) : ℚ) = s.minimumSwaPages * s.pageSize := by push_cast; rfl
    _ ≤ pages * s.swaFullTokensRatio * s.pageSize := scaled
    _ = ((pages * s.pageSize : Nat) : ℚ) * s.swaFullTokensRatio := by push_cast; ring

/-- The loop that makes up for rounding. -/
def raiseMinimum (pages : Nat) : Nat :=
  if s.swaPages pages < s.minimumSwaPages then raiseMinimum (pages + 1) else pages
termination_by ⌈(s.minimumSwaPages : ℚ) / s.swaFullTokensRatio⌉₊ - pages
decreasing_by
  rename_i short
  have below : pages < ⌈(s.minimumSwaPages : ℚ) / s.swaFullTokensRatio⌉₊ := by
    by_contra reached
    have enough := s.minimumSwaPages_le_swaPages (not_lt.mp reached)
    omega
  omega

def minimumPages : Nat :=
  if s.swa.isSome then s.raiseMinimum (max 1 ⌈(s.minimumSwaPages : ℚ) / s.swaFullTokensRatio⌉₊) else 1

/-! ## Search -/

/-- The pool sizes for a number of pages. -/
def candidate (pages : Nat) : MemoryPoolConfig :=
  s.calculatePoolSizesFromMaxTokens (pages * s.pageSize) s.pageSize

def probe (ceilingBytes pages : Nat) : Except Failure (Verdict MemoryPoolConfig) := do
  match ← s.referenceBytes (s.candidate pages) with
  | none => return .lower
  | some cost => return if cost ≤ ceilingBytes then .select (s.candidate pages) else .lower

/-- The last page count of the search: the cap of the budget entry. -/
def upperPages (ceilingBytes : Nat) : Nat :=
  (s.configFromBudget ceilingBytes s.full.tokenCapacity).maxTotalNumTokens / s.pageSize

/-- `reference_config` up to the best candidate. -/
def bestConfig (ceilingBytes : Nat) : Except Failure MemoryPoolConfig := do
  if 2 ^ 64 ≤ ceilingBytes then throw .value
  if ceilingBytes < (← s.floorBytes) then throw .memory
  if s.upperPages ceilingBytes < s.minimumPages then throw .memory
  match ← bisect (s.probe ceilingBytes) s.minimumPages (s.upperPages ceilingBytes + 1) none with
  | none => throw .memory
  | some best => return best

end ReferenceState

/-- What a rank gives to the reduction. -/
structure Capacities where
  totalTokens : Nat
  fullTokens : Nat
  swaTokens : Nat
deriving DecidableEq, Repr

/-- An int64 tensor of the three capacities. -/
def MemoryPoolConfig.capacities (best : MemoryPoolConfig) : Except Failure Capacities :=
  let capacities : Capacities :=
    ⟨best.maxTotalNumTokens, best.fullMaxTotalNumTokens.getD 0, best.swaMaxTotalNumTokens.getD 0⟩
  if [capacities.totalTokens, capacities.fullTokens, capacities.swaTokens].all (· < 2 ^ 63) then return capacities
  else throw .value

def Capacities.min (own other : Capacities) : Capacities :=
  ⟨Nat.min own.totalTokens other.totalTokens, Nat.min own.fullTokens other.fullTokens,
    Nat.min own.swaTokens other.swaTokens⟩

namespace ReferenceState

variable (s : ReferenceState)

def limits (capacities : Capacities) : MemoryPoolConfig where
  maxTotalNumTokens := capacities.totalTokens
  maxRunningRequests := some s.requestPoolSize
  fullMaxTotalNumTokens := if s.swa.isSome then some capacities.fullTokens else none
  swaMaxTotalNumTokens := if s.swa.isSome then some capacities.swaTokens else none

/-- `reference_config`, with the capacities that the ranks of the group give. -/
def referenceConfig (ceilingBytes : Nat) (given : List Capacities) : Except Failure MemoryPoolConfig := do
  let best ← s.bestConfig ceilingBytes
  return s.limits (given.foldl Capacities.min (← best.capacities))

end ReferenceState

/-! ## Prices are monotone -/

namespace KvVmmLayout

variable {l : KvVmmLayout} {count count' : Nat}

theorem bundlesFor_eq :
    l.bundlesFor count = pastCell l.rowBytes l.mappingGranularityBytes (pastCell 1 l.tokensPerRow (count + l.tokenPageSize)) := by
  rw [bundlesFor, alignUp, Nat.mul_div_cancel _ l.mappingGranularityBytes_pos, pastCell, pastCell, Nat.mul_one]

theorem bundlesFor_mono (fewer : count ≤ count') : l.bundlesFor count ≤ l.bundlesFor count' := by
  rw [bundlesFor_eq, bundlesFor_eq]
  apply pastCell_mono
  apply pastCell_mono
  omega

/-- A pool within the token capacity lies within the reservation. -/
theorem bundlesFor_le (positive : 0 < count) (within : count ≤ l.tokenCapacity) :
    l.bundlesFor count ≤ l.bundleCapacity := by
  have capacity : l.tokenCapacity = l.rowCount * l.tokensPerRow - l.tokenPageSize := rfl
  rw [bundlesFor_eq, bundleCapacity_eq]
  apply pastCell_mono
  rw [pastCell_le l.tokensPerRow_pos]
  omega

theorem bytesFor_bundlesFor (positive : 0 < count) (within : count ≤ l.tokenCapacity) :
    l.profile.bytesFor (l.bundlesFor count) = .ok (l.bundlesFor count * l.bundleBytes) := by
  have bounded := bundlesFor_le positive within
  have accepted := l.accepted
  simp only [KvVmmGeometry.accepts, Bool.and_eq_true, List.all_cons, decide_eq_true_eq] at accepted
  rw [PoolProfile.bytesFor, if_neg (by omega), if_neg]
  · rfl
  · change ¬l.bundleCapacity < _
    omega

end KvVmmLayout

namespace ReferenceState

section Prices

variable {counts counts' : ComponentType → Option Nat} {components : List (ComponentType × KvVmmLayout)}

/-- The component gets a token and no more than its reservation. -/
def legal (counts : ComponentType → Option Nat) (entry : ComponentType × KvVmmLayout) : Bool :=
  (counts entry.1).any fun count => 0 < count && count ≤ entry.2.tokenCapacity

def cost (counts : ComponentType → Option Nat) (components : List (ComponentType × KvVmmLayout)) : Nat :=
  (components.map fun entry => entry.2.bundlesFor ((counts entry.1).getD 0) * entry.2.bundleBytes).sum

theorem addBytes_eq (components : List (ComponentType × KvVmmLayout)) (total : Nat) :
    addBytes counts components total =
      .ok (if components.all (legal counts) then some (total + cost counts components) else none) := by
  induction components generalizing total with
  | nil => simp [addBytes, cost, pure, Except.pure]
  | cons entry rest ih =>
    obtain ⟨component, layout⟩ := entry
    rw [addBytes]
    cases counted : counts component with
    | none => simp [legal, counted, pure, Except.pure]
    | some count =>
      dsimp only
      by_cases within : 0 < count ∧ count ≤ layout.tokenCapacity
      · rw [if_pos within, KvVmmLayout.bytesFor_bundlesFor within.1 within.2]
        change addBytes counts rest _ = _
        rw [ih]
        have lawful : legal counts (component, layout) = true := by
          simpa [legal, counted] using within
        rw [List.all_cons, lawful, Bool.true_and]
        simp [counted, cost, Nat.add_assoc]
      · rw [if_neg within]
        have illegal : legal counts (component, layout) = false := by
          simpa [legal, counted] using within
        simp [illegal, pure, Except.pure]

/-- Every component has a token in the first counts, and no more than in the second. -/
def Below (counts counts' : ComponentType → Option Nat) (components : List (ComponentType × KvVmmLayout)) : Prop :=
  ∀ entry ∈ components, ∀ count', counts' entry.1 = some count' →
    ∃ count, counts entry.1 = some count ∧ 0 < count ∧ count ≤ count'

theorem Below.legal (below : Below counts counts' components) (all : components.all (legal counts')) :
    components.all (ReferenceState.legal counts) := by
  rw [List.all_eq_true] at *
  intro entry member
  have legal' := all entry member
  rw [ReferenceState.legal, Option.any_eq_true] at *
  obtain ⟨count', counted', within⟩ := legal'
  obtain ⟨count, counted, positive, fewer⟩ := below entry member count' counted'
  rw [Bool.and_eq_true, decide_eq_true_eq, decide_eq_true_eq] at within
  refine ⟨count, counted, ?_⟩
  rw [Bool.and_eq_true, decide_eq_true_eq, decide_eq_true_eq]
  omega

theorem Below.cost_le (below : Below counts counts' components) (all : components.all (ReferenceState.legal counts')) :
    cost counts components ≤ cost counts' components := by
  apply List.sum_le_sum
  intro entry member
  have legal' := List.all_eq_true.mp all entry member
  rw [ReferenceState.legal, Option.any_eq_true] at legal'
  obtain ⟨count', counted', -⟩ := legal'
  obtain ⟨count, counted, -, fewer⟩ := below entry member count' counted'
  rw [counted, counted', Option.getD_some, Option.getD_some]
  exact Nat.mul_le_mul_right _ (KvVmmLayout.bundlesFor_mono fewer)

end Prices

variable {s : ReferenceState} {config config' : MemoryPoolConfig} {bytes : Nat}

theorem referenceBytes_eq (s : ReferenceState) (config : MemoryPoolConfig) :
    s.referenceBytes config =
      .ok (if s.components.all (legal (s.tokens config)) then some (cost (s.tokens config) s.components) else none) := by
  rw [referenceBytes, addBytes_eq, Nat.zero_add]

theorem referenceBytes_eq_some :
    s.referenceBytes config = .ok (some bytes) ↔
      s.components.all (legal (s.tokens config)) ∧ cost (s.tokens config) s.components = bytes := by
  rw [referenceBytes_eq, Except.ok.injEq]
  split
  · next all => simp [all]
  · next illegal => simp [illegal]

/-- Fewer tokens cost no more, as long as each component has one. -/
theorem referenceBytes_mono (below : Below (s.tokens config) (s.tokens config') s.components)
    (priced : s.referenceBytes config' = .ok (some bytes)) :
    ∃ bytes' ≤ bytes, s.referenceBytes config = .ok (some bytes') := by
  obtain ⟨all, same⟩ := referenceBytes_eq_some.mp priced
  refine ⟨cost (s.tokens config) s.components, same ▸ below.cost_le all, ?_⟩
  exact referenceBytes_eq_some.mpr ⟨below.legal all, rfl⟩

/-! ## Search over a sizing policy -/

/-- What the engine's sizing policy is documented to do with whole pages: the full pool has a token and grows with
them, and the window pool is the page floor of their share. -/
structure SizingPolicy (s : ReferenceState) : Prop where
  full_pos : ∀ pages, 0 < pages → ∃ count, s.tokens (s.candidate pages) .full = some count ∧ 0 < count
  full_mono : ∀ {few many count count'}, few ≤ many → s.tokens (s.candidate few) .full = some count →
    s.tokens (s.candidate many) .full = some count' → count ≤ count'
  swa_floor : s.swa.isSome → ∀ pages, s.tokens (s.candidate pages) .swa = some (s.swaPages pages * s.pageSize)

/-- The page count is one whose pools cost at most the ceiling. -/
def Feasible (s : ReferenceState) (ceilingBytes pages : Nat) : Prop :=
  ∃ bytes, s.referenceBytes (s.candidate pages) = .ok (some bytes) ∧ bytes ≤ ceilingBytes

theorem minimumSwaPages_pos : 0 < s.minimumSwaPages := by
  rw [minimumSwaPages]
  split
  · exact Nat.one_pos
  · exact Nat.succ_pos _

theorem minimumPages_pos : 0 < s.minimumPages := by
  rw [minimumPages]
  split
  · have raised : ∀ pages, pages ≤ s.raiseMinimum pages := by
      intro pages
      fun_induction s.raiseMinimum pages with
      | case1 pages short ih => omega
      | case2 pages enough => exact Nat.le_refl pages
    have least := raised (max 1 ⌈(s.minimumSwaPages : ℚ) / s.swaFullTokensRatio⌉₊)
    omega
  · omega

/-- The legal minimum has window pages enough, and so have the page counts above it. -/
theorem swaPages_enough (window : s.swa.isSome) {pages : Nat} (legal : s.minimumPages ≤ pages) :
    s.minimumSwaPages ≤ s.swaPages pages := by
  apply s.minimumSwaPages_le_swaPages
  have raised : ∀ pages, pages ≤ s.raiseMinimum pages := by
    intro pages
    fun_induction s.raiseMinimum pages with
    | case1 pages short ih => omega
    | case2 pages enough => exact Nat.le_refl pages
  rw [minimumPages, if_pos window] at legal
  have least := raised (max 1 ⌈(s.minimumSwaPages : ℚ) / s.swaFullTokensRatio⌉₊)
  omega

theorem swaPages_mono {few many : Nat} (fewer : few ≤ many) : s.swaPages few ≤ s.swaPages many := by
  apply Nat.div_le_div_right
  apply Nat.floor_le_floor
  apply mul_le_mul_of_nonneg_right _ s.ratio_pos.le
  exact_mod_cast Nat.mul_le_mul_right s.pageSize fewer

/-- The pool has the component. -/
def Has (s : ReferenceState) (component : ComponentType) : Prop :=
  component = .full ∨ (component = .swa ∧ s.swa.isSome)

theorem Has.exists_entry {component : ComponentType} (has : s.Has component) :
    ∃ layout, (component, layout) ∈ s.components := by
  rcases has with rfl | ⟨rfl, window⟩
  · exact ⟨s.full, List.mem_cons_self⟩
  · obtain ⟨layout, present⟩ := Option.isSome_iff_exists.mp window
    refine ⟨layout, List.mem_cons_of_mem _ ?_⟩
    rw [Option.mem_toList, present, Option.map_some]

theorem mem_components {entry : ComponentType × KvVmmLayout} (member : entry ∈ s.components) : s.Has entry.1 := by
  rw [components, List.mem_cons] at member
  rcases member with same | window
  · exact .inl (congrArg Prod.fst same)
  · rw [Option.mem_toList, Option.map_eq_some_iff] at window
    obtain ⟨layout, present, same⟩ := window
    exact .inr ⟨congrArg Prod.fst same.symm, Option.isSome_of_eq_some present⟩

/-- From the legal minimum on, fewer pages give every component a token and no more than more pages do. -/
theorem SizingPolicy.below (policy : s.SizingPolicy) {few many : Nat} (legal : s.minimumPages ≤ few) (fewer : few ≤ many) :
    Below (s.tokens (s.candidate few)) (s.tokens (s.candidate many)) s.components := by
  intro entry member count' counted'
  obtain ⟨component, layout⟩ := entry
  rcases mem_components member with rfl | ⟨rfl, present⟩
  · obtain ⟨count, counted, positive⟩ := policy.full_pos few (minimumPages_pos.trans_le legal)
    exact ⟨count, counted, positive, policy.full_mono fewer counted counted'⟩
  · rw [policy.swa_floor present, Option.some.injEq] at counted'
    refine ⟨_, policy.swa_floor present few, ?_, ?_⟩
    · exact Nat.mul_pos (minimumSwaPages_pos.trans_le (swaPages_enough present legal)) s.full.tokenPageSize_pos
    · rw [← counted']
      exact Nat.mul_le_mul_right _ (swaPages_mono fewer)

/-- Below a feasible page count every legal one is feasible. -/
theorem SizingPolicy.feasible_mono (policy : s.SizingPolicy) {few many ceilingBytes : Nat} (legal : s.minimumPages ≤ few)
    (fewer : few ≤ many) (feasible : s.Feasible ceilingBytes many) : s.Feasible ceilingBytes few := by
  obtain ⟨bytes, priced, held⟩ := feasible
  obtain ⟨bytes', less, priced'⟩ := referenceBytes_mono (policy.below legal fewer) priced
  exact ⟨bytes', priced', less.trans held⟩

theorem feasible_iff {ceilingBytes pages : Nat} :
    s.Feasible ceilingBytes pages ↔
      s.components.all (legal (s.tokens (s.candidate pages))) ∧
        cost (s.tokens (s.candidate pages)) s.components ≤ ceilingBytes := by
  constructor
  · rintro ⟨bytes, priced, held⟩
    obtain ⟨all, same⟩ := referenceBytes_eq_some.mp priced
    exact ⟨all, same ▸ held⟩
  · rintro ⟨all, held⟩
    exact ⟨_, referenceBytes_eq_some.mpr ⟨all, rfl⟩, held⟩

/-- The answer of a probe. -/
def verdict (s : ReferenceState) (ceilingBytes pages : Nat) : Verdict MemoryPoolConfig :=
  if s.components.all (legal (s.tokens (s.candidate pages))) ∧
      cost (s.tokens (s.candidate pages)) s.components ≤ ceilingBytes then .select (s.candidate pages) else .lower

theorem probe_eq (ceilingBytes pages : Nat) : s.probe ceilingBytes pages = .ok (s.verdict ceilingBytes pages) := by
  rw [probe, referenceBytes_eq, verdict]
  by_cases all : s.components.all (legal (s.tokens (s.candidate pages)))
  · simp only [all, if_true, true_and]
    rfl
  · rw [if_neg all, if_neg fun both => all both.1]
    rfl

theorem verdict_eq_select {ceilingBytes pages : Nat} {config : MemoryPoolConfig} :
    s.verdict ceilingBytes pages = .select config ↔ s.Feasible ceilingBytes pages ∧ s.candidate pages = config := by
  rw [verdict]
  split
  · next feasible => simp [feasible_iff.mpr feasible]
  · next infeasible => simp [mt feasible_iff.mp infeasible]

theorem verdict_eq_lower {ceilingBytes pages : Nat} :
    s.verdict ceilingBytes pages = .lower ↔ ¬s.Feasible ceilingBytes pages := by
  rw [verdict]
  split
  · next feasible => simp [feasible_iff.mpr feasible]
  · next infeasible => simp [mt feasible_iff.mp infeasible]

theorem SizingPolicy.searchable (policy : s.SizingPolicy) (ceilingBytes past : Nat) :
    Searchable (s.verdict ceilingBytes) s.minimumPages past where
  reaches := by
    intro middle chosen config legal fewer _ selected lower
    obtain ⟨feasible, -⟩ := verdict_eq_select.mp selected
    exact verdict_eq_lower.mp lower (policy.feasible_mono legal fewer feasible)
  keeps := by
    intro middle chosen config _ _ _ _ higher
    rw [verdict] at higher
    split at higher <;> cases higher

end ReferenceState

/-! ## Groups of ranks -/

/-- A rank of a tensor-parallel group with its service ceiling. -/
structure ReferenceRank where
  state : ReferenceState
  ceilingBytes : Nat

namespace ReferenceRank

/-- What the rank gives to the reduction. -/
def contribution (rank : ReferenceRank) : Except Failure Capacities := do
  (← rank.state.bestConfig rank.ceilingBytes).capacities

/-- The page counts that the search goes through. -/
def Candidate (rank : ReferenceRank) (pages : Nat) : Prop :=
  rank.state.minimumPages ≤ pages ∧ pages ≤ rank.state.upperPages rank.ceilingBytes

/-- The ceiling is 64-bit and holds the floor of the profile. -/
structure Accepted (rank : ReferenceRank) : Prop where
  bounded : rank.ceilingBytes < 2 ^ 64
  holds : ∃ floor, rank.state.floorBytes = .ok floor ∧ floor ≤ rank.ceilingBytes

/-- Nothing feasible is missed. -/
structure Searches (rank : ReferenceRank) : Prop where
  raises : ∀ given, rank.state.referenceConfig rank.ceilingBytes given = .error .memory ↔
    ∀ pages, rank.Candidate pages → ¬rank.state.Feasible rank.ceilingBytes pages
  picks : (∃ pages, rank.Candidate pages ∧ rank.state.Feasible rank.ceilingBytes pages) →
    ∃ pages, (rank.Candidate pages ∧ rank.state.Feasible rank.ceilingBytes pages) ∧
      rank.state.bestConfig rank.ceilingBytes = .ok (rank.state.candidate pages) ∧
        ∀ more, pages < more → rank.Candidate more → ¬rank.state.Feasible rank.ceilingBytes more
  undefined_above : ∀ pages more, rank.Candidate pages → pages ≤ more →
    rank.state.referenceBytes (rank.state.candidate pages) = .ok none → ¬rank.state.Feasible rank.ceilingBytes more

/-- The limits cost at most the ceiling, and every component has a token. -/
structure Fits (rank : ReferenceRank) (config : MemoryPoolConfig) : Prop where
  held : ∃ bytes ≤ rank.ceilingBytes, rank.state.referenceBytes config = .ok (some bytes)
  positive : ∀ component, rank.state.Has component → ∃ count, rank.state.tokens config component = some count ∧ 0 < count

section Search

variable {rank : ReferenceRank} (accepted : rank.Accepted) (policy : rank.state.SizingPolicy)

include accepted policy

/-- The search raises or returns the largest feasible candidate. -/
theorem bestConfig_cases :
    (rank.state.bestConfig rank.ceilingBytes = .error .memory ∧
        ∀ pages, rank.Candidate pages → ¬rank.state.Feasible rank.ceilingBytes pages) ∨
      ∃ pages, (rank.Candidate pages ∧ rank.state.Feasible rank.ceilingBytes pages) ∧
        rank.state.bestConfig rank.ceilingBytes = .ok (rank.state.candidate pages) ∧
          ∀ more, pages < more → rank.Candidate more → ¬rank.state.Feasible rank.ceilingBytes more := by
  obtain ⟨floor, floored, held⟩ := accepted.holds
  have bounded := accepted.bounded
  have run : rank.state.bestConfig rank.ceilingBytes =
      if rank.state.upperPages rank.ceilingBytes < rank.state.minimumPages then .error .memory else do
        match ← bisect (rank.state.probe rank.ceilingBytes) rank.state.minimumPages
          (rank.state.upperPages rank.ceilingBytes + 1) none with
        | none => throw .memory
        | some best => return best := by
    have enough := not_lt.mpr held
    simp only [ReferenceState.bestConfig, if_neg (not_le.mpr bounded), floored, bind, Except.bind, pure, Except.pure,
      if_neg enough]
    split <;> rfl
  rw [run]
  by_cases empty : rank.state.upperPages rank.ceilingBytes < rank.state.minimumPages
  · rw [if_pos empty]
    refine .inl ⟨rfl, ?_⟩
    rintro pages ⟨least, most⟩
    omega
  rw [if_neg empty]
  obtain ⟨found, searched, largest⟩ := bisect_ok none
    (policy.searchable rank.ceilingBytes (rank.state.upperPages rank.ceilingBytes + 1))
    (fun pages _ _ => ReferenceState.probe_eq rank.ceilingBytes pages)
  rw [searched, Option.or_none]
  cases found with
  | none =>
    refine .inl ⟨rfl, ?_⟩
    rintro pages ⟨least, most⟩ feasible
    exact largest pages _ least (by omega) (ReferenceState.verdict_eq_select.mpr ⟨feasible, rfl⟩)
  | some best =>
    obtain ⟨pages, ⟨least, most⟩, selected, beyond⟩ := largest
    obtain ⟨feasible, rfl⟩ := ReferenceState.verdict_eq_select.mp selected
    refine .inr ⟨pages, ⟨⟨least, by omega⟩, feasible⟩, rfl, ?_⟩
    rintro more above ⟨-, most'⟩ feasible'
    exact beyond more _ above (by omega) (ReferenceState.verdict_eq_select.mpr ⟨feasible', rfl⟩)

theorem searches : rank.Searches where
  raises := by
    intro given
    rcases bestConfig_cases accepted policy with ⟨raised, none⟩ | ⟨pages, ⟨candidate, feasible⟩, best, -⟩
    · rw [ReferenceState.referenceConfig, raised]
      constructor
      · intro _
        exact none
      · intro _
        rfl
    · rw [ReferenceState.referenceConfig, best]
      constructor
      · intro raised
        change ((rank.state.candidate pages).capacities >>= _) = _ at raised
        rw [MemoryPoolConfig.capacities] at raised
        split at raised <;> cases raised
      · intro none
        exact absurd feasible (none pages candidate)
  picks := by
    rintro ⟨pages, candidate, feasible⟩
    rcases bestConfig_cases accepted policy with ⟨-, none⟩ | found
    · exact absurd feasible (none pages candidate)
    · exact found
  undefined_above := by
    intro pages more candidate fewer undefined feasible
    obtain ⟨bytes, priced, -⟩ := policy.feasible_mono candidate.1 fewer feasible
    rw [undefined] at priced
    cases priced

end Search

end ReferenceRank

/-! ## The common minimum -/

section Minimum

variable (field : Capacities → Nat) {given : List Capacities} {own : Capacities}

theorem foldl_min_le (commutes : ∀ left right, field (left.min right) = Nat.min (field left) (field right)) :
    field (given.foldl Capacities.min own) ≤ field own := by
  induction given generalizing own with
  | nil => exact Nat.le_refl _
  | cons capacities rest ih =>
    apply ih.trans
    rw [commutes]
    exact Nat.min_le_left _ _

theorem foldl_min_pos (commutes : ∀ left right, field (left.min right) = Nat.min (field left) (field right))
    (positive : 0 < field own) (positives : ∀ capacities ∈ given, 0 < field capacities) :
    0 < field (given.foldl Capacities.min own) := by
  induction given generalizing own with
  | nil => exact positive
  | cons capacities rest ih =>
    apply ih
    · rw [commutes]
      exact Nat.lt_min.mpr ⟨positive, positives capacities List.mem_cons_self⟩
    · intro other member
      exact positives other (List.mem_cons_of_mem _ member)

end Minimum

/-- The capacity that stands for a component. -/
def Capacities.share (window : Bool) (capacities : Capacities) : ComponentType → Nat
  | .full => if window then capacities.fullTokens else capacities.totalTokens
  | .swa => capacities.swaTokens

theorem Capacities.share_min (window : Bool) (component : ComponentType) (left right : Capacities) :
    (left.min right).share window component = Nat.min (left.share window component) (right.share window component) := by
  cases component with
  | full => cases window <;> rfl
  | swa => rfl

theorem ReferenceState.tokens_limits {s : ReferenceState} {component : ComponentType} (has : s.Has component)
    (capacities : Capacities) :
    s.tokens (s.limits capacities) component = some (capacities.share s.swa.isSome component) := by
  rcases has with rfl | ⟨rfl, window⟩
  · simp only [tokens, limits, Capacities.share]
    split <;> rfl
  · simp [tokens, limits, Capacities.share, window]

namespace ReferenceRank

variable {rank : ReferenceRank}

/-- What a rank contributes are the token counts of the pools it found, which are feasible. -/
theorem contribution_eq (accepted : rank.Accepted) (policy : rank.state.SizingPolicy) {own : Capacities}
    (contributed : rank.contribution = .ok own) :
    ∃ best bytes, rank.state.bestConfig rank.ceilingBytes = .ok best ∧ best.capacities = .ok own ∧
      (rank.state.referenceBytes best = .ok (some bytes) ∧ bytes ≤ rank.ceilingBytes) ∧
        ∀ component, rank.state.Has component →
          rank.state.tokens best component = some (own.share rank.state.swa.isSome component) ∧
            0 < own.share rank.state.swa.isSome component := by
  rcases bestConfig_cases accepted policy with ⟨raised, -⟩ | ⟨pages, ⟨candidate, feasible⟩, found, -⟩
  · rw [contribution, raised] at contributed
    cases contributed
  rw [contribution, found] at contributed
  change (rank.state.candidate pages).capacities = _ at contributed
  obtain ⟨bytes, priced, held⟩ := feasible
  refine ⟨_, bytes, found, contributed, ⟨priced, held⟩, ?_⟩
  rw [MemoryPoolConfig.capacities] at contributed
  split at contributed
  · cases contributed
    intro component has
    obtain ⟨layout, member⟩ := has.exists_entry
    have legal := List.all_eq_true.mp (ReferenceState.referenceBytes_eq_some.mp priced).1 _ member
    rw [ReferenceState.legal, Option.any_eq_true] at legal
    obtain ⟨count, counted, within⟩ := legal
    rw [Bool.and_eq_true, decide_eq_true_eq] at within
    have shared : rank.state.tokens (rank.state.candidate pages) component =
        some (Capacities.share rank.state.swa.isSome
          ⟨(rank.state.candidate pages).maxTotalNumTokens, (rank.state.candidate pages).fullMaxTotalNumTokens.getD 0,
            (rank.state.candidate pages).swaMaxTotalNumTokens.getD 0⟩ component) := by
      cases component with
      | full =>
        simp only [ReferenceState.tokens, Capacities.share] at counted ⊢
        split
        · next window =>
          rw [if_pos window] at counted
          rw [counted, Option.getD_some]
        · rfl
      | swa =>
        simp only [ReferenceState.tokens, Capacities.share] at counted ⊢
        rw [counted, Option.getD_some]
    rw [shared, Option.some.injEq] at counted
    exact ⟨shared, counted ▸ within.1⟩
  · cases contributed

/-- With the capacities of its group a rank returns limits that fit. -/
theorem referenceConfig_fits (accepted : rank.Accepted) (policy : rank.state.SizingPolicy) {own : Capacities}
    (contributed : rank.contribution = .ok own) {given : List Capacities}
    (positive : ∀ capacities ∈ given, ∀ component, rank.state.Has component →
      0 < capacities.share rank.state.swa.isSome component) :
    ∃ config, rank.state.referenceConfig rank.ceilingBytes given = .ok config ∧ rank.Fits config := by
  obtain ⟨best, bytes, found, capacities, ⟨priced, held⟩, counted⟩ := contribution_eq accepted policy contributed
  refine ⟨rank.state.limits (given.foldl Capacities.min own), ?_, ?_⟩
  · rw [ReferenceState.referenceConfig, found]
    change (best.capacities >>= _) = _
    rw [capacities]
    rfl
  have least : ∀ component, rank.state.Has component →
      0 < (given.foldl Capacities.min own).share rank.state.swa.isSome component := by
    intro component has
    exact foldl_min_pos (·.share _ component) (Capacities.share_min _ component) (counted component has).2 fun other among =>
      positive other among component has
  constructor
  · have below : ReferenceState.Below (rank.state.tokens (rank.state.limits (given.foldl Capacities.min own)))
        (rank.state.tokens best) rank.state.components := by
      intro entry member count' counted'
      have has := ReferenceState.mem_components member
      refine ⟨_, ReferenceState.tokens_limits has _, least _ has, ?_⟩
      rw [(counted _ has).1, Option.some.injEq] at counted'
      rw [← counted']
      exact foldl_min_le (·.share _ entry.1) (Capacities.share_min _ entry.1)
    obtain ⟨bytes', less, priced'⟩ := ReferenceState.referenceBytes_mono below priced
    exact ⟨bytes', less.trans held, priced'⟩
  · intro component has
    exact ⟨_, ReferenceState.tokens_limits has _, least component has⟩

/-- Every rank of a group finds the largest feasible page count, if there is one, and the minimum of what
the ranks found fits every rank. -/
theorem reference_limits_fit {group : List ReferenceRank} (accepted : ∀ rank ∈ group, rank.Accepted)
    (policies : ∀ rank ∈ group, rank.state.SizingPolicy)
    (same : ∀ rank ∈ group, ∀ other ∈ group, rank.state.swa.isSome = other.state.swa.isSome) :
    (∀ rank ∈ group, rank.Searches) ∧
      ∀ given, group.mapM contribution = .ok given → ∀ rank ∈ group,
        ∃ config, rank.state.referenceConfig rank.ceilingBytes given = .ok config ∧ rank.Fits config := by
  constructor
  · intro rank member
    exact searches (accepted rank member) (policies rank member)
  intro given contributed rank member
  obtain ⟨own, -, gave⟩ := exists_mem_of_mapM contributed member
  apply referenceConfig_fits (accepted rank member) (policies rank member) gave
  intro capacities among component has
  obtain ⟨other, member', gave'⟩ := exists_of_mem_mapM contributed among
  obtain ⟨best, bytes, -, -, -, counted⟩ := contribution_eq (accepted other member') (policies other member') gave'
  have kind := same rank member other member'
  rw [ReferenceState.Has, kind] at has
  rw [kind]
  exact (counted component has).2

/-- A window pool with half the tokens, over rows of a bundle each. -/
def halved (ceilingBytes : Nat) : ReferenceRank where
  state := {
    full := .fewTokens
    swa := some .fewTokens
    requestPoolSize := 8
    slidingWindowSize := none
    swaFullTokensRatio := 1 / 2
    ratio_pos := one_half_pos
    configFromBudget := fun _ capTokens => ⟨capTokens, none, some capTokens, some (capTokens / 2)⟩
    calculatePoolSizesFromMaxTokens := fun maxTokens pageSize =>
      ⟨maxTokens, none, some maxTokens, some (⌊(maxTokens : ℚ) * (1 / 2)⌋₊ / pageSize * pageSize)⟩ }
  ceilingBytes := ceilingBytes

theorem halved_policy (ceilingBytes : Nat) : (halved ceilingBytes).state.SizingPolicy where
  full_pos := by
    intro pages positive
    exact ⟨pages * 1, rfl, by omega⟩
  full_mono := by
    intro few many count count' fewer counted counted'
    change some (few * 1) = some count at counted
    change some (many * 1) = some count' at counted'
    rw [Option.some.injEq] at counted counted'
    omega
  swa_floor := by
    intro _ pages
    rfl

theorem halved_accepted {ceilingBytes : Nat} (bounded : ceilingBytes < 2 ^ 64) (holds : 2 * 2 ^ 21 ≤ ceilingBytes) :
    (halved ceilingBytes).Accepted where
  bounded := bounded
  holds := ⟨2 * 2 ^ 21, (by decide : (halved 0).state.floorBytes = .ok (2 * 2 ^ 21)), holds⟩

/-- The rank with the higher ceiling finds three pages and takes the two of the other. -/
theorem reference_limits_fit_halved :
    (halved (6 * 2 ^ 21)).Searches ∧
      (halved (6 * 2 ^ 21)).state.referenceConfig (6 * 2 ^ 21) [⟨3, 3, 1⟩, ⟨2, 2, 1⟩] = .ok ⟨2, some 8, some 2, some 1⟩ ∧
        (halved (6 * 2 ^ 21)).Fits ⟨2, some 8, some 2, some 1⟩ := by
  have listed : ∀ rank ∈ [halved (6 * 2 ^ 21), halved (5 * 2 ^ 21)],
      rank = halved (6 * 2 ^ 21) ∨ rank = halved (5 * 2 ^ 21) := by
    intro rank member
    simpa using member
  have accepted : ∀ rank ∈ [halved (6 * 2 ^ 21), halved (5 * 2 ^ 21)], rank.Accepted := by
    intro rank member
    rcases listed rank member with rfl | rfl
    · exact halved_accepted (by decide) (by decide)
    · exact halved_accepted (by decide) (by decide)
  have policies : ∀ rank ∈ [halved (6 * 2 ^ 21), halved (5 * 2 ^ 21)], rank.state.SizingPolicy := by
    intro rank member
    rcases listed rank member with rfl | rfl
    · exact halved_policy _
    · exact halved_policy _
  have fit := reference_limits_fit accepted policies (by
    intro rank member other member'
    rcases listed rank member with rfl | rfl <;> rcases listed other member' with rfl | rfl <;> rfl)
  have contributed : [halved (6 * 2 ^ 21), halved (5 * 2 ^ 21)].mapM contribution = .ok [⟨3, 3, 1⟩, ⟨2, 2, 1⟩] := by
    decide +kernel
  obtain ⟨config, returned, fits⟩ := fit.2 _ contributed _ List.mem_cons_self
  have known : (halved (6 * 2 ^ 21)).state.referenceConfig (6 * 2 ^ 21) [⟨3, 3, 1⟩, ⟨2, 2, 1⟩] =
      .ok ⟨2, some 8, some 2, some 1⟩ := by
    decide +kernel
  obtain rfl := Except.ok.inj (known.symm.trans returned)
  exact ⟨fit.1 _ List.mem_cons_self, known, fits⟩

end ReferenceRank

end CrossPool.Ecs.Vmm
