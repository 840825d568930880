import Mathlib.Algebra.Order.Ring.Int
import Mathlib.Data.List.TakeWhile
import Mathlib.Data.Rat.Floor
import CrossPool.Ecs.Allocation
import CrossPool.Ecs.Reference

/-!
# Prefill admission

A prefill chunk is proposed with the pages it acquires, the pages to prepare and a forecast. The ranks vote
on its memory without mapping or evicting anything, and where they reject it a
bisection over smaller chunk limits looks for one they accept.
-/

namespace CrossPool.Ecs.Vmm

open CrossPool.Lib

/-! ## Requirements and proposals -/

/-- `ensure_uint64` over a vector of integers. -/
def ensureUint64 (values : List Int) : Except Failure (List Nat) :=
  if values.all fun value => 0 ≤ value && value < 2 ^ 64 then return values.map Int.toNat else throw .value

/-- Pages by component; the forecast covers each immediate allocation. -/
structure SglangMemoryRequirement where
  forecastPages : List Nat
  allocationPages : List Nat
  bounded : ∀ count ∈ forecastPages, count < 2 ^ 64
  covered : List.Forall₂ (· ≤ ·) allocationPages forecastPages
deriving DecidableEq

/-- The checks of its constructor. -/
def SglangMemoryRequirement.create (forecastPages allocationPages : List Int) : Except Failure SglangMemoryRequirement := do
  let forecast ← ensureUint64 forecastPages
  let allocation ← ensureUint64 allocationPages
  -- The bound holds of all that passed the first check.
  if valid : (∀ count ∈ forecast, count < 2 ^ 64) ∧ List.Forall₂ (· ≤ ·) allocation forecast then
    return ⟨forecast, allocation, valid.1, valid.2⟩
  else throw .value

theorem SglangMemoryRequirement.allocation_bounded (memory : SglangMemoryRequirement) :
    ∀ count ∈ memory.allocationPages, count < 2 ^ 64 := by
  intro count member
  obtain ⟨index, inside, rfl⟩ := List.getElem_of_mem member
  have covered := memory.covered.get inside (memory.covered.length_eq ▸ inside)
  exact covered.trans_lt (memory.bounded _ (List.getElem_mem _))

/-- No component has more pages. -/
structure SglangMemoryRequirement.Le (memory memory' : SglangMemoryRequirement) : Prop where
  forecast : List.Forall₂ (· ≤ ·) memory.forecastPages memory'.forecastPages
  allocation : List.Forall₂ (· ≤ ·) memory.allocationPages memory'.allocationPages

/-- The engine's `_PrefillAdmission`. -/
structure PrefillAdmission where
  prefixLen : Nat
  extendLen : Nat
  maxNewTokens : Nat
  isChunked : Bool
deriving DecidableEq, Repr

/-- A selection whose preparation lies between its acquisition and its forecast. -/
structure SglangPrefillProposal where
  admission : PrefillAdmission
  memory : SglangMemoryRequirement
  preparationPages : List Nat
  acquires : List.Forall₂ (· ≤ ·) memory.allocationPages preparationPages
  foreseen : List.Forall₂ (· ≤ ·) preparationPages memory.forecastPages
deriving DecidableEq

def SglangPrefillProposal.create (admission : PrefillAdmission) (memory : SglangMemoryRequirement)
    (preparationPages : List Int) : Except Failure SglangPrefillProposal := do
  let preparation ← ensureUint64 preparationPages
  if ordered : List.Forall₂ (· ≤ ·) memory.allocationPages preparation ∧
      List.Forall₂ (· ≤ ·) preparation memory.forecastPages then
    return ⟨admission, memory, preparation, ordered.1, ordered.2⟩
  else throw .value

/-! ## Adder -/

/-- What the adder reads of a request: the lengths of its fill and prefix, and its sampling limit. -/
structure Req where
  fillLen : Nat
  prefixLen : Nat
  maxNewTokens : Nat
deriving DecidableEq, Repr

inductive AddReqResult where
  | proceed
  | noToken
  | other
deriving DecidableEq, Repr

/-- The adder: the engine's offsets and its own methods, the requests selected so far with their extents, and the
common logical observations. -/
structure PrefillAdder where
  pageSize : Nat
  isHybridSwa : Bool
  canRunList : List (Option (Nat × Nat))
  remTotalTokenOffset : ℚ
  curRemTokenOffset : Int
  remSwaTokenOffset : Int
  admissionFreePages : ComponentType → Nat
  evictableSize : ComponentType → Nat
  slidingWindowSize : Nat
  chunkedPrefillSize : Option Int
  clipMaxNewTokens : Nat
  ceilPagedTokens : Int → Int
  swaNewTokens : Req → Int
  swaBudgetForReq : Int → Int → Int

namespace PrefillAdder

variable (a : PrefillAdder)

def remTotalTokens : ℚ :=
  ((a.admissionFreePages .full * a.pageSize + a.evictableSize .full : Nat) : ℚ) - a.remTotalTokenOffset

def remSwaTokens : Int :=
  ((a.admissionFreePages .swa * a.pageSize + a.evictableSize .swa : Nat) : Int) - a.remSwaTokenOffset

/-- The pages that tokens from `first` to `past` take. -/
def pagesBetween (first past : Int) : Int :=
  (a.ceilPagedTokens past - a.ceilPagedTokens first) / a.pageSize

/-- The pages of the requests selected so far. -/
def selectedPages : Except Failure Int :=
  a.canRunList.foldlM
    (fun pages extent =>
      match extent with
      | none => throw .runtime
      | some (first, past) => return pages + a.pagesBetween first past) 0

def components : Nat :=
  if a.isHybridSwa then 2 else 1

/-- The vectors of a proposal, before the constructors check them. -/
structure PrefillPages where
  forecast : List Int
  allocation : List Int
  preparation : List Int
deriving DecidableEq, Repr

/-- What `proposal_for_admission` computes from the pages selected so far. -/
def prefillPages (selectedPages : Int) (request : Req) (admission : PrefillAdmission) (continuation : Bool) :
    PrefillPages :=
  let before : Int := admission.prefixLen
  let extend : Int := admission.extendLen
  let acquired := a.pagesBetween before (before + extend) + selectedPages
  let allocation := List.replicate a.components acquired
  if continuation then ⟨allocation, allocation, allocation⟩
  else
    let remaining : Int := request.fillLen - before
    let remainingPages := a.pagesBetween before (before + remaining)
    let total : ℚ := a.remTotalTokenOffset + extend + admission.maxNewTokens + a.pageSize
    let current : Int := a.curRemTokenOffset + a.ceilPagedTokens extend + a.pageSize
    let wholeInput : ℚ := a.remTotalTokenOffset + remaining + a.swaNewTokens request + a.pageSize
    let preparation := selectedPages + remainingPages
    let full := max preparation (max (⌊max total wholeInput / a.pageSize⌋ + 1) ⌈(current : ℚ) / a.pageSize⌉)
    if a.isHybridSwa then
      let chunkPages :=
        match a.chunkedPrefillSize with
        | some chunkTokens => if 0 < chunkTokens then a.ceilPagedTokens chunkTokens / a.pageSize else remainingPages
        | none => remainingPages
      let windowPages := a.ceilPagedTokens a.slidingWindowSize / a.pageSize
      let swaPreparation := max acquired (selectedPages + min remainingPages (windowPages + 2 * chunkPages) + 1)
      let swaTokens :=
        a.remSwaTokenOffset + a.swaBudgetForReq (a.ceilPagedTokens extend) (a.swaNewTokens request)
      ⟨[full, max swaPreparation (swaTokens / a.pageSize + 1)], allocation, [preparation, swaPreparation]⟩
    else ⟨[full], allocation, [preparation]⟩

/-- `proposal_for_admission`. -/
def proposalForAdmission (request : Req) (admission : PrefillAdmission) (continuation : Bool) :
    Except Failure SglangPrefillProposal := do
  let pages := a.prefillPages (← a.selectedPages) request admission continuation
  SglangPrefillProposal.create admission (← SglangMemoryRequirement.create pages.forecast pages.allocation)
    pages.preparation

/-- The proposals of `add_chunked_req`, for a chunk that continues. -/
def proposeChunk (request : Req) (limit : Option Int) : Except Failure (AddReqResult ⊕ SglangPrefillProposal) := do
  let remaining : Int := request.fillLen - request.prefixLen
  let whole := min (limit.getD remaining) (Int.tdiv a.remTotalTokens.num a.remTotalTokens.den)
  let budget := if a.isHybridSwa then min whole (a.remSwaTokens - a.pageSize) else whole
  if budget ≤ 0 then return .inl .noToken
  let extent := min remaining budget
  let truncated : Bool := extent < remaining
  let admission : PrefillAdmission := {
    prefixLen := request.prefixLen
    extendLen := extent.toNat
    maxNewTokens := if truncated then 0 else min request.maxNewTokens a.clipMaxNewTokens
    isChunked := truncated }
  return .inr (← a.proposalForAdmission request admission true)

end PrefillAdder

/-! ## Readiness -/

/-- The capacity of one rank: its elastic state and, once a cache is bound, the tokens that the cache could
give back. -/
structure CapacityRank where
  state : SglangElasticContextState
  cache : Option (ComponentType → Nat)

namespace CapacityRank

variable (rank : CapacityRank)

/-- The loop of `required_bytes`, with the 64-bit check after it. -/
def addRequired : List (ComponentType × Component) → List Nat → Nat → Except Failure (Option Nat)
  | (component, c) :: rest, pageCount :: pageCounts, required => do
    let pageCount :=
      match rank.cache with
      | none => pageCount
      | some evictable => pageCount - evictable component / c.upstream.pageSize
    match c.planPages pageCount with
    | none => throw .runtime
    | some none => return none
    | some (some plan) =>
      addRequired rest pageCounts (required + plan.missingBundleIds.length * c.layout.profile.bundleBytes)
  | _, _, required => if 2 ^ 64 ≤ required then throw .value else return some required

/-- `required_bytes`. -/
def requiredBytes (requirement : SglangMemoryRequirement) : Except Failure (Option Nat) :=
  if requirement.forecastPages.length ≠ rank.state.components.length then throw .value
  else
    rank.addRequired ([ComponentType.full, .swa].zip rank.state.components) requirement.forecastPages
      rank.state.quota.chargedBytes

/-- The rank's own part of `memory_ready`. -/
def localReady (memory : SglangMemoryRequirement) : Except Failure Bool := do
  let forecast ← rank.requiredBytes memory
  let immediate ← rank.state.allocationBytes memory.allocationPages
  match forecast, immediate with
  | some forecast, some immediate => return decide (max forecast immediate ≤ rank.state.quota.limitBytes)
  | _, _ => return false

end CapacityRank

/-- `memory_ready`: every rank of the group is ready. -/
def memoryReady (ranks : List CapacityRank) (memory : SglangMemoryRequirement) : Except Failure Bool := do
  return (← ranks.mapM (·.localReady memory)).all id

/-! ## Coordination -/

/-- One probe of `coordinate_prefill`. -/
def probeLimit (ranks : List CapacityRank) (propose : Option Int → Except Failure (AddReqResult ⊕ SglangPrefillProposal))
    (limit : Option Int) : Except Failure (AddReqResult ⊕ SglangPrefillProposal × Bool) := do
  match ← propose limit with
  | .inl .proceed => throw .runtime
  | .inl .noToken => return .inl .noToken
  | .inl .other => return .inl .other
  | .inr proposed => return .inr (proposed, ← memoryReady ranks proposed.memory)

/-- What the search makes of a probe. -/
def steer : AddReqResult ⊕ SglangPrefillProposal × Bool → Verdict SglangPrefillProposal
  | .inl .other => .higher
  | .inr (candidate, true) => .select candidate
  | _ => .lower

/-- `coordinate_prefill` up to the selected proposal: an early result, or the original proposal with what is
selected. -/
def selectPrefill (ranks : List CapacityRank)
    (propose : Option Int → Except Failure (AddReqResult ⊕ SglangPrefillProposal)) (chunkTokensLimit : Option Int) :
    Except Failure (AddReqResult ⊕ SglangPrefillProposal × Option SglangPrefillProposal) := do
  match ← probeLimit ranks propose chunkTokensLimit with
  | .inl result => return .inl result
  | .inr (original, true) => return .inr (original, some original)
  | .inr (original, false) =>
    let upper := min (chunkTokensLimit.getD 0) (original.admission.extendLen - 1 : Int)
    let selected ← bisect (fun middle => do return steer (← probeLimit ranks propose (some middle))) 1 (upper + 1).toNat none
    return .inr (original, selected)

/-! ## Page vectors -/

namespace PrefillAdder

/-- What the engine's methods are documented to do, and what the extents of selected requests are. -/
structure Engine (a : PrefillAdder) : Prop where
  pageSize_pos : 0 < a.pageSize
  ceil_eq : ∀ tokens, a.ceilPagedTokens tokens = -(-tokens / a.pageSize) * a.pageSize
  budget_mono : ∀ {few many : Int} (swaNewTokens : Int), few ≤ many →
    a.swaBudgetForReq few swaNewTokens ≤ a.swaBudgetForReq many swaNewTokens
  extents : ∀ {first past : Nat}, some (first, past) ∈ a.canRunList → first ≤ past

section Pages

variable {a : PrefillAdder} (engine : a.Engine)

include engine

theorem ceilPagedTokens_mono {few many : Int} (fewer : few ≤ many) : a.ceilPagedTokens few ≤ a.ceilPagedTokens many := by
  have positive : (0 : Int) < a.pageSize := Int.natCast_pos.mpr engine.pageSize_pos
  rw [engine.ceil_eq, engine.ceil_eq]
  apply mul_le_mul_of_nonneg_right _ positive.le
  exact neg_le_neg (Int.ediv_le_ediv positive (neg_le_neg fewer))

theorem pagesBetween_mono (first : Int) {few many : Int} (fewer : few ≤ many) :
    a.pagesBetween first few ≤ a.pagesBetween first many := by
  have positive : (0 : Int) < a.pageSize := Int.natCast_pos.mpr engine.pageSize_pos
  exact Int.ediv_le_ediv positive (sub_le_sub_right (ceilPagedTokens_mono engine fewer) _)

theorem pagesBetween_nonneg (first past : Int) (ordered : first ≤ past) : 0 ≤ a.pagesBetween first past := by
  apply Int.ediv_nonneg _ (Int.natCast_nonneg _)
  exact sub_nonneg.mpr (ceilPagedTokens_mono engine ordered)

theorem selectedPages_nonneg {selected : Int} (committed : a.selectedPages = .ok selected) : 0 ≤ selected := by
  refine foldlM_eq_ok (R := fun _ (pages : Int) => 0 ≤ pages) (le_refl 0) ?_ committed
  intro seen extent pages next member before stepped
  cases extent with
  | none => cases stepped
  | some extent =>
    obtain ⟨first, past⟩ := extent
    cases stepped
    have ordered : (first : Int) ≤ past := by exact_mod_cast engine.extents member
    exact add_nonneg before (pagesBetween_nonneg engine first past ordered)

/-- A longer extent acquires no fewer pages. -/
theorem acquired_mono (selected : Int) (few many : PrefillAdmission) (same : few.prefixLen = many.prefixLen)
    (longer : few.extendLen ≤ many.extendLen) :
    a.pagesBetween few.prefixLen (few.prefixLen + few.extendLen) + selected ≤
      a.pagesBetween many.prefixLen (many.prefixLen + many.extendLen) + selected := by
  have longer' : (few.extendLen : Int) ≤ many.extendLen := by exact_mod_cast longer
  rw [same]
  have more := pagesBetween_mono engine many.prefixLen (add_le_add_right longer' many.prefixLen)
  omega

omit engine in
theorem replicate_mono (count : Nat) {few many : Int} (fewer : few ≤ many) :
    List.Forall₂ (· ≤ ·) (List.replicate count few) (List.replicate count many) := by
  apply List.forall₂_iff_get.mpr
  simp [fewer]

/-- A longer extent takes no fewer pages, now and in the forecast. -/
theorem prefillPages_mono (selected : Int) (request : Req) (continuation : Bool) {few many : PrefillAdmission}
    (same : few.prefixLen = many.prefixLen) (same' : few.maxNewTokens = many.maxNewTokens)
    (longer : few.extendLen ≤ many.extendLen) :
    List.Forall₂ (· ≤ ·) (a.prefillPages selected request few continuation).forecast
        (a.prefillPages selected request many continuation).forecast ∧
      List.Forall₂ (· ≤ ·) (a.prefillPages selected request few continuation).allocation
        (a.prefillPages selected request many continuation).allocation := by
  have longer' : (few.extendLen : Int) ≤ many.extendLen := by exact_mod_cast longer
  have acquired := acquired_mono engine selected few many same longer
  have allocation := replicate_mono a.components acquired
  have positive : (0 : Int) < a.pageSize := Int.natCast_pos.mpr engine.pageSize_pos
  have positive' : (0 : ℚ) < a.pageSize := by exact_mod_cast engine.pageSize_pos
  have paged := ceilPagedTokens_mono engine longer'
  have total : a.remTotalTokenOffset + few.extendLen + few.maxNewTokens + a.pageSize ≤
      a.remTotalTokenOffset + many.extendLen + many.maxNewTokens + a.pageSize := by
    have extended : (few.extendLen : ℚ) ≤ many.extendLen := by exact_mod_cast longer
    rw [same']
    linarith
  have current : (((a.curRemTokenOffset + a.ceilPagedTokens few.extendLen + a.pageSize : Int) : ℚ)) ≤
      ((a.curRemTokenOffset + a.ceilPagedTokens many.extendLen + a.pageSize : Int) : ℚ) := by
    exact_mod_cast (by omega)
  cases continuation with
  | true => exact ⟨allocation, allocation⟩
  | false =>
    have full (preparation : Int) (wholeInput : ℚ) :
        max preparation (max (⌊max (a.remTotalTokenOffset + few.extendLen + few.maxNewTokens + a.pageSize) wholeInput /
            a.pageSize⌋ + 1) ⌈((a.curRemTokenOffset + a.ceilPagedTokens few.extendLen + a.pageSize : Int) : ℚ) /
            a.pageSize⌉) ≤
          max preparation (max (⌊max (a.remTotalTokenOffset + many.extendLen + many.maxNewTokens + a.pageSize) wholeInput /
            a.pageSize⌋ + 1) ⌈((a.curRemTokenOffset + a.ceilPagedTokens many.extendLen + a.pageSize : Int) : ℚ) /
            a.pageSize⌉) := by
      apply max_le_max (le_refl _)
      apply max_le_max
      · apply add_le_add_left
        apply Int.floor_le_floor
        exact div_le_div_of_nonneg_right (max_le_max total (le_refl _)) positive'.le
      · apply Int.ceil_le_ceil
        exact div_le_div_of_nonneg_right current positive'.le
    have swa (preparation : Int) (swaNewTokens : Int) :
        max (max (a.pagesBetween few.prefixLen (few.prefixLen + few.extendLen) + selected) preparation)
            ((a.remSwaTokenOffset + a.swaBudgetForReq (a.ceilPagedTokens few.extendLen) swaNewTokens) / a.pageSize + 1) ≤
          max (max (a.pagesBetween many.prefixLen (many.prefixLen + many.extendLen) + selected) preparation)
            ((a.remSwaTokenOffset + a.swaBudgetForReq (a.ceilPagedTokens many.extendLen) swaNewTokens) / a.pageSize + 1) := by
      apply max_le_max (max_le_max acquired (le_refl _))
      apply add_le_add_left
      apply Int.ediv_le_ediv positive
      exact add_le_add_right (engine.budget_mono swaNewTokens paged) _
    cases window : a.isHybridSwa with
    | true =>
      simp only [prefillPages, window, Bool.false_eq_true, if_false, if_true]
      refine ⟨.cons ?_ (.cons ?_ .nil), allocation⟩
      · rw [same]
        exact full _ _
      · rw [same] at swa ⊢
        exact swa _ _
    | false =>
      simp only [prefillPages, window, Bool.false_eq_true, if_false]
      refine ⟨.cons ?_ .nil, allocation⟩
      rw [same]
      exact full _ _

end Pages

end PrefillAdder

/-! ## Prices -/

namespace Component

variable {c : Component}

/-- The bytes of the bundles that a plan of so many pages lacks, if there is one. -/
def missingBytes (c : Component) (pageCount : Nat) : Option Nat :=
  ((c.planPages pageCount).getD none).map fun plan => plan.missingBundleIds.length * c.layout.profile.bundleBytes

variable (valid : c.Valid)

include valid

theorem planPages_answers {pageCount : Nat} (converts : c.ConvertsFor pageCount) :
    c.planPages pageCount = some ((c.planPages pageCount).getD none) := by
  rw [planPages_eq valid converts]
  rfl

theorem exists_plan {pageCount bytes : Nat} (converts : c.ConvertsFor pageCount)
    (priced : c.missingBytes pageCount = some bytes) :
    ∃ plan, c.planPages pageCount = some (some plan) ∧
      plan.missingBundleIds.length * c.layout.profile.bundleBytes = bytes := by
  rw [missingBytes, Option.map_eq_some_iff] at priced
  obtain ⟨plan, found, same⟩ := priced
  exact ⟨plan, (planPages_answers valid converts).trans (congrArg some found), same⟩

/-- Only what is there has a price. -/
theorem room_of_missingBytes {pageCount bytes : Nat} (priced : c.missingBytes pageCount = some bytes) :
    pageCount ≤ c.containers.pages.length + c.candidates.length := by
  by_contra short
  have converts : c.ConvertsFor pageCount := fun _ room => absurd room short
  rw [missingBytes, (planPages_eq_none valid converts).mpr (not_le.mp short)] at priced
  cases priced

/-- Fewer pages lack no more bytes. -/
theorem missingBytes_mono {few many bytes : Nat} (fewer : few ≤ many) (converts : c.ConvertsFor many)
    (priced : c.missingBytes many = some bytes) : ∃ bytes' ≤ bytes, c.missingBytes few = some bytes' := by
  obtain ⟨plan, planned, same⟩ := exists_plan valid converts priced
  have room := room_of_missingBytes valid priced
  obtain ⟨plan', planned', realizes⟩ := planPages_eq_some valid (converts.fewer fewer room) (fewer.trans room)
  have within := planPages_mono valid fewer converts planned' planned
  refine ⟨plan'.missingBundleIds.length * c.layout.profile.bundleBytes, ?_, ?_⟩
  · rw [← same]
    exact Nat.mul_le_mul_right _ (List.Nodup.subperm realizes.missing_distinct within).length_le
  · rw [missingBytes, planned']
    rfl

/-- What is mapped and what a plan lacks fit the reservation together. -/
theorem missingBytes_le {pageCount bytes : Nat} (converts : c.ConvertsFor pageCount)
    (priced : c.missingBytes pageCount = some bytes) :
    c.backing.backedBytes + bytes ≤ c.layout.profile.bundleCapacity * c.layout.profile.bundleBytes := by
  obtain ⟨plan, planned, same⟩ := exists_plan valid converts priced
  have realizes := realizes_of_planPages valid converts planned
  have planned' : SglangElasticContextState.Planned c pageCount plan := ⟨valid, realizes⟩
  have distinct : (c.backing.bundleIds ++ plan.missingBundleIds).Nodup := by
    apply List.nodup_append.mpr
    refine ⟨valid.bundles_distinct, realizes.missing_distinct, ?_⟩
    intro id mapped other missing equal
    exact ((realizes.missing other).mp missing).1 (equal ▸ mapped)
  have bounded : c.backing.bundleIds ++ plan.missingBundleIds ⊆ List.range c.layout.bundleCapacity := by
    intro id member
    rw [List.mem_range]
    rcases List.mem_append.mp member with mapped | missing
    · exact valid.bundles_bounded id mapped
    · exact planned'.missing_bounded id missing
  have count := (distinct.subperm bounded).length_le
  rw [List.length_append, List.length_range, KvVmmBacking.bundleIds, List.length_map] at count
  rw [KvVmmBacking.backedBytes, valid.profile, ← same, ← Nat.add_mul]
  exact Nat.mul_le_mul_right _ count

end Component

/-- The joint price of some pages of each component. -/
def priceAll : List (Component × Nat) → Option Nat
  | [] => some 0
  | entry :: rest => (entry.1.missingBytes entry.2).bind fun bytes => (priceAll rest).map (bytes + ·)

section Joint

variable {components : List Component}

theorem priceAll_cons_eq_some {entry : Component × Nat} {rest : List (Component × Nat)} {bytes : Nat} :
    priceAll (entry :: rest) = some bytes ↔
      ∃ first more, entry.1.missingBytes entry.2 = some first ∧ priceAll rest = some more ∧ first + more = bytes := by
  simp only [priceAll, Option.bind_eq_some_iff, Option.map_eq_some_iff]
  constructor
  · rintro ⟨first, found, more, rest', same⟩
    exact ⟨first, more, found, rest', same⟩
  · rintro ⟨first, more, found, rest', same⟩
    exact ⟨first, found, more, rest', same⟩

/-- The joint price is that of the plans of all components. -/
theorem priceAll_eq (entries : List (Component × Nat)) :
    priceAll entries =
      if (entries.map fun entry => (entry.1.planPages entry.2).getD none).any (·.isNone) then none
      else some (SglangElasticContextState.cost (entries.map Prod.fst)
        ((entries.map fun entry => (entry.1.planPages entry.2).getD none).filterMap id)) := by
  induction entries with
  | nil => rfl
  | cons entry entries ih =>
    rw [priceAll, ih, Component.missingBytes, List.map_cons, List.any_cons]
    cases (entry.1.planPages entry.2).getD none with
    | none => rfl
    | some plan =>
      rw [Option.isNone_some, Bool.false_or]
      split
      · rfl
      · rfl

/-- Fewer pages of each component cost no more. -/
theorem priceAll_mono (valid : ∀ c ∈ components, c.Valid) {few many : List Nat} (fewer : List.Forall₂ (· ≤ ·) few many)
    (converts : ∀ entry ∈ components.zip many, entry.1.ConvertsFor entry.2) {bytes : Nat} (priced : priceAll (components.zip many) = some bytes) :
    ∃ bytes' ≤ bytes, priceAll (components.zip few) = some bytes' := by
  induction fewer generalizing components bytes with
  | nil =>
    rw [List.zip_nil_right] at priced ⊢
    exact ⟨bytes, le_refl bytes, priced⟩
  | cons first rest ih =>
    cases components with
    | nil => exact ⟨bytes, le_refl bytes, priced⟩
    | cons c components =>
      obtain ⟨one, more, found, others, same⟩ := priceAll_cons_eq_some.mp priced
      obtain ⟨one', less, found'⟩ :=
        Component.missingBytes_mono (valid c List.mem_cons_self) first (converts _ List.mem_cons_self) found
      obtain ⟨more', less', others'⟩ := ih (fun c member => valid c (List.mem_cons_of_mem _ member))
        (fun entry member => converts entry (List.mem_cons_of_mem _ member)) others
      exact ⟨one' + more', by omega, priceAll_cons_eq_some.mpr ⟨one', more', found', others', rfl⟩⟩

theorem priceAll_le (valid : ∀ c ∈ components, c.Valid) {counts : List Nat}
    (converts : ∀ entry ∈ components.zip counts, entry.1.ConvertsFor entry.2)
    (same : counts.length = components.length) {bytes : Nat} (priced : priceAll (components.zip counts) = some bytes) :
    (components.map fun c => c.backing.backedBytes).sum + bytes ≤
      (components.map fun c => c.layout.profile.bundleCapacity * c.layout.profile.bundleBytes).sum := by
  induction components generalizing counts bytes with
  | nil =>
    obtain rfl : 0 = bytes := Option.some.inj priced
    exact le_refl 0
  | cons c components ih =>
    cases counts with
    | nil => cases same
    | cons count counts =>
      obtain ⟨one, more, found, others, total⟩ := priceAll_cons_eq_some.mp priced
      have here := Component.missingBytes_le (valid c List.mem_cons_self) (converts _ List.mem_cons_self) found
      have rest := ih (fun c member => valid c (List.mem_cons_of_mem _ member))
        (fun entry member => converts entry (List.mem_cons_of_mem _ member)) (Nat.succ.inj same) others
      simp only [List.map_cons, List.sum_cons]
      omega

/-- Pricing goes from component to component up to the first that has too few pages. -/
def reached (entries : List (Component × Nat)) : List (Component × Nat) :=
  entries.takeWhile fun entry => entry.2 ≤ entry.1.containers.pages.length + entry.1.candidates.length

/-- What has a joint price has the pages for it. -/
theorem room_of_priceAll {entries : List (Component × Nat)} (valid : ∀ entry ∈ entries, entry.1.Valid) {bytes : Nat}
    (priced : priceAll entries = some bytes) :
    ∀ entry ∈ entries, entry.2 ≤ entry.1.containers.pages.length + entry.1.candidates.length := by
  induction entries generalizing bytes with
  | nil =>
    intro entry member
    cases member
  | cons first rest ih =>
    obtain ⟨one, more, found, others, -⟩ := priceAll_cons_eq_some.mp priced
    intro entry member
    rcases List.mem_cons.mp member with rfl | later
    · exact Component.room_of_missingBytes (valid _ List.mem_cons_self) found
    · exact ih (fun other among => valid other (List.mem_cons_of_mem _ among)) others entry later

theorem reached_of_priceAll {entries : List (Component × Nat)} (valid : ∀ entry ∈ entries, entry.1.Valid) {bytes : Nat}
    (priced : priceAll entries = some bytes) : reached entries = entries := by
  rw [reached, List.takeWhile_eq_self_iff]
  intro entry member
  exact decide_eq_true (room_of_priceAll valid priced entry member)

theorem exists_of_mem_zip {few many : List Nat} (fewer : List.Forall₂ (· ≤ ·) few many) {entry : Component × Nat}
    (member : entry ∈ components.zip few) : ∃ more, entry.2 ≤ more ∧ (entry.1, more) ∈ components.zip many := by
  induction fewer generalizing components with
  | nil =>
    rw [List.zip_nil_right] at member
    cases member
  | cons first rest ih =>
    cases components with
    | nil => cases member
    | cons c components =>
      rcases List.mem_cons.mp member with rfl | later
      · exact ⟨_, first, List.mem_cons_self⟩
      · obtain ⟨more, less, among⟩ := ih later
        exact ⟨more, less, List.mem_cons_of_mem _ among⟩

end Joint

namespace CapacityRank

/-- What is left to acquire once the cache has given back what it can. -/
def need (rank : CapacityRank) (component : ComponentType) (c : Component) (pageCount : Nat) : Nat :=
  match rank.cache with
  | none => pageCount
  | some evictable => pageCount - evictable component / c.upstream.pageSize

def needs (rank : CapacityRank) (pageCounts : List Nat) : List Nat :=
  List.zipWith (fun entry pageCount => rank.need entry.1 entry.2 pageCount)
    ([ComponentType.full, .swa].zip rank.state.components) pageCounts

/-- A capacity between operations: the quota is charged with what is mapped, and the reservation is 64-bit. -/
structure Sound (rank : CapacityRank) (components : Nat) : Prop where
  valid : ∀ c ∈ rank.state.components, c.Valid
  count : rank.state.components.length = components
  few : components ≤ 2
  charged : rank.state.quota.chargedBytes = (rank.state.components.map fun c => c.backing.backedBytes).sum
  reserved : (rank.state.components.map fun c => c.layout.profile.bundleCapacity * c.layout.profile.bundleBytes).sum < 2 ^ 64

/-- What pricing a requirement converts comes out as without wrapping. -/
structure Converts (rank : CapacityRank) (memory : SglangMemoryRequirement) : Prop where
  forecast : ∀ entry ∈ reached (rank.state.components.zip (rank.needs memory.forecastPages)), entry.1.ConvertsFor entry.2
  allocation : ∀ entry ∈ rank.state.components.zip memory.allocationPages, entry.1.ConvertsFor entry.2

/-- The forecast and the allocation are priced within the quota. -/
def Ready (rank : CapacityRank) (memory : SglangMemoryRequirement) : Prop :=
  ∃ forecast immediate,
    priceAll (rank.state.components.zip (rank.needs memory.forecastPages)) = some forecast ∧
      priceAll (rank.state.components.zip memory.allocationPages) = some immediate ∧
        rank.state.quota.chargedBytes + max forecast immediate ≤ rank.state.quota.limitBytes

section Votes

variable {rank : CapacityRank}

theorem addRequired_eq {entries : List (ComponentType × Component)} {counts : List Nat} (required : Nat)
    (valid : ∀ entry ∈ entries, entry.2.Valid)
    (converts : ∀ entry ∈ reached ((entries.map Prod.snd).zip
      (List.zipWith (fun entry count => rank.need entry.1 entry.2 count) entries counts)), entry.1.ConvertsFor entry.2)
    (same : counts.length = entries.length) :
    rank.addRequired entries counts required =
      match priceAll ((entries.map Prod.snd).zip (List.zipWith (fun entry count => rank.need entry.1 entry.2 count) entries counts)) with
      | none => .ok none
      | some bytes => if 2 ^ 64 ≤ required + bytes then .error .value else .ok (some (required + bytes)) := by
  induction entries generalizing counts required with
  | nil =>
    cases counts with
    | nil => rfl
    | cons count counts => cases same
  | cons entry entries ih =>
    obtain ⟨component, c⟩ := entry
    cases counts with
    | nil => cases same
    | cons count counts =>
      have here := valid (component, c) List.mem_cons_self
      have step : rank.addRequired ((component, c) :: entries) (count :: counts) required =
          match c.planPages (rank.need component c count) with
          | none => .error .runtime
          | some none => .ok none
          | some (some plan) => rank.addRequired entries counts
              (required + plan.missingBundleIds.length * c.layout.profile.bundleBytes) := rfl
      rw [List.map_cons, List.zipWith_cons_cons, List.zip_cons_cons] at converts ⊢
      by_cases short : c.containers.pages.length + c.candidates.length < rank.need component c count
      · have none := (Component.planPages_eq_none here fun _ room => absurd room (not_le.mpr short)).mpr short
        rw [step, none, priceAll, Component.missingBytes, none]
        rfl
      · have enough : decide (rank.need component c count ≤ c.containers.pages.length + c.candidates.length) = true :=
          decide_eq_true (not_lt.mp short)
        simp only [reached, List.takeWhile_cons, enough, if_true] at converts
        rw [step, Component.planPages_answers here (converts _ List.mem_cons_self), priceAll, Component.missingBytes]
        cases (c.planPages (rank.need component c count)).getD none with
        | none => rfl
        | some plan =>
          dsimp only [Option.map_some, Option.bind_some]
          rw [ih _ (fun entry member => valid entry (List.mem_cons_of_mem _ member))
            (fun entry member => converts entry (List.mem_cons_of_mem _ member)) (Nat.succ.inj same)]
          cases priceAll _ with
          | none => rfl
          | some more =>
            dsimp only [Option.map_some]
            rw [Nat.add_assoc]

variable {components : Nat} (sound : rank.Sound components)

include sound

theorem map_zip_identities : ([ComponentType.full, .swa].zip rank.state.components).map Prod.snd = rank.state.components := by
  apply List.map_snd_zip
  have few := sound.few
  rw [← sound.count] at few
  exact few

theorem length_identities : ([ComponentType.full, .swa].zip rank.state.components).length = rank.state.components.length := by
  have few := sound.few
  rw [← sound.count] at few
  rw [List.length_zip]
  exact min_eq_right few

theorem length_needs {counts : List Nat} (same : counts.length = components) :
    (rank.needs counts).length = rank.state.components.length := by
  rw [needs, List.length_zipWith, length_identities sound, same, sound.count, min_self]

/-- `required_bytes` neither raises nor does anything but price what the components need. -/
theorem requiredBytes_eq {memory : SglangMemoryRequirement}
    (converts : ∀ entry ∈ reached (rank.state.components.zip (rank.needs memory.forecastPages)), entry.1.ConvertsFor entry.2)
    (same : memory.forecastPages.length = components) :
    rank.requiredBytes memory =
      .ok ((priceAll (rank.state.components.zip (rank.needs memory.forecastPages))).map
        (rank.state.quota.chargedBytes + ·)) := by
  have valid : ∀ entry ∈ [ComponentType.full, .swa].zip rank.state.components, entry.2.Valid :=
    fun entry member => sound.valid entry.2 (List.of_mem_zip member).2
  have converts' := converts
  rw [← map_zip_identities sound, needs] at converts'
  rw [requiredBytes, if_neg (not_not.mpr (same.trans sound.count.symm)),
    addRequired_eq _ valid converts' (by rw [same, length_identities sound, sound.count]), map_zip_identities sound, ← needs]
  cases priced : priceAll (rank.state.components.zip (rank.needs memory.forecastPages)) with
  | none => rfl
  | some bytes =>
    rw [reached_of_priceAll (fun entry member => sound.valid entry.1 (List.of_mem_zip member).1) priced] at converts
    have bounded := priceAll_le sound.valid converts (length_needs sound same) priced
    have charged := sound.charged
    have reserved := sound.reserved
    dsimp only [Option.map_some]
    rw [if_neg (by omega)]

theorem allocationBytes_eq {counts : List Nat}
    (converts : ∀ entry ∈ rank.state.components.zip counts, entry.1.ConvertsFor entry.2)
    (bounded : ∀ count ∈ counts, count < 2 ^ 64) (same : counts.length = components) :
    rank.state.allocationBytes counts =
      .ok ((priceAll (rank.state.components.zip counts)).map (rank.state.quota.chargedBytes + ·)) := by
  have same' := same.trans sound.count.symm
  rw [SglangElasticContextState.allocationBytes,
    SglangElasticContextState.planAllocation_computed sound.valid converts bounded same', priceAll_eq]
  split
  · rfl
  · rw [List.map_fst_zip same'.ge]
    rfl

/-- A rank answers with whether the memory is priced within its quota. -/
theorem localReady_ok {memory : SglangMemoryRequirement} (converts : rank.Converts memory)
    (same : memory.forecastPages.length = components) :
    ∃ ready, rank.localReady memory = .ok ready ∧ (ready = true ↔ rank.Ready memory) := by
  have same' : memory.allocationPages.length = components := memory.covered.length_eq.trans same
  rw [localReady, requiredBytes_eq sound converts.forecast same,
    allocationBytes_eq sound converts.allocation memory.allocation_bounded same', Ready]
  cases priceAll (rank.state.components.zip (rank.needs memory.forecastPages)) with
  | none => exact ⟨false, rfl, by simp⟩
  | some forecast =>
    cases priceAll (rank.state.components.zip memory.allocationPages) with
    | none => exact ⟨false, rfl, by simp⟩
    | some immediate =>
      refine ⟨_, rfl, ?_⟩
      rw [decide_eq_true_eq, Nat.add_max_add_left]
      simp

omit sound in
theorem needs_mono {few many : List Nat} (fewer : List.Forall₂ (· ≤ ·) few many) :
    List.Forall₂ (· ≤ ·) (rank.needs few) (rank.needs many) := by
  rw [needs, needs]
  generalize [ComponentType.full, .swa].zip rank.state.components = entries
  induction fewer generalizing entries with
  | nil =>
    rw [List.zipWith_nil_right]
    exact .nil
  | cons first rest ih =>
    cases entries with
    | nil => exact .nil
    | cons entry entries =>
      refine .cons ?_ (ih entries)
      change rank.need entry.1 entry.2 _ ≤ rank.need entry.1 entry.2 _
      rw [need, need]
      split
      · exact first
      · exact Nat.sub_le_sub_right first _

/-- Nothing wraps on layouts whose every page and bundle fits. -/
theorem converts_of_fits (fits : ∀ c ∈ rank.state.components, c.layout.Fits) {memory : SglangMemoryRequirement} :
    rank.Converts memory := by
  have each (c : Component) (member : c ∈ rank.state.components) : c.layout.Converts c.candidates :=
    (fits c member).converts fun page listed => (Component.candidate_used (sound.valid c member) listed).2
  constructor
  · intro entry member _ _
    exact each entry.1 (List.of_mem_zip ((List.takeWhile_sublist _).subset member)).1
  · intro entry member _ _
    exact each entry.1 (List.of_mem_zip member).1

variable {memory memory' : SglangMemoryRequirement} (less : memory.Le memory') (ready : rank.Ready memory')
  (converts : rank.Converts memory')

include less ready converts

/-- What is ready converts no more with fewer pages. -/
theorem Converts.fewer : rank.Converts memory := by
  obtain ⟨bytes, bytes', priced, priced', -⟩ := ready
  have valid (counts : List Nat) : ∀ entry ∈ rank.state.components.zip counts, entry.1.Valid :=
    fun entry member => sound.valid entry.1 (List.of_mem_zip member).1
  have needed := converts.forecast
  rw [reached_of_priceAll (valid _) priced] at needed
  constructor
  · intro entry member
    obtain ⟨more, larger, among⟩ := exists_of_mem_zip (needs_mono less.forecast) ((List.takeWhile_sublist _).subset member)
    exact (needed _ among).fewer larger (room_of_priceAll (valid _) priced _ among)
  · intro entry member
    obtain ⟨more, larger, among⟩ := exists_of_mem_zip less.allocation member
    exact (converts.allocation _ among).fewer larger (room_of_priceAll (valid _) priced' _ among)

/-- What is ready stays so with fewer pages. -/
theorem Ready.antitone : rank.Ready memory := by
  obtain ⟨bytes, bytes', priced, priced', room⟩ := ready
  have needed := converts.forecast
  rw [reached_of_priceAll (fun entry member => sound.valid entry.1 (List.of_mem_zip member).1) priced] at needed
  obtain ⟨fewer, le, found⟩ := priceAll_mono sound.valid (needs_mono less.forecast) needed priced
  obtain ⟨fewer', le', found'⟩ := priceAll_mono sound.valid less.allocation converts.allocation priced'
  exact ⟨fewer, fewer', found, found', (Nat.add_le_add_left (max_le_max le le') _).trans room⟩

end Votes

end CapacityRank

/-- The ranks answer together. -/
theorem memoryReady_ok {ranks : List CapacityRank} {components : Nat} (sound : ∀ rank ∈ ranks, rank.Sound components)
    {memory : SglangMemoryRequirement} (converts : ∀ rank ∈ ranks, rank.Converts memory)
    (same : memory.forecastPages.length = components) :
    ∃ ready, memoryReady ranks memory = .ok ready ∧ (ready = true ↔ ∀ rank ∈ ranks, rank.Ready memory) := by
  have answers : ∀ rank ∈ ranks, ∃ ready, rank.localReady memory = .ok ready := by
    intro rank member
    obtain ⟨ready, answered, -⟩ := CapacityRank.localReady_ok (sound rank member) (converts rank member) same
    exact ⟨ready, answered⟩
  obtain ⟨votes, voted⟩ := mapM_returns answers
  refine ⟨votes.all id, by rw [memoryReady, voted]; rfl, ?_⟩
  rw [List.all_eq_true]
  constructor
  · intro all rank member
    obtain ⟨ready, among, answered⟩ := exists_mem_of_mapM voted member
    obtain ⟨ready', answered', iff⟩ := CapacityRank.localReady_ok (sound rank member) (converts rank member) same
    obtain rfl := Except.ok.inj (answered.symm.trans answered')
    exact iff.mp (all ready among)
  · intro all ready among
    obtain ⟨rank, member, answered⟩ := exists_of_mem_mapM voted among
    obtain ⟨ready', answered', iff⟩ := CapacityRank.localReady_ok (sound rank member) (converts rank member) same
    obtain rfl := Except.ok.inj (answered.symm.trans answered')
    exact iff.mpr (all rank member)

/-! ## Proposals -/

/-- The proposal is made of these page vectors. -/
structure Made (pages : PrefillAdder.PrefillPages) (admission : PrefillAdmission) (proposal : SglangPrefillProposal) :
    Prop where
  admission : proposal.admission = admission
  forecast : proposal.memory.forecastPages = pages.forecast.map Int.toNat
  allocation : proposal.memory.allocationPages = pages.allocation.map Int.toNat
  preparation : proposal.preparationPages = pages.preparation.map Int.toNat
  bounded : ∀ count ∈ pages.allocation, 0 ≤ count ∧ count < 2 ^ 64

theorem ensureUint64_eq_ok {values : List Int} {found : List Nat} :
    ensureUint64 values = .ok found ↔ (∀ value ∈ values, 0 ≤ value ∧ value < 2 ^ 64) ∧ values.map Int.toNat = found := by
  have all : values.all (fun value => 0 ≤ value && value < 2 ^ 64) = true ↔ ∀ value ∈ values, 0 ≤ value ∧ value < 2 ^ 64 := by
    simp
  rw [ensureUint64, ← all]
  split
  · next inside =>
    simp only [inside, true_and]
    constructor
    · intro returned
      exact Except.ok.inj returned
    · intro same
      rw [same]
      rfl
  · next outside =>
    constructor
    · intro raised
      cases raised
    · rintro ⟨inside, -⟩
      exact absurd inside outside

theorem forall₂_toNat {few many : List Int} (fewer : List.Forall₂ (· ≤ ·) few many) :
    List.Forall₂ (· ≤ ·) (few.map Int.toNat) (many.map Int.toNat) := by
  rw [List.forall₂_map_left_iff, List.forall₂_map_right_iff]
  exact fewer.imp fun _ _ => Int.toNat_le_toNat

theorem bounded_toNat {values : List Int} (most : ∀ value ∈ values, value < 2 ^ 64) :
    ∀ count ∈ values.map Int.toNat, count < 2 ^ 64 := by
  intro count member
  obtain ⟨value, among, rfl⟩ := List.mem_map.mp member
  have := most value among
  omega

theorem forall₂_trans {few more many : List Int} (first : List.Forall₂ (· ≤ ·) few more)
    (second : List.Forall₂ (· ≤ ·) more many) : List.Forall₂ (· ≤ ·) few many := by
  induction first generalizing many with
  | nil => exact second
  | cons less rest ih =>
    cases second with
    | cons less' rest' => exact .cons (less.trans less') (ih rest')

theorem forall₂_nonneg {few many : List Int} (fewer : List.Forall₂ (· ≤ ·) few many) (least : ∀ count ∈ few, 0 ≤ count) :
    ∀ count ∈ many, 0 ≤ count := by
  induction fewer with
  | nil => exact least
  | cons first rest ih =>
    intro count member
    rcases List.mem_cons.mp member with rfl | later
    · exact (least _ List.mem_cons_self).trans first
    · exact ih (fun count among => least count (List.mem_cons_of_mem _ among)) count later

theorem forall₂_lt {few many : List Int} {limit : Int} (fewer : List.Forall₂ (· ≤ ·) few many)
    (most : ∀ count ∈ many, count < limit) : ∀ count ∈ few, count < limit := by
  induction fewer with
  | nil => exact most
  | cons first rest ih =>
    intro count member
    rcases List.mem_cons.mp member with rfl | later
    · exact first.trans_lt (most _ List.mem_cons_self)
    · exact ih (fun count among => most count (List.mem_cons_of_mem _ among)) count later

namespace PrefillAdder

variable {a : PrefillAdder} {request : Req} {admission : PrefillAdmission} {continuation : Bool}

theorem made_of_proposal {proposal : SglangPrefillProposal}
    (proposed : a.proposalForAdmission request admission continuation = .ok proposal) :
    ∃ selected, a.selectedPages = .ok selected ∧
      Made (a.prefillPages selected request admission continuation) admission proposal := by
  simp only [proposalForAdmission, SglangMemoryRequirement.create, SglangPrefillProposal.create, bind_eq_ok] at proposed
  obtain ⟨selected, committed, memory, ⟨forecast, forecasted, allocation, allocated, created⟩, preparation, prepared,
    made⟩ := proposed
  obtain ⟨-, rfl⟩ := ensureUint64_eq_ok.mp forecasted
  obtain ⟨bounded, rfl⟩ := ensureUint64_eq_ok.mp allocated
  obtain ⟨-, rfl⟩ := ensureUint64_eq_ok.mp prepared
  split at created
  · cases created
    split at made
    · cases made
      exact ⟨selected, committed, rfl, rfl, rfl, rfl, bounded⟩
    · cases made
  · cases created

/-- Ordered 64-bit vectors make a proposal. -/
theorem proposal_of_ordered {selected : Int} (committed : a.selectedPages = .ok selected)
    (least : ∀ count ∈ (a.prefillPages selected request admission continuation).allocation, 0 ≤ count)
    (acquires : List.Forall₂ (· ≤ ·) (a.prefillPages selected request admission continuation).allocation
      (a.prefillPages selected request admission continuation).preparation)
    (foreseen : List.Forall₂ (· ≤ ·) (a.prefillPages selected request admission continuation).preparation
      (a.prefillPages selected request admission continuation).forecast)
    (most : ∀ count ∈ (a.prefillPages selected request admission continuation).forecast, count < 2 ^ 64) :
    ∃ proposal, a.proposalForAdmission request admission continuation = .ok proposal := by
  have least' := forall₂_nonneg acquires least
  have most' := forall₂_lt foreseen most
  have forecasted := ensureUint64_eq_ok.mpr ⟨fun count member => ⟨forall₂_nonneg foreseen least' count member, most count member⟩, rfl⟩
  have prepared := ensureUint64_eq_ok.mpr ⟨fun count member => ⟨least' count member, most' count member⟩, rfl⟩
  have allocated := ensureUint64_eq_ok.mpr ⟨fun count member => ⟨least count member, forall₂_lt acquires most' count member⟩, rfl⟩
  have valid := And.intro (bounded_toNat most) (forall₂_toNat (forall₂_trans acquires foreseen))
  have ordered := And.intro (forall₂_toNat acquires) (forall₂_toNat foreseen)
  refine ⟨⟨admission, ⟨_, _, valid.1, valid.2⟩, _, ordered.1, ordered.2⟩, ?_⟩
  simp only [proposalForAdmission, SglangMemoryRequirement.create, SglangPrefillProposal.create, bind_eq_ok]
  exact ⟨selected, committed, _, ⟨_, forecasted, _, allocated, dif_pos valid⟩, _, prepared, dif_pos ordered⟩

section Ordered

variable (engine : a.Engine)

include engine

theorem acquired_nonneg {selected : Int} (committed : a.selectedPages = .ok selected) :
    ∀ count ∈ (a.prefillPages selected request admission continuation).allocation, 0 ≤ count := by
  have start := selectedPages_nonneg engine committed
  have extent := pagesBetween_nonneg engine admission.prefixLen (admission.prefixLen + admission.extendLen) (by omega)
  have acquired : ∀ count ∈ List.replicate a.components
      (a.pagesBetween admission.prefixLen (admission.prefixLen + admission.extendLen) + selected), 0 ≤ count := by
    intro count member
    rw [List.eq_of_mem_replicate member]
    exact add_nonneg extent start
  cases continuation with
  | true => exact acquired
  | false =>
    rw [prefillPages]
    simp only [Bool.false_eq_true, if_false]
    split <;> exact acquired

/-- Within the request's fill, acquisition, preparation and forecast are ordered. -/
theorem prefillPages_ordered (continuation : Bool) (selected : Int)
    (within : admission.prefixLen + admission.extendLen ≤ request.fillLen) :
    List.Forall₂ (· ≤ ·) (a.prefillPages selected request admission continuation).allocation
        (a.prefillPages selected request admission continuation).preparation ∧
      List.Forall₂ (· ≤ ·) (a.prefillPages selected request admission continuation).preparation
        (a.prefillPages selected request admission continuation).forecast := by
  have within' : (admission.prefixLen : Int) + admission.extendLen ≤
      admission.prefixLen + ((request.fillLen : Int) - admission.prefixLen) := by
    have : ((admission.prefixLen + admission.extendLen : Nat) : Int) ≤ request.fillLen := by exact_mod_cast within
    omega
  have acquired := pagesBetween_mono engine admission.prefixLen within'
  have same (pages : List Int) : List.Forall₂ (· ≤ ·) pages pages := List.forall₂_same.mpr fun count _ => le_refl count
  cases continuation with
  | true => exact ⟨same _, same _⟩
  | false =>
    cases window : a.isHybridSwa with
    | true =>
      simp only [prefillPages, window, components, Bool.false_eq_true, if_false, if_true]
      refine ⟨.cons ?_ (.cons (le_max_left _ _) .nil), .cons (le_max_left _ _) (.cons (le_max_left _ _) .nil)⟩
      omega
    | false =>
      simp only [prefillPages, window, components, Bool.false_eq_true, if_false]
      refine ⟨.cons ?_ .nil, .cons (le_max_left _ _) .nil⟩
      omega

/-- The constructors raise only at page counts that are not 64-bit. -/
theorem proposal_iff {selected : Int} (committed : a.selectedPages = .ok selected)
    (within : admission.prefixLen + admission.extendLen ≤ request.fillLen) :
    (∃ proposal, a.proposalForAdmission request admission continuation = .ok proposal) ↔
      ∀ count ∈ (a.prefillPages selected request admission continuation).forecast, count < 2 ^ 64 := by
  obtain ⟨acquires, foreseen⟩ := prefillPages_ordered engine continuation selected within
  constructor
  · rintro ⟨proposal, proposed⟩
    simp only [proposalForAdmission, SglangMemoryRequirement.create, bind_eq_ok] at proposed
    obtain ⟨selected', committed', memory, ⟨forecast, forecasted, -⟩, -⟩ := proposed
    obtain rfl := Except.ok.inj (committed.symm.trans committed')
    obtain ⟨bounded, -⟩ := ensureUint64_eq_ok.mp forecasted
    exact fun count member => (bounded count member).2
  · exact proposal_of_ordered committed (acquired_nonneg engine committed) acquires foreseen

end Ordered

/-! ## Chunk limits -/

/-- What the budgets of the adder leave to a chunk, apart from its limit. -/
def room (a : PrefillAdder) : Int :=
  if a.isHybridSwa then min (Int.tdiv a.remTotalTokens.num a.remTotalTokens.den) (a.remSwaTokens - a.pageSize)
  else Int.tdiv a.remTotalTokens.num a.remTotalTokens.den

def remaining (request : Req) : Int :=
  request.fillLen - request.prefixLen

def chunkAdmission (a : PrefillAdder) (request : Req) (extent : Int) : PrefillAdmission where
  prefixLen := request.prefixLen
  extendLen := extent.toNat
  maxNewTokens := if extent < remaining request then 0 else min request.maxNewTokens a.clipMaxNewTokens
  isChunked := extent < remaining request

theorem proposeChunk_eq (limit : Option Int) :
    a.proposeChunk request limit =
      if min (limit.getD (remaining request)) a.room ≤ 0 then .ok (.inl .noToken)
      else do
        return .inr (← a.proposalForAdmission request
          (a.chunkAdmission request (min (remaining request) (min (limit.getD (remaining request)) a.room))) true) := by
  have budget : (if a.isHybridSwa then
      min (min (limit.getD (remaining request)) (Int.tdiv a.remTotalTokens.num a.remTotalTokens.den))
        (a.remSwaTokens - a.pageSize)
      else min (limit.getD (remaining request)) (Int.tdiv a.remTotalTokens.num a.remTotalTokens.den)) =
      min (limit.getD (remaining request)) a.room := by
    rw [room]
    split
    · exact min_assoc _ _ _
    · rfl
  rw [← budget]
  simp only [proposeChunk, chunkAdmission, remaining, decide_eq_true_eq]
  rfl

/-- The extent of a chunk at a limit. -/
def extentAt (a : PrefillAdder) (request : Req) (limit : Option Int) : Int :=
  min (remaining request) (min (limit.getD (remaining request)) a.room)

/-- A proposed chunk has its limit's extent and acquires what it foresees. -/
structure Chunk (a : PrefillAdder) (request : Req) (extent : Int) (proposal : SglangPrefillProposal) : Prop where
  extendLen : proposal.admission.extendLen = extent.toNat
  pages : ∃ selected, a.selectedPages = .ok selected ∧
    Made (a.prefillPages selected request (a.chunkAdmission request extent) true) (a.chunkAdmission request extent) proposal

theorem chunk_of_proposal {limit : Option Int} {proposal : SglangPrefillProposal}
    (proposed : a.proposeChunk request limit = .ok (.inr proposal)) :
    0 < min (limit.getD (remaining request)) a.room ∧
      a.proposalForAdmission request (a.chunkAdmission request (a.extentAt request limit)) true = .ok proposal ∧
        a.Chunk request (a.extentAt request limit) proposal := by
  rw [proposeChunk_eq] at proposed
  split at proposed
  · cases proposed
  · next positive =>
    simp only [bind_eq_ok] at proposed
    obtain ⟨proposal', returned, same⟩ := proposed
    cases same
    obtain ⟨selected, committed, made⟩ := made_of_proposal returned
    refine ⟨not_le.mp positive, returned, ?_, selected, committed, made⟩
    rw [made.admission]
    rfl

/-- A chunk with a shorter extent takes no more memory. -/
theorem Chunk.memory_le (engine : a.Engine) {few many : Int} (fewer : few ≤ many)
    {proposal proposal' : SglangPrefillProposal} (chunk : a.Chunk request few proposal)
    (chunk' : a.Chunk request many proposal') : proposal.memory.Le proposal'.memory := by
  obtain ⟨selected, committed, made⟩ := chunk.pages
  obtain ⟨selected', committed', made'⟩ := chunk'.pages
  obtain rfl := Except.ok.inj (committed.symm.trans committed')
  have acquired := acquired_mono engine selected (a.chunkAdmission request few) (a.chunkAdmission request many) rfl
    (Int.toNat_le_toNat fewer)
  have pages := forall₂_toNat (replicate_mono a.components acquired)
  constructor
  · rw [made.forecast, made'.forecast]
    exact pages
  · rw [made.allocation, made'.allocation]
    exact pages

/-- Below the extent of a proposed chunk every positive limit is the extent of another. -/
theorem chunk_below (engine : a.Engine) {limit : Option Int} {original : SglangPrefillProposal}
    (proposed : a.proposeChunk request limit = .ok (.inr original)) {smaller : Int} (positive : 0 < smaller)
    (below : smaller < a.extentAt request limit) :
    ∃ proposal, a.proposeChunk request (some smaller) = .ok (.inr proposal) ∧ a.Chunk request smaller proposal := by
  obtain ⟨-, -, chunk⟩ := chunk_of_proposal proposed
  obtain ⟨selected, committed, made⟩ := chunk.pages
  rw [extentAt] at below
  have budget : min smaller a.room = smaller := by omega
  have extent : a.extentAt request (some smaller) = smaller := by
    rw [extentAt, Option.getD_some]
    omega
  have within : (a.chunkAdmission request smaller).prefixLen + (a.chunkAdmission request smaller).extendLen ≤
      request.fillLen := by
    have short : smaller < remaining request := by omega
    rw [remaining] at short
    change request.prefixLen + smaller.toNat ≤ request.fillLen
    omega
  have acquired := acquired_mono engine selected (a.chunkAdmission request smaller)
    (a.chunkAdmission request (a.extentAt request limit)) rfl (Int.toNat_le_toNat (by rw [extentAt]; omega))
  have bounded : ∀ count ∈ (a.prefillPages selected request (a.chunkAdmission request smaller) true).forecast,
      count < 2 ^ 64 :=
    forall₂_lt (replicate_mono a.components acquired) fun count member => (made.bounded count member).2
  obtain ⟨proposal, returned⟩ := (proposal_iff engine committed within).mpr bounded
  have proposed' : a.proposeChunk request (some smaller) = .ok (.inr proposal) := by
    rw [proposeChunk_eq, if_neg (by rw [Option.getD_some]; omega)]
    rw [extentAt] at extent
    rw [extent, returned]
    rfl
  refine ⟨proposal, proposed', ?_⟩
  obtain ⟨-, -, chunk'⟩ := chunk_of_proposal proposed'
  rwa [extent] at chunk'

/-- Between the extent and the limit nothing changes. -/
theorem proposeChunk_above {limit : Int} {original : SglangPrefillProposal}
    (proposed : a.proposeChunk request (some limit) = .ok (.inr original)) {smaller : Int} (positive : 0 < smaller)
    (below : smaller < limit) (above : a.extentAt request (some limit) ≤ smaller) :
    a.proposeChunk request (some smaller) = .ok (.inr original) := by
  obtain ⟨room, returned, -⟩ := chunk_of_proposal proposed
  rw [extentAt, Option.getD_some] at *
  have extent : min (remaining request) (min smaller a.room) = min (remaining request) (min limit a.room) := by omega
  rw [proposeChunk_eq, Option.getD_some, if_neg (by omega), extent, returned]
  rfl

/-- At a limit that is not positive there is no chunk. -/
theorem proposeChunk_nonpos {smaller : Int} (nonpos : smaller ≤ 0) :
    a.proposeChunk request (some smaller) = .ok (.inl .noToken) := by
  rw [proposeChunk_eq, Option.getD_some, if_pos (by omega)]

end PrefillAdder

/-! ## The search -/

section Search

variable {ranks : List CapacityRank} {a : PrefillAdder} {request : Req} {limit : Option Int}
  {original : SglangPrefillProposal}

/-- The limit lies below the original one. -/
def Smaller (limit : Option Int) (smaller : Int) : Prop :=
  ∃ bound, limit = some bound ∧ smaller < bound

/-- The proposal at the limit is ready on all ranks. -/
def ReadyAt (ranks : List CapacityRank) (a : PrefillAdder) (request : Req) (smaller : Int)
    (proposal : SglangPrefillProposal) : Prop :=
  a.proposeChunk request (some smaller) = .ok (.inr proposal) ∧ memoryReady ranks proposal.memory = .ok true

/-- The proposal of the largest limit below the original that is ready, if there is one. -/
def LargestReady (ranks : List CapacityRank) (a : PrefillAdder) (request : Req) (limit : Option Int) :
    Option SglangPrefillProposal → Prop
  | none => ∀ smaller proposal, Smaller limit smaller → ¬ReadyAt ranks a request smaller proposal
  | some chosen => ∃ largest, Smaller limit largest ∧ ReadyAt ranks a request largest chosen ∧
      ∀ smaller proposal, largest < smaller → Smaller limit smaller → ¬ReadyAt ranks a request smaller proposal

variable (engine : a.Engine) (sound : ∀ rank ∈ ranks, rank.Sound a.components)

include sound

theorem memoryReady_of_chunk {extent : Int} {proposal : SglangPrefillProposal} (chunk : a.Chunk request extent proposal)
    (converts : ∀ rank ∈ ranks, rank.Converts proposal.memory) :
    ∃ ready, memoryReady ranks proposal.memory = .ok ready ∧
      (ready = true ↔ ∀ rank ∈ ranks, rank.Ready proposal.memory) := by
  obtain ⟨selected, -, made⟩ := chunk.pages
  apply memoryReady_ok sound converts
  rw [made.forecast, List.length_map]
  exact List.length_replicate

/-- Readiness of a larger requirement is readiness of a smaller one. -/
theorem memoryReady_antitone {memory memory' : SglangMemoryRequirement} (less : memory.Le memory')
    (converts : ∀ rank ∈ ranks, rank.Converts memory') (ready : memoryReady ranks memory' = .ok true) : memoryReady ranks memory = .ok true := by
  cases ranks with
  | nil => rfl
  | cons rank ranks =>
    have same : memory'.forecastPages.length = a.components := by
      simp only [memoryReady, bind_eq_ok] at ready
      obtain ⟨votes, voted, -⟩ := ready
      obtain ⟨vote, -, answered⟩ := exists_mem_of_mapM voted List.mem_cons_self
      simp only [CapacityRank.localReady, bind_eq_ok] at answered
      obtain ⟨forecast, required, -⟩ := answered
      rw [CapacityRank.requiredBytes] at required
      split at required
      · cases required
      · next same => exact (not_not.mp same).trans (sound rank List.mem_cons_self).count
    obtain ⟨all', answered', iff'⟩ := memoryReady_ok sound converts same
    obtain rfl := Except.ok.inj (ready.symm.trans answered')
    have each := iff'.mp rfl
    obtain ⟨all, answered, iff⟩ := memoryReady_ok sound
      (fun rank member => CapacityRank.Converts.fewer (sound rank member) less (each rank member) (converts rank member))
      (less.forecast.length_eq.trans same)
    rw [answered, iff.mpr fun rank member =>
      CapacityRank.Ready.antitone (sound rank member) less (each rank member) (converts rank member)]

/-- What the probes of the search convert, at the limit and below, comes out as without wrapping. -/
structure SearchConverts (ranks : List CapacityRank) (a : PrefillAdder) (request : Req) (limit : Option Int)
    (original : SglangPrefillProposal) : Prop where
  original : ∀ rank ∈ ranks, rank.Converts original.memory
  smaller : ∀ smaller proposal, Smaller limit smaller → a.proposeChunk request (some smaller) = .ok (.inr proposal) →
    ∀ rank ∈ ranks, rank.Converts proposal.memory

variable (converts : SearchConverts ranks a request limit original)

include engine converts

/-- The probes of the search answer, with a proposal each. -/
theorem probe_below (proposed : a.proposeChunk request limit = .ok (.inr original)) {smaller : Int} (positive : 0 < smaller)
    (less : Smaller limit smaller) (below : smaller < a.extentAt request limit) :
    ∃ proposal ready, (a.proposeChunk request (some smaller) = .ok (.inr proposal) ∧
        memoryReady ranks proposal.memory = .ok ready) ∧ a.Chunk request smaller proposal ∧
      probeLimit ranks (a.proposeChunk request) (some smaller) = .ok (.inr (proposal, ready)) := by
  obtain ⟨proposal, proposed', chunk⟩ := PrefillAdder.chunk_below engine proposed positive below
  obtain ⟨ready, answered, -⟩ := memoryReady_of_chunk sound chunk (converts.smaller smaller proposal less proposed')
  refine ⟨proposal, ready, ⟨proposed', answered⟩, chunk, ?_⟩
  rw [probeLimit, proposed']
  change (memoryReady ranks proposal.memory >>= _) = _
  rw [answered]
  rfl

/-- The bisection of rejected memory finds the largest ready limit. -/
theorem search_ok (proposed : a.proposeChunk request limit = .ok (.inr original))
    (rejected : memoryReady ranks original.memory = .ok false) :
    ∃ selected, selectPrefill ranks (a.proposeChunk request) limit = .ok (.inr (original, selected)) ∧
      LargestReady ranks a request limit selected := by
  obtain ⟨-, -, chunk⟩ := PrefillAdder.chunk_of_proposal proposed
  have extendLen := chunk.extendLen
  let past := (min (limit.getD 0) (original.admission.extendLen - 1 : Int) + 1).toNat
  let verdict (middle : Nat) : Verdict SglangPrefillProposal :=
    match probeLimit ranks (a.proposeChunk request) (some middle) with
    | .ok answer => steer answer
    | .error _ => .lower
  -- Within the interval each probe is about a chunk of just that extent.
  have downward (middle : Nat) (first : 1 ≤ middle) (last : middle < past) : Smaller limit middle := by
    simp only [past, extendLen] at last
    cases limit with
    | none =>
      rw [Option.getD_none] at last
      omega
    | some bound =>
      rw [PrefillAdder.extentAt, Option.getD_some, Option.getD_some] at last
      exact ⟨bound, rfl, by omega⟩
  have probed (middle : Nat) (first : 1 ≤ middle) (last : middle < past) :
      ∃ proposal ready, (a.proposeChunk request (some middle) = .ok (.inr proposal) ∧
          memoryReady ranks proposal.memory = .ok ready) ∧ a.Chunk request middle proposal ∧
        probeLimit ranks (a.proposeChunk request) (some middle) = .ok (.inr (proposal, ready)) := by
    have below : (middle : Int) < a.extentAt request limit := by
      simp only [past, extendLen] at last
      omega
    exact probe_below engine sound converts proposed (by omega) (downward middle first last) below
  have selected_iff (middle : Nat) (first : 1 ≤ middle) (last : middle < past) (candidate : SglangPrefillProposal) :
      verdict middle = .select candidate ↔ ReadyAt ranks a request middle candidate := by
    obtain ⟨proposal, ready, ⟨proposed', answered⟩, -, probe⟩ := probed middle first last
    simp only [verdict, probe, ReadyAt, proposed']
    cases ready with
    | true =>
      simp only [steer, Verdict.select.injEq, Except.ok.injEq, Sum.inr.injEq]
      constructor
      · rintro rfl
        exact ⟨rfl, answered⟩
      · rintro ⟨same, -⟩
        exact same
    | false =>
      simp only [steer, Except.ok.injEq, Sum.inr.injEq]
      constructor
      · intro impossible
        cases impossible
      · rintro ⟨rfl, answered'⟩
        cases answered.symm.trans answered'
  have searchable : Searchable verdict 1 past := by
    constructor
    · intro middle chosen candidate first fewer last selected lower
      obtain ⟨proposed₁, ready₁⟩ := (selected_iff chosen (first.trans fewer) last candidate).mp selected
      obtain ⟨proposal, ready, ⟨-, answered⟩, chunk', probe⟩ := probed middle first (fewer.trans_lt last)
      obtain ⟨proposal', ready', ⟨proposed', -⟩, chunk'', -⟩ := probed chosen (first.trans fewer) last
      obtain rfl := Sum.inr.inj (Except.ok.inj (proposed₁.symm.trans proposed'))
      have less := PrefillAdder.Chunk.memory_le engine (by exact_mod_cast fewer) chunk' chunk''
      have converts' := converts.smaller chosen _ (downward chosen (first.trans fewer) last) proposed₁
      obtain rfl := Except.ok.inj (answered.symm.trans (memoryReady_antitone sound less converts' ready₁))
      simp only [verdict, probe, steer] at lower
      cases lower
    · intro middle chosen candidate first fewer last selected higher
      obtain ⟨proposal, ready, -, -, probe⟩ := probed middle (first.trans fewer) last
      simp only [verdict, probe] at higher
      cases ready <;> cases higher
  have answers : ∀ middle, 1 ≤ middle → middle < past →
      (do return steer (← probeLimit ranks (a.proposeChunk request) (some (middle : Int))) :
        Except Failure (Verdict SglangPrefillProposal)) = .ok (verdict middle) := by
    intro middle first last
    obtain ⟨proposal, ready, -, -, probe⟩ := probed middle first last
    simp only [verdict, probe]
    rfl
  obtain ⟨found, searched, largest⟩ := bisect_ok none searchable answers
  refine ⟨found, ?_, ?_⟩
  · have first : probeLimit ranks (a.proposeChunk request) limit = .ok (.inr (original, false)) := by
      rw [probeLimit, proposed]
      change (memoryReady ranks original.memory >>= _) = _
      rw [rejected]
      rfl
    rw [selectPrefill, first]
    change (bisect _ 1 past none >>= _) = _
    rw [searched, Option.or_none]
    rfl
  -- What is ready below the limit lies within the interval.
  have inside {smaller : Int} {proposal : SglangPrefillProposal} (less : Smaller limit smaller)
      (ready : ReadyAt ranks a request smaller proposal) :
      ∃ middle : Nat, (middle : Int) = smaller ∧ 1 ≤ middle ∧ middle < past := by
    obtain ⟨bound, rfl, below⟩ := less
    obtain ⟨proposed', answered⟩ := ready
    by_cases positive : 0 < smaller
    · by_cases above : a.extentAt request (some bound) ≤ smaller
      · have same := PrefillAdder.proposeChunk_above proposed positive below above
        obtain rfl := Sum.inr.inj (Except.ok.inj (same.symm.trans proposed'))
        cases rejected.symm.trans answered
      · refine ⟨smaller.toNat, by omega, by omega, ?_⟩
        simp only [past, extendLen, Option.getD_some]
        omega
    · rw [PrefillAdder.proposeChunk_nonpos (not_lt.mp positive)] at proposed'
      cases proposed'
  cases found with
  | none =>
    intro smaller proposal less ready
    obtain ⟨middle, rfl, first, last⟩ := inside less ready
    exact largest middle proposal first last ((selected_iff middle first last proposal).mpr ready)
  | some chosen =>
    obtain ⟨middle, ⟨first, last⟩, selected, beyond⟩ := largest
    refine ⟨middle, downward middle first last, (selected_iff middle first last chosen).mp selected, ?_⟩
    intro smaller proposal above less ready
    obtain ⟨other, rfl, first', last'⟩ := inside less ready
    exact beyond other proposal (by exact_mod_cast above) last' ((selected_iff other first' last' proposal).mpr ready)

end Search

/-- An adder over whole pages that has selected nothing yet. -/
def fresh (pageSize freePages : Nat) : PrefillAdder where
  pageSize := pageSize
  isHybridSwa := false
  canRunList := []
  remTotalTokenOffset := 0
  curRemTokenOffset := 0
  remSwaTokenOffset := 0
  admissionFreePages := fun _ => freePages
  evictableSize := fun _ => 0
  slidingWindowSize := 0
  chunkedPrefillSize := none
  clipMaxNewTokens := 4096
  ceilPagedTokens := fun tokens => -(-tokens / pageSize) * pageSize
  swaNewTokens := fun request => request.maxNewTokens
  swaBudgetForReq := fun extend swaNewTokens => extend + swaNewTokens

theorem fresh_engine {pageSize freePages : Nat} (positive : 0 < pageSize) : (fresh pageSize freePages).Engine where
  pageSize_pos := positive
  ceil_eq := by
    intro tokens
    rfl
  budget_mono := by
    intro few many swaNewTokens fewer
    exact add_le_add_left fewer swaNewTokens
  extents := by
    intro first past member
    cases member

/-- A rank with three pages that are not backed, under a quota of so many bundles. -/
def spare (l : KvVmmLayout) (bundles : Nat) : CapacityRank where
  state := {
    quota := ⟨bundles * l.bundleBytes, l.bundleBytes⟩
    components := [SglangElasticContextState.idle l]
    outcomes := fun _ => .success
    calls := 0
    overdrawn := false }
  cache := none

theorem spare_sound {l : KvVmmLayout} {bundles : Nat} (three : 3 ≤ l.lastPage) (some' : 0 < l.bundleCapacity)
    (reserved : l.bundleCapacity * l.bundleBytes < 2 ^ 64) : (spare l bundles).Sound 1 where
  valid := by
    intro c member
    obtain rfl := List.mem_singleton.mp member
    exact SglangElasticContextState.idle_valid three some'
  count := rfl
  few := Nat.le_succ 1
  charged := by
    change l.bundleBytes = 1 * l.bundleBytes + 0
    omega
  reserved := by
    change l.bundleCapacity * l.bundleBytes + 0 < 2 ^ 64
    omega

/-- The chunk of the first pages of a request, of one token each. -/
def firstPages (count maxNewTokens : Nat) (isChunked : Bool) (bounded : count < 2 ^ 64) : SglangPrefillProposal where
  admission := ⟨0, count, maxNewTokens, isChunked⟩
  memory := ⟨[count], [count], by simpa using bounded, by simp⟩
  preparationPages := [count]
  acquires := by simp
  foreseen := by simp

end CrossPool.Ecs.Vmm
