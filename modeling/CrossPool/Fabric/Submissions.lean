import CrossPool.Fabric.Ledger
import CrossPool.Fabric.Generation
import Mathlib.Algebra.BigOperators.Group.Finset.Basic

/-!
# Well-formed submissions

What the ranks of an Instance have to submit for the rendezvous to be Ready, stated
without the loop over DP ranks, and that the loop finds just this. The loop carries what
the DP ranks gone through add up to.
-/

namespace CrossPool.Fabric

open CrossPool.Transport (ForwardMode OutputRequirement DpRowLayout)
open CrossPool.Lib

/-! ## One row layout -/

/-- How the DP ranks' rows and modes split the rows of an invocation. A single DP rank
holds all rows; several pack theirs one after the other, where an idle rank has none, or
hold the same number each. -/
def Splits (layout : DpRowLayout) (payloadRows dpSize : Nat) (rows : Nat → Nat) (mode : Nat → ForwardMode) : Prop :=
  match layout with
  | .none => dpSize = 1 ∧ rows 0 = payloadRows
  | .packedByRank =>
    ∑ dpRank ∈ Finset.range dpSize, rows dpRank = payloadRows ∧ ∀ dpRank < dpSize, rows dpRank = 0 ↔ mode dpRank = .idle
  | .uniformByRank => payloadRows = dpSize * rows 0 ∧ ∀ dpRank < dpSize, rows dpRank ≠ 0 ∧ rows dpRank = rows 0
  | .other _ _ => False

/-- Every TP rank of a DP rank has the rows and the mode of its first. -/
def Replicated (tpSize dpSize : Nat) (record : Nat → Submission) : Prop :=
  ∀ dpRank < dpSize, ∀ tpRank < tpSize,
    (record (dpRank * tpSize + tpRank)).dpRankPayloadRows = (record (dpRank * tpSize)).dpRankPayloadRows ∧
      (record (dpRank * tpSize + tpRank)).forwardMode = (record (dpRank * tpSize)).forwardMode

section Rows

variable {i : Instance} {record : Nat → Submission} {canonical : Submission}

/-- What the loop asks of one DP rank, apart from the room left for its rows. -/
structure RankFits (i : Instance) (record : Nat → Submission) (canonical : Submission) (dpRank : Nat) : Prop where
  single : canonical.dpRowLayout = .none →
    (record (dpRank * i.atnTpSize)).forwardMode ≠ .idle ∧
      (record (dpRank * i.atnTpSize)).dpRankPayloadRows = canonical.payloadRows
  packed : canonical.dpRowLayout = .packedByRank →
    ((record (dpRank * i.atnTpSize)).forwardMode = .idle ↔ (record (dpRank * i.atnTpSize)).dpRankPayloadRows = 0)
  uniform : canonical.dpRowLayout = .uniformByRank →
    (record (dpRank * i.atnTpSize)).dpRankPayloadRows ≠ 0 ∧
      (record (dpRank * i.atnTpSize)).dpRankPayloadRows = (record 0).dpRankPayloadRows
  replicas : ∀ tpRank < i.atnTpSize,
    (record (dpRank * i.atnTpSize + tpRank)).dpRankPayloadRows = (record (dpRank * i.atnTpSize)).dpRankPayloadRows ∧
      (record (dpRank * i.atnTpSize + tpRank)).forwardMode = (record (dpRank * i.atnTpSize)).forwardMode

/-- What the loop carries after some DP ranks. -/
def rowTotals (i : Instance) (record : Nat → Submission) (canonical : Submission) (bound : Nat) : RowTotals where
  anyPrefill := (List.range bound).any fun dpRank => (record (dpRank * i.atnTpSize)).forwardMode = .prefill
  anyNonIdle := (List.range bound).any fun dpRank => (record (dpRank * i.atnTpSize)).forwardMode ≠ .idle
  packedPayloadRows :=
    if canonical.dpRowLayout = .packedByRank then
      ∑ dpRank ∈ Finset.range bound, (record (dpRank * i.atnTpSize)).dpRankPayloadRows
    else 0
  uniformPayloadRows :=
    if canonical.dpRowLayout = .uniformByRank ∧ bound ≠ 0 then (record 0).dpRankPayloadRows else 0

theorem rowTotals_packed (packed : canonical.dpRowLayout = .packedByRank) (bound : Nat) :
    (rowTotals i record canonical bound).packedPayloadRows =
      ∑ dpRank ∈ Finset.range bound, (record (dpRank * i.atnTpSize)).dpRankPayloadRows :=
  if_pos packed

theorem rowTotals_uniform (uniform : canonical.dpRowLayout = .uniformByRank) {bound : Nat} (some : bound ≠ 0) :
    (rowTotals i record canonical bound).uniformPayloadRows = (record 0).dpRankPayloadRows :=
  if_pos ⟨uniform, some⟩

theorem rowTotals_succ (bound : Nat) :
    rowTotals i record canonical (bound + 1) =
      { anyPrefill := (rowTotals i record canonical bound).anyPrefill || (record (bound * i.atnTpSize)).forwardMode = .prefill
        anyNonIdle := (rowTotals i record canonical bound).anyNonIdle || (record (bound * i.atnTpSize)).forwardMode ≠ .idle
        packedPayloadRows :=
          if canonical.dpRowLayout = .packedByRank then
            (rowTotals i record canonical bound).packedPayloadRows + (record (bound * i.atnTpSize)).dpRankPayloadRows
          else (rowTotals i record canonical bound).packedPayloadRows
        uniformPayloadRows :=
          if canonical.dpRowLayout = .uniformByRank ∧ bound = 0 then (record (bound * i.atnTpSize)).dpRankPayloadRows
          else (rowTotals i record canonical bound).uniformPayloadRows } := by
  simp only [rowTotals, List.range_succ, List.any_append, List.any_cons, List.any_nil, Bool.or_false, RowTotals.mk.injEq,
    true_and]
  constructor
  · split
    · rw [Finset.sum_range_succ]
    · rfl
  · by_cases first : bound = 0
    · simp [first]
    · simp [first]

theorem rowsMismatch_eq_false {dpSubmission : Submission} {dpRank uniformPayloadRows : Nat} :
    rowsMismatch canonical dpSubmission dpRank uniformPayloadRows = false ↔
      (canonical.dpRowLayout = .none →
          dpSubmission.forwardMode ≠ .idle ∧ dpSubmission.dpRankPayloadRows = canonical.payloadRows) ∧
        (canonical.dpRowLayout = .packedByRank →
          (dpSubmission.forwardMode = .idle ↔ dpSubmission.dpRankPayloadRows = 0)) ∧
        (canonical.dpRowLayout = .uniformByRank →
          dpSubmission.dpRankPayloadRows ≠ 0 ∧ (dpRank ≠ 0 → dpSubmission.dpRankPayloadRows = uniformPayloadRows)) := by
  simp only [rowsMismatch]
  cases canonical.dpRowLayout with
  | none => simp
  | uniformByRank => simp
  | packedByRank => simp
  | other word unnamed => simp

/-- The rows of a packed DP rank fit behind those before it. -/
def Room (i : Instance) (record : Nat → Submission) (canonical : Submission) (bound : Nat) : Prop :=
  canonical.dpRowLayout = .packedByRank →
    ∑ dpRank ∈ Finset.range bound, (record (dpRank * i.atnTpSize)).dpRankPayloadRows ≤ canonical.payloadRows

theorem rankFits_iff (bound : Nat) :
    RankFits i record canonical bound ↔
      rowsMismatch canonical (record (bound * i.atnTpSize)) bound (rowTotals i record canonical bound).uniformPayloadRows = false ∧
        ((List.range i.atnTpSize).any fun tpRank =>
          tpRank ≠ 0 &&
            (((record (bound * i.atnTpSize + tpRank)).dpRankPayloadRows ≠ (record (bound * i.atnTpSize)).dpRankPayloadRows) ||
              (record (bound * i.atnTpSize + tpRank)).forwardMode ≠ (record (bound * i.atnTpSize)).forwardMode)) = false := by
  have replicas : ((List.range i.atnTpSize).any fun tpRank =>
      tpRank ≠ 0 &&
        (((record (bound * i.atnTpSize + tpRank)).dpRankPayloadRows ≠ (record (bound * i.atnTpSize)).dpRankPayloadRows) ||
          (record (bound * i.atnTpSize + tpRank)).forwardMode ≠ (record (bound * i.atnTpSize)).forwardMode)) = false ↔
      ∀ tpRank < i.atnTpSize,
        (record (bound * i.atnTpSize + tpRank)).dpRankPayloadRows = (record (bound * i.atnTpSize)).dpRankPayloadRows ∧
          (record (bound * i.atnTpSize + tpRank)).forwardMode = (record (bound * i.atnTpSize)).forwardMode := by
    simp only [List.any_eq_false, List.mem_range, Bool.and_eq_true, Bool.or_eq_true, decide_eq_true_eq, not_and, not_or, ne_eq,
      not_not]
    constructor
    · intro same tpRank small
      by_cases first : tpRank = 0
      · rw [first, Nat.add_zero]
        exact ⟨rfl, rfl⟩
      · exact same tpRank small first
    · intro same tpRank small _
      exact same tpRank small
  rw [replicas, rowsMismatch_eq_false]
  constructor
  · intro fits
    refine ⟨⟨fits.single, fits.packed, ?_⟩, fits.replicas⟩
    intro uniform
    refine ⟨(fits.uniform uniform).1, ?_⟩
    intro later
    rw [(fits.uniform uniform).2, rowTotals_uniform uniform later]
  · rintro ⟨⟨single, packed, uniform⟩, replicas⟩
    refine ⟨single, packed, ?_, replicas⟩
    intro layout
    refine ⟨(uniform layout).1, ?_⟩
    by_cases first : bound = 0
    · rw [first, Nat.zero_mul]
    · rw [(uniform layout).2 first, rowTotals_uniform layout first]

/-- One DP rank after others that have room: the loop goes on just where the rank fits
and there is room for it. -/
theorem inspectDpRank_eq_some {bound : Nat} (room : Room i record canonical bound) {totals : RowTotals} :
    inspectDpRank i record canonical (rowTotals i record canonical bound) bound = some totals ↔
      RankFits i record canonical bound ∧ Room i record canonical (bound + 1) ∧
        totals = rowTotals i record canonical (bound + 1) := by
  have fuller : Room i record canonical (bound + 1) ↔
      ¬(canonical.dpRowLayout = .packedByRank ∧
        canonical.payloadRows - (rowTotals i record canonical bound).packedPayloadRows <
          (record (bound * i.atnTpSize)).dpRankPayloadRows) := by
    rw [not_and]
    apply imp_congr_right
    intro packed
    have before := room packed
    rw [Finset.sum_range_succ, rowTotals_packed packed]
    omega
  rw [rankFits_iff, fuller, inspectDpRank, rowTotals_succ]
  split
  · rename_i mismatch
    simp [mismatch]
  · rename_i matches'
    rw [Bool.not_eq_true] at matches'
    split
    · rename_i full
      constructor
      · intro impossible
        cases impossible
      · rintro ⟨-, free, -⟩
        exact absurd full free
    · rename_i free
      split
      · rename_i differ
        rw [differ]
        simp
      · rename_i same
        rw [Bool.not_eq_true] at same
        rw [Option.some.injEq]
        constructor
        · intro made
          exact ⟨⟨matches', same⟩, free, made.symm⟩
        · rintro ⟨-, -, made⟩
          exact made.symm

/-- The whole loop. -/
theorem foldlM_inspectDpRank (bound : Nat) {totals : RowTotals} :
    (List.range bound).foldlM (inspectDpRank i record canonical) ⟨false, false, 0, 0⟩ = some totals ↔
      (∀ dpRank < bound, RankFits i record canonical dpRank) ∧ Room i record canonical bound ∧
        totals = rowTotals i record canonical bound := by
  induction bound generalizing totals with
  | zero =>
    have start : rowTotals i record canonical 0 = ⟨false, false, 0, 0⟩ := by
      simp [rowTotals]
    rw [start, List.range_zero, List.foldlM_nil]
    change some _ = some totals ↔ _
    rw [Option.some.injEq]
    constructor
    · rintro rfl
      exact ⟨fun _ none => absurd none (Nat.not_lt_zero _), fun _ => by simp, rfl⟩
    · rintro ⟨-, -, rfl⟩
      rfl
  | succ bound ih =>
    rw [List.range_succ, List.foldlM_append, Option.bind_eq_bind, Option.bind_eq_some_iff]
    constructor
    · rintro ⟨before, folded, last⟩
      obtain ⟨fits, room, rfl⟩ := ih.mp folded
      rw [List.foldlM_cons, Option.bind_eq_bind, Option.bind_eq_some_iff] at last
      obtain ⟨after, inspected, made⟩ := last
      obtain ⟨fit, roomier, rfl⟩ := (inspectDpRank_eq_some room).mp inspected
      refine ⟨?_, roomier, (Option.some.inj made).symm⟩
      intro dpRank inside
      rcases Nat.lt_succ_iff_lt_or_eq.mp inside with earlier | rfl
      · exact fits dpRank earlier
      · exact fit
    · rintro ⟨fits, roomier, rfl⟩
      have room : Room i record canonical bound := by
        intro packed
        have later := roomier packed
        rw [Finset.sum_range_succ] at later
        omega
      refine ⟨_, ih.mpr ⟨fun dpRank inside => fits dpRank (Nat.lt_succ_of_lt inside), room, rfl⟩, ?_⟩
      rw [List.foldlM_cons, (inspectDpRank_eq_some room).mpr ⟨fits bound (Nat.lt_succ_self bound), roomier, rfl⟩]
      rfl

/-- The rows and modes of the DP ranks' first records. -/
abbrev dpRows (i : Instance) (record : Nat → Submission) (dpRank : Nat) : Nat :=
  (record (dpRank * i.atnTpSize)).dpRankPayloadRows

abbrev dpMode (i : Instance) (record : Nat → Submission) (dpRank : Nat) : ForwardMode :=
  (record (dpRank * i.atnTpSize)).forwardMode

/-- What the loop finds of the layout, with the checks before and after it. -/
theorem splits_iff (ranked : 0 < i.atnDpSize) (named : canonical.dpRowLayout.isValid)
    (active : ∃ dpRank < i.atnDpSize, dpMode i record dpRank ≠ .idle) :
    (¬((i.atnDpSize = 1 ∧ canonical.dpRowLayout ≠ .none) ∨ (1 < i.atnDpSize ∧ canonical.dpRowLayout = .none)) ∧
        (∀ dpRank < i.atnDpSize, RankFits i record canonical dpRank) ∧ Room i record canonical i.atnDpSize ∧
          ¬((canonical.dpRowLayout = .packedByRank ∧
                (rowTotals i record canonical i.atnDpSize).packedPayloadRows ≠ canonical.payloadRows) ∨
              (canonical.dpRowLayout = .uniformByRank ∧
                (canonical.payloadRows % i.atnDpSize ≠ 0 ∨
                  canonical.payloadRows / i.atnDpSize ≠ (rowTotals i record canonical i.atnDpSize).uniformPayloadRows)))) ↔
      (canonical.dpRowLayout = .none ↔ i.atnDpSize = 1) ∧
        Splits canonical.dpRowLayout canonical.payloadRows i.atnDpSize (dpRows i record) (dpMode i record) ∧
          Replicated i.atnTpSize i.atnDpSize record := by
  have replicas : (∀ dpRank < i.atnDpSize, RankFits i record canonical dpRank) → Replicated i.atnTpSize i.atnDpSize record :=
    fun fits dpRank inside => (fits dpRank inside).replicas
  cases layout : canonical.dpRowLayout with
  | none =>
    constructor
    · rintro ⟨allowed, fits, -, -⟩
      have one : i.atnDpSize = 1 := by
        by_contra several
        exact allowed (.inr ⟨by omega, rfl⟩)
      exact ⟨by simp [one], ⟨one, ((fits 0 ranked).single layout).2⟩, replicas fits⟩
    · rintro ⟨-, ⟨one, whole⟩, replicated⟩
      refine ⟨by simp [one], ?_, by simp [Room, layout], by simp⟩
      intro dpRank inside
      obtain ⟨other, inside', busy⟩ := active
      obtain rfl : dpRank = 0 := by omega
      obtain rfl : other = 0 := by omega
      exact ⟨fun _ => ⟨busy, whole⟩, by simp [layout], by simp [layout], replicated 0 inside⟩
  | packedByRank =>
    constructor
    · rintro ⟨allowed, fits, -, checked⟩
      have several : 1 < i.atnDpSize := by
        by_contra single
        exact allowed (.inl ⟨by omega, by simp⟩)
      have total : (rowTotals i record canonical i.atnDpSize).packedPayloadRows = canonical.payloadRows := by
        by_contra differ
        exact checked (.inl ⟨rfl, differ⟩)
      rw [rowTotals_packed layout] at total
      refine ⟨by simp [several.ne'], ⟨total, ?_⟩, replicas fits⟩
      intro dpRank inside
      exact ((fits dpRank inside).packed layout).symm
    · rintro ⟨several, ⟨total, idle⟩, replicated⟩
      have several : i.atnDpSize ≠ 1 := by
        intro one
        cases several.mpr one
      refine ⟨by simp [several], ?_, fun _ => total.le, ?_⟩
      · intro dpRank inside
        exact ⟨by simp [layout], fun _ => (idle dpRank inside).symm, by simp [layout], replicated dpRank inside⟩
      · rw [rowTotals_packed layout]
        rintro (⟨-, differ⟩ | ⟨impossible, -⟩)
        · exact differ total
        · cases impossible
  | uniformByRank =>
    constructor
    · rintro ⟨allowed, fits, -, checked⟩
      have several : 1 < i.atnDpSize := by
        by_contra single
        exact allowed (.inl ⟨by omega, by simp⟩)
      have first : canonical.payloadRows % i.atnDpSize = 0 := by
        by_contra differ
        exact checked (.inr ⟨rfl, .inl differ⟩)
      have second : canonical.payloadRows / i.atnDpSize = (rowTotals i record canonical i.atnDpSize).uniformPayloadRows := by
        by_contra differ
        exact checked (.inr ⟨rfl, .inr differ⟩)
      rw [rowTotals_uniform layout ranked.ne'] at second
      refine ⟨by simp [several.ne'], ⟨?_, ?_⟩, replicas fits⟩
      · rw [dpRows, Nat.zero_mul, ← second]
        have division := Nat.div_add_mod canonical.payloadRows i.atnDpSize
        omega
      · intro dpRank inside
        rw [dpRows, dpRows, Nat.zero_mul]
        exact (fits dpRank inside).uniform layout
    · rintro ⟨several, ⟨total, same⟩, replicated⟩
      have several : i.atnDpSize ≠ 1 := by
        intro one
        cases several.mpr one
      rw [dpRows, Nat.zero_mul] at total
      refine ⟨by simp [several], ?_, by simp [Room, layout], ?_⟩
      · intro dpRank inside
        refine ⟨by simp [layout], by simp [layout], fun _ => ?_, replicated dpRank inside⟩
        have here := same dpRank inside
        rw [dpRows, dpRows, Nat.zero_mul] at here
        exact here
      · rw [rowTotals_uniform layout ranked.ne', total]
        rintro (⟨impossible, -⟩ | ⟨-, differ | differ⟩)
        · cases impossible
        · exact differ (Nat.mul_mod_right _ _)
        · exact differ (Nat.mul_div_cancel_left _ ranked)
  | other word unnamed =>
    rw [layout] at named
    cases named

/-- `inspect_submission_rows` accepts the rows that are split as their layout says, on
replicas that agree and with some DP rank that is not idle; the mode is that of prefill
where some DP rank prefills. -/
theorem inspectSubmissionRows_eq_some (ranked : 0 < i.atnDpSize) (named : canonical.dpRowLayout.isValid)
    {mode : ForwardMode} :
    inspectSubmissionRows i record canonical = some mode ↔
      (canonical.dpRowLayout = .none ↔ i.atnDpSize = 1) ∧
        Splits canonical.dpRowLayout canonical.payloadRows i.atnDpSize (dpRows i record) (dpMode i record) ∧
          Replicated i.atnTpSize i.atnDpSize record ∧ (∃ dpRank < i.atnDpSize, dpMode i record dpRank ≠ .idle) ∧
            mode = if ∃ dpRank < i.atnDpSize, dpMode i record dpRank = .prefill then .prefill else .decode := by
  have busy : (rowTotals i record canonical i.atnDpSize).anyNonIdle = true ↔
      ∃ dpRank < i.atnDpSize, dpMode i record dpRank ≠ .idle := by
    simp [rowTotals]
  have prefills : (rowTotals i record canonical i.atnDpSize).anyPrefill = true ↔
      ∃ dpRank < i.atnDpSize, dpMode i record dpRank = .prefill := by
    simp [rowTotals]
  rw [inspectSubmissionRows]
  constructor
  · intro accepted
    split at accepted
    · cases accepted
    · rename_i allowed
      obtain ⟨totals, folded, rest⟩ := Option.bind_eq_some_iff.mp accepted
      obtain ⟨fits, room, rfl⟩ := (foldlM_inspectDpRank i.atnDpSize).mp folded
      split at rest
      · cases rest
      · rename_i checked
        rw [not_or, Bool.not_eq_true, Bool.not_eq_false'] at checked
        obtain ⟨some', checked⟩ := checked
        have active := busy.mp some'
        obtain ⟨layout, split, replicated⟩ := (splits_iff ranked named active).mp ⟨allowed, fits, room, checked⟩
        refine ⟨layout, split, replicated, active, ?_⟩
        rw [← Option.some.inj rest]
        exact if_congr prefills rfl rfl
  · rintro ⟨layout, split, replicated, active, rfl⟩
    obtain ⟨allowed, fits, room, checked⟩ := (splits_iff ranked named active).mpr ⟨layout, split, replicated⟩
    rw [if_neg allowed, (foldlM_inspectDpRank i.atnDpSize).mpr ⟨fits, room, rfl⟩]
    change (if _ then _ else _) = _
    rw [if_neg, if_congr prefills rfl rfl]
    rw [not_or, busy.mpr active]
    exact ⟨by simp, checked⟩

/-- With replicas that agree, some rank prefills just where some DP rank's first does. -/
theorem Replicated.prefills (replicated : Replicated i.atnTpSize i.atnDpSize record) (wide : 0 < i.atnTpSize) :
    (∃ rank < i.atnTpSize * i.atnDpSize, (record rank).forwardMode = .prefill) ↔
      ∃ dpRank < i.atnDpSize, dpMode i record dpRank = .prefill := by
  constructor
  · rintro ⟨rank, inside, prefill⟩
    have row : rank / i.atnTpSize < i.atnDpSize := Nat.div_lt_of_lt_mul inside
    have place : rank / i.atnTpSize * i.atnTpSize + rank % i.atnTpSize = rank := by
      rw [Nat.mul_comm]
      exact Nat.div_add_mod rank i.atnTpSize
    have same := (replicated (rank / i.atnTpSize) row (rank % i.atnTpSize) (Nat.mod_lt rank wide)).2
    rw [place, prefill] at same
    exact ⟨rank / i.atnTpSize, row, same.symm⟩
  · rintro ⟨dpRank, inside, prefill⟩
    refine ⟨dpRank * i.atnTpSize, ?_, prefill⟩
    rw [Nat.mul_comm i.atnTpSize]
    exact Nat.mul_lt_mul_of_pos_right inside wide

end Rows

/-! ## The rendezvous -/

section Rendezvous

variable {T : Topology} {k : Control} {instanceIndex sequence : Nat}

/-- The submission record of one rank. -/
abbrev recordOf (T : Topology) (k : Control) (instanceIndex rank : Nat) : Submission :=
  (T.submissionAt k instanceIndex rank).record

/-- Some rank prefills. -/
def Prefills (T : Topology) (k : Control) (instanceIndex : Nat) : Prop :=
  ∃ rank < (T.atnagentPes instanceIndex).length, (recordOf T k instanceIndex rank).forwardMode = .prefill

instance : Decidable (Prefills T k instanceIndex) := by
  unfold Prefills
  infer_instance

/-- What the submissions of all ranks have to say for one invocation to be described by
them. -/
structure Described (T : Topology) (k : Control) (instanceIndex sequence : Nat) : Prop where
  expected : ∀ rank < (T.atnagentPes instanceIndex).length,
    (recordOf T k instanceIndex rank).key = ⟨instanceIndex, sequence⟩ ∧
      PublicationRecord.valid (recordOf T k instanceIndex rank)
  agreed : ∀ rank < (T.atnagentPes instanceIndex).length,
    (recordOf T k instanceIndex rank).layerOrdinal = (recordOf T k instanceIndex 0).layerOrdinal ∧
      (recordOf T k instanceIndex rank).payloadRows = (recordOf T k instanceIndex 0).payloadRows ∧
        (recordOf T k instanceIndex rank).outputRequirement = (recordOf T k instanceIndex 0).outputRequirement ∧
          (recordOf T k instanceIndex rank).dpRowLayout = (recordOf T k instanceIndex 0).dpRowLayout
  exists_layer : (recordOf T k instanceIndex 0).layerOrdinal < (T.instanceEntry instanceIndex).layers.length
  admitted : (recordOf T k instanceIndex 0).outputRequirement = .groupSumComplete →
    (T.instanceEntry instanceIndex).groupSumCompleteAdmitted
  replicated : Replicated (T.instanceEntry instanceIndex).atnTpSize (T.instanceEntry instanceIndex).atnDpSize
    (recordOf T k instanceIndex)
  active : ∃ dpRank < (T.instanceEntry instanceIndex).atnDpSize,
    dpMode (T.instanceEntry instanceIndex) (recordOf T k instanceIndex) dpRank ≠ .idle
  splits : Splits (recordOf T k instanceIndex 0).dpRowLayout (recordOf T k instanceIndex 0).payloadRows
    (T.instanceEntry instanceIndex).atnDpSize (dpRows (T.instanceEntry instanceIndex) (recordOf T k instanceIndex))
    (dpMode (T.instanceEntry instanceIndex) (recordOf T k instanceIndex))
  profile : (recordOf T k instanceIndex 0).payloadRows ≤
    if Prefills T k instanceIndex then (T.instanceEntry instanceIndex).prefillPayloadRowCapacity
    else (T.instanceEntry instanceIndex).decodePayloadRowCapacity
  lane : (recordOf T k instanceIndex 0).payloadRows ≤
    T.lanePayloadCapacityBytes / (T.instanceEntry instanceIndex).payloadRowBytes

/-- Submissions that name a row layout of several ranks just where there are several. -/
structure WellFormed (T : Topology) (k : Control) (instanceIndex sequence : Nat) : Prop
    extends Described T k instanceIndex sequence where
  layout : (recordOf T k instanceIndex 0).dpRowLayout = .none ↔ (T.instanceEntry instanceIndex).atnDpSize = 1

theorem submissionsAgree_iff :
    T.submissionsAgree k instanceIndex sequence ↔
      (∀ rank < (T.atnagentPes instanceIndex).length,
          (recordOf T k instanceIndex rank).key = ⟨instanceIndex, sequence⟩ ∧
            PublicationRecord.valid (recordOf T k instanceIndex rank)) ∧
        ∀ rank < (T.atnagentPes instanceIndex).length,
          (recordOf T k instanceIndex rank).layerOrdinal = (recordOf T k instanceIndex 0).layerOrdinal ∧
            (recordOf T k instanceIndex rank).payloadRows = (recordOf T k instanceIndex 0).payloadRows ∧
              (recordOf T k instanceIndex rank).outputRequirement = (recordOf T k instanceIndex 0).outputRequirement ∧
                (recordOf T k instanceIndex rank).dpRowLayout = (recordOf T k instanceIndex 0).dpRowLayout := by
  have expected (rank : Nat) :
      validateExpected (T.submissionAt k instanceIndex rank) sequence ⟨instanceIndex, sequence⟩ ↔
        (recordOf T k instanceIndex rank).key = ⟨instanceIndex, sequence⟩ ∧
          PublicationRecord.valid (recordOf T k instanceIndex rank) := by
    simp only [validateExpected, publicationSequence, PublicationRecord.key, PublicationRecord.valid, InvocationKey.valid,
      Bool.and_eq_true, decide_eq_true_eq]
    constructor
    · rintro ⟨⟨⟨-, -⟩, valid⟩, key⟩
      exact ⟨key, valid⟩
    · rintro ⟨key, valid⟩
      rw [key] at valid ⊢
      exact ⟨⟨⟨valid.1.1.1.1.1, rfl⟩, valid⟩, rfl⟩
  simp only [Topology.submissionsAgree, List.all_eq_true, List.mem_range, Bool.and_eq_true, decide_eq_true_eq, expected,
    ← forall_and]
  apply forall_congr'
  intro rank
  apply imp_congr_right
  intro inside
  simp only [and_assoc]

theorem instanceEntry_ranks (bound : instanceIndex < T.instanceCount) :
    0 < (T.instanceEntry instanceIndex).atnTpSize ∧ 0 < (T.instanceEntry instanceIndex).atnDpSize ∧
      (T.instanceEntry instanceIndex).atnTpSize * (T.instanceEntry instanceIndex).atnDpSize =
        (T.atnagentPes instanceIndex).length := by
  have valid := T.valid
  simp only [ArenaProjection.validate, Bool.and_eq_true, List.all_eq_true] at valid
  have own := valid.2 _ (List.getElem_mem bound)
  simp only [Instance.validate, Bool.and_eq_true, decide_eq_true_eq] at own
  have entry : T.instanceEntry instanceIndex = T.instances[instanceIndex] := List.getD_eq_getElem _ _ bound
  rw [Topology.atnagentPes, entry]
  exact ⟨Nat.pos_of_ne_zero own.1.1.1.1.1.1.1.2, Nat.pos_of_ne_zero own.1.1.1.1.1.1.2, own.1.1.1.1.2⟩

theorem capacity_of_mode (prefills : Prop) [Decidable prefills] (prefill decode : Nat) :
    (if (if prefills then ForwardMode.prefill else .decode) = .prefill then prefill else decode) =
      if prefills then prefill else decode := by
  by_cases some' : prefills
  · simp [some']
  · simp [some']

/-- The checks of the rendezvous that are not on publication words. -/
theorem wellFormed_iff (bound : instanceIndex < T.instanceCount) :
    WellFormed T k instanceIndex sequence ↔
      T.submissionsAgree k instanceIndex sequence ∧
        ¬((T.instanceEntry instanceIndex).layers.length ≤ (recordOf T k instanceIndex 0).layerOrdinal ∨
            ((recordOf T k instanceIndex 0).outputRequirement = .groupSumComplete ∧
              !(T.instanceEntry instanceIndex).groupSumCompleteAdmitted)) ∧
          ∃ mode,
            inspectSubmissionRows (T.instanceEntry instanceIndex) (recordOf T k instanceIndex)
                (recordOf T k instanceIndex 0) = some mode ∧
              ¬((if mode = .prefill then (T.instanceEntry instanceIndex).prefillPayloadRowCapacity
                  else (T.instanceEntry instanceIndex).decodePayloadRowCapacity) <
                    (recordOf T k instanceIndex 0).payloadRows ∨
                T.lanePayloadCapacityBytes / (T.instanceEntry instanceIndex).payloadRowBytes <
                  (recordOf T k instanceIndex 0).payloadRows) := by
  obtain ⟨wide, ranked, ranks⟩ := instanceEntry_ranks (T := T) bound
  have prefills (replicated : Replicated (T.instanceEntry instanceIndex).atnTpSize
      (T.instanceEntry instanceIndex).atnDpSize (recordOf T k instanceIndex)) :
      Prefills T k instanceIndex ↔ ∃ dpRank < (T.instanceEntry instanceIndex).atnDpSize,
        dpMode (T.instanceEntry instanceIndex) (recordOf T k instanceIndex) dpRank = .prefill := by
    rw [Prefills, ← ranks]
    exact replicated.prefills wide
  have some' : 0 < (T.atnagentPes instanceIndex).length := ranks ▸ Nat.mul_pos wide ranked
  -- The first record names its row layout, since it passes its own check.
  have named (expected : ∀ rank < (T.atnagentPes instanceIndex).length,
      (recordOf T k instanceIndex rank).key = ⟨instanceIndex, sequence⟩ ∧
        PublicationRecord.valid (recordOf T k instanceIndex rank)) :
      (recordOf T k instanceIndex 0).dpRowLayout.isValid := by
    have valid := (expected 0 some').2
    simp only [PublicationRecord.valid, Bool.and_eq_true] at valid
    exact valid.2
  rw [submissionsAgree_iff]
  constructor
  · intro formed
    refine ⟨⟨formed.expected, formed.agreed⟩, ?_, _,
      (inspectSubmissionRows_eq_some ranked (named formed.expected)).mpr ⟨formed.layout, formed.splits, formed.replicated, formed.active, rfl⟩, ?_⟩
    · rintro (missing | ⟨sum, refused⟩)
      · exact absurd formed.exists_layer (by omega)
      · rw [formed.admitted sum] at refused
        cases refused
    · have profile := formed.profile
      have lane := formed.lane
      rw [if_congr (prefills formed.replicated) rfl rfl] at profile
      rw [capacity_of_mode]
      omega
  · rintro ⟨⟨expected, agreed⟩, available, mode, accepted, fits⟩
    obtain ⟨layout, splits, replicated, active, rfl⟩ :=
      (inspectSubmissionRows_eq_some ranked (named expected)).mp accepted
    rw [capacity_of_mode, not_or, not_lt, not_lt, ← if_congr (prefills replicated) rfl rfl] at fits
    rw [not_or, not_le, not_and] at available
    refine ⟨⟨expected, agreed, available.1, ?_, replicated, active, splits, fits.1, fits.2⟩, layout⟩
    intro sum
    simpa using available.2 sum

/-- A rendezvous is Pending while some rank has not published the expected sequence; it
is then Ready, for the invocation its submissions describe, just where they are well
formed, and a mismatch everywhere else. -/
theorem inspectSubmissionRendezvous_exact (bound : instanceIndex < T.instanceCount) :
    ((T.inspectSubmissionRendezvous k instanceIndex sequence).1 = .pending ↔
        ∃ rank < (T.atnagentPes instanceIndex).length, (T.submissionAt k instanceIndex rank).sequence < sequence) ∧
      ((T.inspectSubmissionRendezvous k instanceIndex sequence).1 = .ready ↔
        (∀ rank < (T.atnagentPes instanceIndex).length, sequence ≤ (T.submissionAt k instanceIndex rank).sequence) ∧
          WellFormed T k instanceIndex sequence) ∧
      ((T.inspectSubmissionRendezvous k instanceIndex sequence).1 = .protocolMismatch ↔
        (∀ rank < (T.atnagentPes instanceIndex).length, sequence ≤ (T.submissionAt k instanceIndex rank).sequence) ∧
          ¬WellFormed T k instanceIndex sequence) ∧
      ((T.inspectSubmissionRendezvous k instanceIndex sequence).1 = .ready →
        (T.inspectSubmissionRendezvous k instanceIndex sequence).2 =
          ⟨⟨instanceIndex, sequence⟩, (recordOf T k instanceIndex 0).layerOrdinal,
            (recordOf T k instanceIndex 0).payloadRows, (recordOf T k instanceIndex 0).outputRequirement⟩) := by
  have published : (∀ rank < (T.atnagentPes instanceIndex).length,
      sequence ≤ (T.submissionAt k instanceIndex rank).sequence) ↔
        ¬∃ rank < (T.atnagentPes instanceIndex).length, (T.submissionAt k instanceIndex rank).sequence < sequence := by
    push Not
    exact Iff.rfl
  have checks := @wellFormed_iff T k instanceIndex sequence bound
  rw [published, Topology.inspectSubmissionRendezvous]
  simp only [List.any_eq_true, List.mem_range, decide_eq_true_eq]
  split
  · rename_i waiting
    simp [waiting]
  · rename_i complete
    split
    · rename_i differ
      have ill : ¬WellFormed T k instanceIndex sequence := by
        intro formed
        rw [(checks.mp formed).1] at differ
        cases differ
      simp [complete, ill]
    · rename_i agree
      rw [Bool.not_eq_true', Bool.not_eq_false] at agree
      split
      · rename_i unavailable
        have ill : ¬WellFormed T k instanceIndex sequence := by
          intro formed
          exact (checks.mp formed).2.1 unavailable
        simp [complete, ill]
      · rename_i available
        split
        · rename_i refused
          have ill : ¬WellFormed T k instanceIndex sequence := by
            intro formed
            obtain ⟨mode, accepted, -⟩ := (checks.mp formed).2.2
            cases refused.symm.trans accepted
          simp [complete, ill]
        · rename_i mode accepted
          by_cases full :
              (if mode = .prefill then (T.instanceEntry instanceIndex).prefillPayloadRowCapacity
                else (T.instanceEntry instanceIndex).decodePayloadRowCapacity) <
                  (recordOf T k instanceIndex 0).payloadRows ∨
                T.lanePayloadCapacityBytes / (T.instanceEntry instanceIndex).payloadRowBytes <
                  (recordOf T k instanceIndex 0).payloadRows
          · have ill : ¬WellFormed T k instanceIndex sequence := by
              intro formed
              obtain ⟨mode', accepted', fits⟩ := (checks.mp formed).2.2
              cases accepted.symm.trans accepted'
              exact fits full
            rw [if_pos full]
            simp [complete, ill]
          · have formed := checks.mpr ⟨agree, available, mode, accepted, full⟩
            rw [if_neg full]
            simp [complete, formed]

end Rendezvous

/-! ## A single DP rank -/

/-- The rank of the smallest generation has submitted one row under a row layout. -/
def soloSubmitted (layout : DpRowLayout) : Control :=
  (solo.create soloKernels (.fifo 0) fun _ _ _ _ => 0).control.setSlot 1 (.submission 0 0)
    { Channel.create (⟨⟨0, 1⟩, 0, 1, layout, .perRankComplete, 1, .decode⟩ : Submission) with sequence := 1 }

theorem inspectSubmissionRendezvous_exact_solo :
    (solo.inspectSubmissionRendezvous (soloSubmitted .none) 0 1).1 = .ready ∧
      WellFormed solo (soloSubmitted .none) 0 1 := by
  have ready : (solo.inspectSubmissionRendezvous (soloSubmitted .none) 0 1).1 = .ready := by decide
  exact ⟨ready, ((inspectSubmissionRendezvous_exact (by decide)).2.1.mp ready).2⟩

/-- The only rank of an Instance that names a layout of several ranks is refused, even
though its one row is all of the payload. -/
theorem singleRank_packed_refused :
    Described solo (soloSubmitted .packedByRank) 0 1 ∧
      (∀ rank < (solo.atnagentPes 0).length, 1 ≤ (solo.submissionAt (soloSubmitted .packedByRank) 0 rank).sequence) ∧
        (solo.inspectSubmissionRendezvous (soloSubmitted .packedByRank) 0 1).1 = .protocolMismatch := by
  refine ⟨?_, by decide, by decide⟩
  constructor
  case splits =>
    change Splits .packedByRank 1 1 _ _
    exact ⟨by decide, by decide⟩
  case replicated =>
    unfold Replicated
    decide
  all_goals decide

end CrossPool.Fabric
