import CrossPool.Lib.IntegerProgram
import CrossPool.Lib.Loops
import CrossPool.Lib.Procedure
import Mathlib.Algebra.BigOperators.Ring.List
import Mathlib.Data.Fin.VecNotation
import Mathlib.Tactic.Linarith

/-!
# Memory calibration

The coefficients of the calibration envelope are fitted to observations by an integer
program in multiples of the observation quantum: a cover of the residuals of least total
overprediction, and among those the first by coefficients.
-/

namespace CrossPool.FfnAgent

open CrossPool.Lib

/-! ## Features and coefficients -/

/-- `SINT64_MAX` -/
def sint64Max : Int := 2 ^ 63 - 1

/-- `MIB` -/
def mib : Int := 2 ^ 20

/-- `ensure_sint64_nonnegative` -/
def ensureSint64Nonnegative (values : List Int) : Except String Unit :=
  if ∀ value ∈ values, 0 ≤ value ∧ value ≤ sint64Max then .ok () else .error "values require non-negative sint64 integers"

theorem ensureSint64Nonnegative_ok {values : List Int} :
    ensureSint64Nonnegative values = .ok () ↔ ∀ value ∈ values, 0 ≤ value ∧ value ≤ sint64Max := by
  unfold ensureSint64Nonnegative
  split
  · next fine => exact iff_of_true rfl fine
  · next off => exact iff_of_false (by simp) off

/-- The features of one startup point. -/
structure DeviceMemoryFeatures where
  tensorStorageBytes : Int
  tensorStorageAllocationCount : Int
  denseGraphCaptureCount : Int
  moeGraphCaptureCount : Int
  executorLaneCount : Int
  computeBranchCount : Int
  denseImplementationPresent : Bool
  moeImplementationPresent : Bool
  joinedFfnagent : Bool
  checked : ensureSint64Nonnegative [tensorStorageBytes, tensorStorageAllocationCount, denseGraphCaptureCount,
    moeGraphCaptureCount, executorLaneCount, computeBranchCount] = .ok ()

/-- `calibration_values` -/
def DeviceMemoryFeatures.calibrationValues (features : DeviceMemoryFeatures) : Fin 10 → Int :=
  ![1, (features.tensorStorageBytes + mib - 1) / mib * mib / mib, features.tensorStorageAllocationCount,
    features.denseGraphCaptureCount, features.moeGraphCaptureCount, features.executorLaneCount, features.computeBranchCount,
    if features.denseImplementationPresent then 1 else 0, if features.moeImplementationPresent then 1 else 0,
    if features.joinedFfnagent then 1 else 0]

structure FfnMemoryCalibrationCoefficients where
  baseBytes : Int
  bytesPerTensorStorageMib : Int
  bytesPerTensorStorageAllocation : Int
  bytesPerDenseGraphCapture : Int
  bytesPerMoeGraphCapture : Int
  bytesPerExecutorLane : Int
  bytesPerComputeBranch : Int
  denseImplementationBytes : Int
  moeImplementationBytes : Int
  joinedFfnagentBytes : Int
deriving DecidableEq

namespace FfnMemoryCalibrationCoefficients

/-- The coefficients in the order of their names. -/
def values (c : FfnMemoryCalibrationCoefficients) : Fin 10 → Int :=
  ![c.baseBytes, c.bytesPerTensorStorageMib, c.bytesPerTensorStorageAllocation, c.bytesPerDenseGraphCapture,
    c.bytesPerMoeGraphCapture, c.bytesPerExecutorLane, c.bytesPerComputeBranch, c.denseImplementationBytes,
    c.moeImplementationBytes, c.joinedFfnagentBytes]

/-- The coefficients of the given values, which are checked. -/
def construct (v : Fin 10 → Int) : Except String FfnMemoryCalibrationCoefficients := do
  ensureSint64Nonnegative (List.ofFn v)
  return ⟨v 0, v 1, v 2, v 3, v 4, v 5, v 6, v 7, v 8, v 9⟩

/-- The exact value of the overhead expression. -/
def prediction (c : FfnMemoryCalibrationCoefficients) (features : DeviceMemoryFeatures) : Int :=
  ∑ i, c.values i * features.calibrationValues i

/-- The overhead expression, where it is a signed 64-bit integer. -/
def evaluate (c : FfnMemoryCalibrationCoefficients) (features : DeviceMemoryFeatures) : Except String Int := do
  ensureSint64Nonnegative [c.prediction features]
  return c.prediction features

end FfnMemoryCalibrationCoefficients

/-! ## Observations -/

/-- The charges of one startup point, by their estimated physical bytes. -/
structure DeviceMemoryPoint where
  estimatedPhysicalBytes : List Int
  features : DeviceMemoryFeatures
  checked : ensureSint64Nonnegative estimatedPhysicalBytes = .ok ()

/-- `analytic_estimate_bytes` -/
def DeviceMemoryPoint.analyticEstimateBytes (point : DeviceMemoryPoint) : Except String Int := do
  ensureSint64Nonnegative [point.estimatedPhysicalBytes.sum]
  return point.estimatedPhysicalBytes.sum

structure MemoryObservation where
  point : DeviceMemoryPoint
  observedDeviceBytes : Int

/-- One repetition of an experiment. `models` is how an error shows the models of the
experiment. -/
structure MemoryProfileWorld where
  models : String
  participants : List (List MemoryObservation)

def MemoryProfileWorld.observations (world : MemoryProfileWorld) : List MemoryObservation :=
  world.participants.flatten

/-! ## The fit -/

/-- A feature row with the bytes that it must cover. -/
abbrev Target (n : Nat) := (Fin n → Int) × Int

/-- The cover program of quantized targets. -/
def coverProgram {n : Nat} (quantized : List (Target n)) (maximumTarget : Int) : IntegerProgram n where
  upper := maximumTarget
  constraints := quantized.map fun target => .atLeast ⟨target.1, 0⟩ target.2

/-- The total overprediction. -/
def overprediction {n : Nat} (quantized : List (Target n)) : Linear n where
  coefficients i := (quantized.map fun target => target.1 i).sum
  constant := - (quantized.map Prod.snd).sum

def quantizedTargets {n : Nat} (targets : List (Target n)) (observationQuantumBytes : Int) : List (Target n) :=
  targets.map fun target => (target.1, (target.2 + observationQuantumBytes - 1) / observationQuantumBytes)

def maximumTarget {n : Nat} (quantized : List (Target n)) : Int :=
  (quantized.map Prod.snd).max?.getD 0

/-- What `solve_coefficients` refuses before it builds a model. -/
def checkTargets {n : Nat} (targets : List (Target n)) (observationQuantumBytes : Int) : Except String Unit := do
  if targets = [] then
    throw "memory-profile fit produced no target rows"
  if observationQuantumBytes ≤ 0 then
    throw "memory-profile fit requires a positive observation quantum"
  if ∃ i, ∀ target ∈ targets, target.1 i = 0 then
    throw "memory-profile matrix leaves one coefficient feature unexercised"
  let quantized := quantizedTargets targets observationQuantumBytes
  if sint64Max < maximumTarget quantized * observationQuantumBytes ∨
      sint64Max < maximumTarget quantized * (quantized.map fun target => ∑ i, target.1 i).sum then
    throw "memory-profile fit exceeds signed-64-bit arithmetic"

/-- `solve_optimal` -/
def solveOptimal {n : Nat} (solve : Solver n) (model : IntegerProgram n) (objective : Linear n) :
    Except String (Fin n → Int) :=
  match solve model objective with
  | some x => .ok x
  | none => .error "memory-profile coefficient fit did not prove OPTIMAL"

/-- One variable minimized and fixed. -/
def settle {n : Nat} (solve : Solver n) (state : IntegerProgram n × (Fin n → Int)) (i : Fin n) :
    Except String (IntegerProgram n × (Fin n → Int)) := do
  let x ← solveOptimal solve state.1 (Linear.variable i)
  return (state.1.add (.equal (Linear.variable i) (x i)), Function.update state.2 i (x i))

/-- The coefficients that `solve_coefficients` finds, in order of their names. -/
def solveValues {n : Nat} (solve : Solver n) (targets : List (Target n)) (observationQuantumBytes : Int) :
    Except String (Fin n → Int) := do
  checkTargets targets observationQuantumBytes
  let quantized := quantizedTargets targets observationQuantumBytes
  let model := coverProgram quantized (maximumTarget quantized)
  let objective := overprediction quantized
  let x ← solveOptimal solve model objective
  let settled ← (List.finRange n).foldlM (settle solve) (model.add (.equal objective (objective.value x)), fun _ => 0)
  return fun i => settled.2 i * observationQuantumBytes

/-- `solve_coefficients` -/
def solveCoefficients (solve : Solver 10) (targets : List (Target 10)) (observationQuantumBytes : Int) :
    Except String FfnMemoryCalibrationCoefficients := do
  let values ← solveValues solve targets observationQuantumBytes
  FfnMemoryCalibrationCoefficients.construct values

/-- `targets[vector] = max(targets.get(vector, 0), residual)` -/
def raiseTarget {n : Nat} (vector : Fin n → Int) (residual : Int) : List (Target n) → List (Target n)
  | [] => [(vector, max 0 residual)]
  | (other, target) :: rest =>
    if other = vector then (other, max target residual) :: rest else (other, target) :: raiseTarget vector residual rest

/-- What the fit has gathered. -/
structure FitScan where
  targets : List (Target 10)
  positiveObservations : List Nat

/-- One observation of the fit. -/
def FitScan.observe (scan : FitScan) (observation : MemoryObservation) : Except String FitScan := do
  let analytic ← observation.point.analyticEstimateBytes
  let residual := max 0 (observation.observedDeviceBytes - analytic)
  return {
    targets := raiseTarget observation.point.features.calibrationValues residual scan.targets
    positiveObservations :=
      if 0 < observation.observedDeviceBytes then scan.positiveObservations ++ [observation.observedDeviceBytes.toNat]
      else scan.positiveObservations }

/-- One held-out observation. -/
def checkHeldOut (coefficients : FfnMemoryCalibrationCoefficients) (minimumHeadroom : Int)
    (heldOut : String × MemoryObservation) : Except String Int := do
  let models := heldOut.1
  let observation := heldOut.2
  let analytic ← observation.point.analyticEstimateBytes
  let residual := max 0 (observation.observedDeviceBytes - analytic)
  let prediction ← coefficients.evaluate observation.point.features
  if prediction < residual then
    let missing := residual - prediction
    throw s!"memory-profile candidate underpredicts held-out experiment by {missing} bytes for models {models}"
  return min minimumHeadroom (analytic + prediction - observation.observedDeviceBytes)

/-- The feature rows of the fit with their targets, and the observation quantum. -/
def fitTargets (fitWorlds : List MemoryProfileWorld) : Except String (List (Target 10) × Int) := do
  let scan ← (fitWorlds.flatMap (·.observations)).foldlM FitScan.observe ⟨[], []⟩
  let quantum : Int := (scan.positiveObservations.foldl Nat.gcd 0 : Nat)
  if quantum ≤ 0 then
    throw "memory-profile evidence has no positive device-observation quantum"
  return (scan.targets.map fun target => (target.1, target.2 + quantum), quantum)

/-- `fit_worlds` -/
def fitWorlds (solve : Solver 10) (fit heldOut : List MemoryProfileWorld) :
    Except String (FfnMemoryCalibrationCoefficients × Int) := do
  let (targets, quantum) ← fitTargets fit
  let coefficients ← solveCoefficients solve targets quantum
  let minimumHeadroom ←
    (heldOut.flatMap fun world => world.observations.map fun observation => (world.models, observation)).foldlM
      (checkHeldOut coefficients) sint64Max
  if minimumHeadroom = sint64Max then
    throw "memory-profile held-out inventory is empty"
  return (coefficients, minimumHeadroom)

/-! ## The canonical cover -/

section canonical

variable {n : Nat}

/-- A nonnegative integer multiple of the quantum in every coefficient. -/
def Multiple (quantum : Int) (c : Fin n → Int) : Prop :=
  ∀ i, ∃ k : Nat, c i = k * quantum

/-- Coefficients whose expression reaches every target. -/
def Covers (targets : List (Target n)) (c : Fin n → Int) : Prop :=
  ∀ target ∈ targets, target.2 ≤ ∑ i, target.1 i * c i

/-- The first by coefficients of the covers of least total overprediction. -/
structure CanonicalCover (targets : List (Target n)) (quantum : Int) (c : Fin n → Int) : Prop where
  multiple : Multiple quantum c
  covers : Covers targets c
  least : ∀ d, Multiple quantum d → Covers targets d →
    (overprediction targets).value c < (overprediction targets).value d ∨
      (overprediction targets).value c = (overprediction targets).value d ∧ toLex c ≤ toLex d

variable {targets other : List (Target n)} {quantum : Int} {c d x y : Fin n → Int}

/-- There is one canonical cover. -/
theorem CanonicalCover.unique (first : CanonicalCover targets quantum c) (second : CanonicalCover targets quantum d) :
    c = d := by
  rcases first.least d second.multiple second.covers with less | ⟨same, le⟩
  · rcases second.least c first.multiple first.covers with less' | ⟨same', -⟩
    · exact absurd less' (lt_asymm less)
    · exact absurd same' (ne_of_gt less)
  · rcases second.least c first.multiple first.covers with less' | ⟨-, le'⟩
    · exact absurd same (ne_of_gt less')
    · exact toLex.injective (le_antisymm le le')

theorem overprediction_value (targets : List (Target n)) (x : Fin n → Int) :
    (overprediction targets).value x = (targets.map fun target => ∑ i, target.1 i * x i - target.2).sum := by
  induction targets with
  | nil => simp [overprediction, Linear.value]
  | cons target targets ih =>
    simp only [overprediction, Linear.value, List.map_cons, List.sum_cons] at ih ⊢
    rw [← ih]
    simp only [add_mul, Finset.sum_add_distrib]
    ring

theorem overprediction_split (targets : List (Target n)) (x : Fin n → Int) : (overprediction targets).value x =
    (targets.map fun target => ∑ i, target.1 i * x i).sum - (targets.map Prod.snd).sum := by
  rw [overprediction_value]
  induction targets with
  | nil => rfl
  | cons target targets ih =>
    simp only [List.map_cons, List.sum_cons, ih]
    omega

/-- The same rows in another order have the same canonical cover. -/
theorem CanonicalCover.perm (same : targets.Perm other) (cover : CanonicalCover targets quantum c) :
    CanonicalCover other quantum c := by
  have total (x : Fin n → Int) : (overprediction other).value x = (overprediction targets).value x := by
    rw [overprediction_value, overprediction_value]
    exact (same.map _).sum_eq.symm
  refine ⟨cover.multiple, fun target listed => cover.covers target (same.mem_iff.mpr listed), fun d multiple covers => ?_⟩
  rw [total, total]
  exact cover.least d multiple fun target listed => covers target (same.mem_iff.mp listed)

end canonical

/-! ## The successive minimization -/

section settled

variable {n : Nat} {solve : Solver n} {P : IntegerProgram n} {x : Fin n → Int}

/-- After some variables are fixed. -/
structure Settling (P : IntegerProgram n) (done : List (Fin n)) (state : IntegerProgram n × (Fin n → Int)) : Prop where
  fixed : ∀ y, state.1.Feasible y ↔ P.Feasible y ∧ ∀ i ∈ done, y i = state.2 i
  feasible : ∃ y, state.1.Feasible y
  least : ∀ i ∈ done, ∀ y, P.Feasible y → (∀ j < i, y j = state.2 j) → state.2 i ≤ y i

/-- One more variable takes its least value under those before it. -/
theorem settle_settling (exact : ExactSolver solve) {done rest : List (Fin n)} {i : Fin n}
    {state : IntegerProgram n × (Fin n → Int)} (whole : List.finRange n = done ++ i :: rest)
    (settling : Settling P done state) :
    ∃ next, settle solve state i = .ok next ∧ Settling P (done ++ [i]) next := by
  obtain ⟨y, feasible⟩ := settling.feasible
  obtain ⟨x, solved⟩ := exact.complete feasible (Linear.variable i)
  have optimal := exact.optimal solved
  have below : ∀ j, j ∈ done ↔ j < i := fun j => mem_of_finRange whole
  have kept : ∀ j < i, Function.update state.2 i (x i) j = state.2 j :=
    fun j earlier => Function.update_of_ne (ne_of_lt earlier) _ _
  have own : Function.update state.2 i (x i) i = x i := Function.update_self ..
  refine ⟨_, by rw [settle, solveOptimal, solved]; rfl, fun z => ?_, ⟨x, ?_⟩, ?_⟩
  · rw [IntegerProgram.feasible_add, settling.fixed, Constraint.Holds, Linear.variable_value, and_assoc]
    refine and_congr_right fun _ => ?_
    constructor
    · rintro ⟨before, value⟩ j listed
      rcases List.mem_append.mp listed with early | here
      · rw [before j early]
        exact (kept j ((below j).mp early)).symm
      · obtain rfl := List.mem_singleton.mp here
        exact value.trans own.symm
    · intro all
      refine ⟨fun j early => ?_, ?_⟩
      · rw [all j (List.mem_append_left _ early)]
        exact kept j ((below j).mp early)
      · exact (all i (List.mem_append_right _ (List.mem_singleton.mpr rfl))).trans own
  · rw [IntegerProgram.feasible_add]
    exact ⟨optimal.feasible, Linear.variable_value i x⟩
  · intro j listed z inside same
    rcases List.mem_append.mp listed with early | here
    · have under := (below j).mp early
      show Function.update state.2 i (x i) j ≤ z j
      rw [kept j under]
      refine settling.least j early z inside fun k earlier => ?_
      rw [same k earlier]
      exact kept k (lt_trans earlier under)
    · obtain rfl := List.mem_singleton.mp here
      show Function.update state.2 j (x j) j ≤ z j
      rw [own]
      have candidate : state.1.Feasible z := by
        rw [settling.fixed]
        refine ⟨inside, fun k early => ?_⟩
        have under := (below k).mp early
        rw [same k under]
        exact kept k under
      simpa using optimal.least z candidate

/-- All variables settled: the first feasible assignment in lexicographic order. -/
theorem settled (exact : ExactSolver solve) (feasible : P.Feasible x) (start : Fin n → Int) :
    ∃ Q values, (List.finRange n).foldlM (settle solve) (P, start) = .ok (Q, values) ∧ P.Feasible values ∧
      ∀ y, P.Feasible y → toLex values ≤ toLex y := by
  have fresh : Settling P [] (P, start) := ⟨fun y => by simp, ⟨x, feasible⟩, by simp⟩
  obtain ⟨⟨Q, values⟩, returned, settling⟩ := foldlM_ok (Settling P) fresh fun done i rest state whole before =>
    settle_settling exact whole before
  obtain ⟨y, inside⟩ := settling.feasible
  obtain ⟨feasible, same⟩ := (settling.fixed y).mp inside
  obtain rfl : y = values := funext fun i => same i (List.mem_finRange i)
  exact ⟨Q, y, returned, feasible, fun z => lex_least fun i w within equal =>
    settling.least i (List.mem_finRange i) w within equal⟩

end settled

/-! ## Solved targets -/

section solved

variable {n : Nat} {solve : Solver n} {targets : List (Target n)} {quantum : Int} {x y : Fin n → Int}

/-- Rows of nonnegative features, one of which counts, with positive targets. -/
structure Rows (targets : List (Target n)) : Prop where
  nonneg : ∀ target ∈ targets, ∀ i, 0 ≤ target.1 i
  counted : ∀ target ∈ targets, ∃ i, 0 < target.1 i
  target : ∀ target ∈ targets, 0 < target.2

/-- What the checks before the model establish. -/
structure Checked (targets : List (Target n)) (quantum : Int) : Prop where
  some : targets ≠ []
  positive : 0 < quantum
  coefficient : maximumTarget (quantizedTargets targets quantum) * quantum ≤ sint64Max
  expression : maximumTarget (quantizedTargets targets quantum) *
    ((quantizedTargets targets quantum).map fun target => ∑ i, target.1 i).sum ≤ sint64Max

theorem checkTargets_ok (passes : checkTargets targets quantum = .ok ()) : Checked targets quantum := by
  unfold checkTargets at passes
  by_cases none : targets = []
  · rw [if_pos none] at passes
    cases passes
  by_cases low : quantum ≤ 0
  · rw [if_neg none, if_pos low] at passes
    cases passes
  by_cases unexercised : ∃ i, ∀ target ∈ targets, target.1 i = 0
  · rw [if_neg none, if_neg low, if_pos unexercised] at passes
    cases passes
  by_cases large : sint64Max < maximumTarget (quantizedTargets targets quantum) * quantum ∨
      sint64Max < maximumTarget (quantizedTargets targets quantum) *
        ((quantizedTargets targets quantum).map fun target => ∑ i, target.1 i).sum
  · rw [if_neg none, if_neg low, if_neg unexercised] at passes
    simp only [if_pos large] at passes
    cases passes
  rw [not_or, not_lt, not_lt] at large
  exact ⟨none, not_le.mp low, large.1, large.2⟩

/-- A target in multiples of the quantum. -/
theorem ceil_le (positive : 0 < quantum) {target multiple : Int} :
    (target + quantum - 1) / quantum ≤ multiple ↔ target ≤ multiple * quantum := by
  rw [← Int.lt_add_one_iff, Int.ediv_lt_iff_lt_mul positive, add_mul, one_mul]
  omega

theorem mem_quantized {target : Target n} : target ∈ quantizedTargets targets quantum ↔
    ∃ own ∈ targets, (own.1, (own.2 + quantum - 1) / quantum) = target := by
  simp [quantizedTargets]

/-- The largest quantized target bounds the others. -/
theorem le_maximumTarget {quantized : List (Target n)} {target : Target n} (listed : target ∈ quantized) :
    target.2 ≤ maximumTarget quantized := by
  unfold maximumTarget
  cases largest : (quantized.map Prod.snd).max? with
  | none => simp [List.max?_eq_none_iff.mp largest |> List.map_eq_nil_iff.mp] at listed
  | some value => exact (List.max?_eq_some_iff.mp largest).2 target.2 (List.mem_map_of_mem listed)

/-- Values scaled by the quantum cover the targets if the values cover the quantized
ones. -/
theorem covers_scaled (positive : 0 < quantum) :
    Covers targets (fun i => x i * quantum) ↔ Covers (quantizedTargets targets quantum) x := by
  have scaled (row : Fin n → Int) : ∑ i, row i * (x i * quantum) = (∑ i, row i * x i) * quantum := by
    rw [Finset.sum_mul]
    exact Finset.sum_congr rfl fun i _ => (mul_assoc _ _ _).symm
  constructor
  · intro covers target listed
    obtain ⟨own, inside, rfl⟩ := mem_quantized.mp listed
    have enough := covers own inside
    rw [scaled] at enough
    exact (ceil_le positive).mpr enough
  · intro covers target listed
    have enough := covers _ (mem_quantized.mpr ⟨target, listed, rfl⟩)
    rw [scaled]
    exact (ceil_le positive).mp enough

/-- The overprediction in bytes grows with that in multiples of the quantum. -/
theorem overprediction_scaled (targets : List (Target n)) (quantum : Int) : ∃ offset, ∀ x : Fin n → Int,
    (overprediction targets).value (fun i => x i * quantum) =
      (overprediction (quantizedTargets targets quantum)).value x * quantum + offset := by
  induction targets with
  | nil => exact ⟨0, fun x => by simp [overprediction_value, quantizedTargets]⟩
  | cons target targets ih =>
    obtain ⟨offset, same⟩ := ih
    refine ⟨offset + ((target.2 + quantum - 1) / quantum * quantum - target.2), fun x => ?_⟩
    have total := same x
    rw [overprediction_value, overprediction_value] at total ⊢
    simp only [quantizedTargets, List.map_cons, List.sum_cons] at total ⊢
    have scaled : ∑ i, target.1 i * (x i * quantum) = (∑ i, target.1 i * x i) * quantum := by
      rw [Finset.sum_mul]
      exact Finset.sum_congr rfl fun i _ => (mul_assoc _ _ _).symm
    rw [total, scaled]
    ring

/-- Feasible values of the cover program. -/
theorem coverProgram_feasible {quantized : List (Target n)} {largest : Int} :
    (coverProgram quantized largest).Feasible x ↔ (∀ i, 0 ≤ x i ∧ x i ≤ largest) ∧ Covers quantized x := by
  constructor
  · intro feasible
    refine ⟨feasible.domain, fun target listed => ?_⟩
    have holds := feasible.holds _ (List.mem_map_of_mem listed)
    simpa [Constraint.Holds, Linear.value] using holds
  · rintro ⟨domain, covers⟩
    refine ⟨domain, fun constraint listed => ?_⟩
    obtain ⟨target, inside, rfl⟩ := List.mem_map.mp listed
    simpa [Constraint.Holds, Linear.value] using covers target inside

theorem lex_scaled (positive : 0 < quantum) (le : toLex x ≤ toLex y) :
    toLex (fun i => x i * quantum) ≤ toLex (fun i => y i * quantum) := by
  rcases le.eq_or_lt with same | ⟨i, before, less⟩
  · rw [toLex.injective same]
  · exact le_of_lt ⟨i, fun j earlier => congrArg (· * quantum) (before j earlier), mul_lt_mul_of_pos_right less positive⟩

theorem quantized_rows (rows : Rows targets) (positive : 0 < quantum) : Rows (quantizedTargets targets quantum) := by
  refine ⟨fun target listed => ?_, fun target listed => ?_, fun target listed => ?_⟩ <;>
    obtain ⟨own, inside, rfl⟩ := mem_quantized.mp listed
  · exact rows.nonneg own inside
  · exact rows.counted own inside
  · have low := rows.target own inside
    refine Int.lt_of_not_ge fun none => ?_
    have reached := (ceil_le positive).mp none
    rw [zero_mul] at reached
    omega

/-- The cover program has a feasible assignment: the largest target everywhere. -/
theorem coverProgram_some {quantized : List (Target n)} (rows : Rows quantized) (low : 0 ≤ maximumTarget quantized) :
    (coverProgram quantized (maximumTarget quantized)).Feasible fun _ => maximumTarget quantized := by
  refine coverProgram_feasible.mpr ⟨fun _ => ⟨low, le_rfl⟩, fun target listed => ?_⟩
  obtain ⟨i, counts⟩ := rows.counted target listed
  calc
    target.2 ≤ maximumTarget quantized := le_maximumTarget listed
    _ ≤ target.1 i * maximumTarget quantized := le_mul_of_one_le_left low counts
    _ ≤ ∑ j, target.1 j * maximumTarget quantized :=
      Finset.single_le_sum (fun j _ => mul_nonneg (rows.nonneg target listed j) low) (Finset.mem_univ i)

theorem maximumTarget_nonneg {quantized : List (Target n)} (rows : Rows quantized) : 0 ≤ maximumTarget quantized := by
  cases quantized with
  | nil => simp [maximumTarget]
  | cons target rest => exact (rows.target target List.mem_cons_self).le.trans (le_maximumTarget List.mem_cons_self)

/-- Cutting values down to the largest target keeps a cover and raises no
overprediction. -/
theorem cover_cut {quantized : List (Target n)} (rows : Rows quantized) (domain : ∀ i, 0 ≤ y i) (covers : Covers quantized y) :
    (coverProgram quantized (maximumTarget quantized)).Feasible (fun i => min (y i) (maximumTarget quantized)) ∧
      (overprediction quantized).value (fun i => min (y i) (maximumTarget quantized)) ≤ (overprediction quantized).value y := by
  have low := maximumTarget_nonneg rows
  constructor
  · refine coverProgram_feasible.mpr ⟨fun i => ⟨le_min (domain i) low, min_le_right _ _⟩, fun target listed => ?_⟩
    exact cover_cap (rows.nonneg target listed) domain (le_maximumTarget listed) low (covers target listed)
  · rw [overprediction_value, overprediction_value]
    refine List.sum_le_sum fun target listed => ?_
    exact Int.sub_le_sub_right (sum_cap_le (rows.nonneg target listed)) _

/-- The values found are the canonical cover, among all multiples of the quantum. -/
theorem solveValues_canonical (exact : ExactSolver solve) (rows : Rows targets)
    (passes : checkTargets targets quantum = .ok ()) : ∃ c, solveValues solve targets quantum = .ok c ∧
      CanonicalCover targets quantum c ∧ ∀ i, 0 ≤ c i ∧ c i ≤ sint64Max := by
  have checked := checkTargets_ok passes
  have positive := checked.positive
  have quantized := quantized_rows rows positive
  have low := maximumTarget_nonneg quantized
  have some := coverProgram_some quantized low
  obtain ⟨first, solved⟩ := exact.complete some (overprediction (quantizedTargets targets quantum))
  have optimal := exact.optimal solved
  obtain ⟨Q, x, returned, feasible, least⟩ := settled exact
    (IntegerProgram.feasible_add.mpr ⟨optimal.feasible, rfl⟩ : ((coverProgram (quantizedTargets targets quantum)
      (maximumTarget (quantizedTargets targets quantum))).add
        (.equal (overprediction (quantizedTargets targets quantum))
          ((overprediction (quantizedTargets targets quantum)).value first))).Feasible first) fun _ => 0
  obtain ⟨inside, fixed⟩ := IntegerProgram.feasible_add.mp feasible
  obtain ⟨domain, covers⟩ := coverProgram_feasible.mp inside
  refine ⟨fun i => x i * quantum, ?_, ⟨fun i => ⟨(x i).toNat, ?_⟩, (covers_scaled positive).mpr covers, ?_⟩, fun i => ⟨?_, ?_⟩⟩
  · rw [solveValues, passes, bind_eq_ok]
    refine ⟨(), rfl, bind_eq_ok.mpr ⟨first, by rw [solveOptimal, solved], bind_eq_ok.mpr ⟨(Q, x), returned, rfl⟩⟩⟩
  · rw [Int.toNat_of_nonneg (domain i).1]
  · intro d multiple above
    choose k scaled using multiple
    obtain rfl : d = fun i => (k i : Int) * quantum := funext scaled
    have natural := (covers_scaled positive).mp above
    obtain ⟨cut, cheaper⟩ := cover_cut quantized (fun i => Int.natCast_nonneg (k i)) natural
    have under := optimal.least _ cut
    have equal : (overprediction (quantizedTargets targets quantum)).value x =
        (overprediction (quantizedTargets targets quantum)).value first := fixed
    obtain ⟨offset, total⟩ := overprediction_scaled targets quantum
    rw [total, total]
    rcases (under.trans cheaper).lt_or_eq with less | same
    · left
      have := mul_lt_mul_of_pos_right less positive
      rw [equal]
      omega
    · right
      refine ⟨by rw [equal, same], lex_scaled positive ?_⟩
      have tied := IntegerProgram.feasible_add.mpr ⟨cut, show Constraint.Holds _ (.equal _ _) from
        le_antisymm (cheaper.trans same.ge) under⟩
      exact (least _ tied).trans (Pi.toLex_monotone fun i => min_le_left _ _)
  · exact mul_nonneg (domain i).1 positive.le
  · exact (mul_le_mul_of_nonneg_right (domain i).2 positive.le).trans checked.coefficient

/-- The expressions of the model at an assignment in its domain, and the numbers they
are made of. -/
structure InRange (quantized : List (Target n)) (x : Fin n → Int) : Prop where
  prediction : ∀ target ∈ quantized, 0 ≤ ∑ i, target.1 i * x i ∧ ∑ i, target.1 i * x i ≤ sint64Max
  overprediction : - sint64Max ≤ (overprediction quantized).value x ∧ (overprediction quantized).value x ≤ sint64Max
  coefficient : ∀ i, 0 ≤ (FfnAgent.overprediction quantized).coefficients i ∧
    (FfnAgent.overprediction quantized).coefficients i ≤ sint64Max
  entry : ∀ target ∈ quantized, ∀ i, 0 ≤ target.1 i ∧ target.1 i ≤ sint64Max
  bound : ∀ target ∈ quantized, 0 ≤ target.2 ∧ target.2 ≤ sint64Max
  constant : - sint64Max ≤ (FfnAgent.overprediction quantized).constant ∧ (FfnAgent.overprediction quantized).constant ≤ 0

theorem le_sum_of_mem {values : List Int} (nonneg : ∀ value ∈ values, 0 ≤ value) {value : Int} (listed : value ∈ values) :
    value ≤ values.sum :=
  List.single_le_sum nonneg value listed

/-- The check on the largest target bounds every expression of the model. -/
theorem expressions_inRange (rows : Rows targets) (checked : Checked targets quantum)
    (domain : ∀ i, 0 ≤ x i ∧ x i ≤ maximumTarget (quantizedTargets targets quantum)) :
    InRange (quantizedTargets targets quantum) x := by
  have quantized := quantized_rows rows checked.positive
  have bound := checked.expression
  have some : quantizedTargets targets quantum ≠ [] := by
    simpa [quantizedTargets] using checked.some
  generalize quantizedTargets targets quantum = entries at *
  have low := maximumTarget_nonneg quantized
  obtain ⟨entry, listed⟩ := List.exists_mem_of_ne_nil entries some
  have unit : 1 ≤ maximumTarget entries := Int.add_one_le_iff.mpr ((quantized.target entry listed).trans_le (le_maximumTarget listed))
  have sums (target) (listed : target ∈ entries) : 1 ≤ ∑ i, target.1 i := by
    obtain ⟨i, counts⟩ := quantized.counted target listed
    exact (Int.add_one_le_iff.mpr counts).trans
      (Finset.single_le_sum (fun j _ => quantized.nonneg target listed j) (Finset.mem_univ i))
  have scaled : maximumTarget entries * (entries.map fun target => ∑ i, target.1 i).sum =
      (entries.map fun target => maximumTarget entries * ∑ i, target.1 i).sum := (List.sum_map_mul_left ..).symm
  rw [scaled] at bound
  have largest (target) (listed : target ∈ entries) : maximumTarget entries * ∑ i, target.1 i ≤ sint64Max :=
    (le_sum_of_mem (by
      intro value among
      obtain ⟨other, inside, rfl⟩ := List.mem_map.mp among
      exact mul_nonneg low (by have := sums other inside; omega)) (List.mem_map_of_mem listed)).trans bound
  have predicted (target) (listed : target ∈ entries) : 0 ≤ ∑ i, target.1 i * x i ∧
      ∑ i, target.1 i * x i ≤ maximumTarget entries * ∑ i, target.1 i := by
    refine ⟨Finset.sum_nonneg fun i _ => mul_nonneg (quantized.nonneg target listed i) (domain i).1, ?_⟩
    rw [Finset.mul_sum]
    refine Finset.sum_le_sum fun i _ => ?_
    rw [mul_comm]
    exact mul_le_mul_of_nonneg_right (domain i).2 (quantized.nonneg target listed i)
  have targets (target) (listed : target ∈ entries) : target.2 ≤ maximumTarget entries * ∑ i, target.1 i :=
    (le_maximumTarget listed).trans (le_mul_of_one_le_right low (sums target listed))
  have total : (entries.map Prod.snd).sum ≤ sint64Max := (List.sum_le_sum fun target listed => targets target listed).trans bound
  have positive : 0 ≤ (entries.map Prod.snd).sum := List.sum_nonneg fun value among => by
    obtain ⟨target, inside, rfl⟩ := List.mem_map.mp among
    exact (quantized.target target inside).le
  have entryBound (target) (listed : target ∈ entries) (i) : target.1 i ≤ maximumTarget entries * ∑ j, target.1 j :=
    (Finset.single_le_sum (f := target.1) (fun j _ => quantized.nonneg target listed j) (Finset.mem_univ i)).trans
      (le_mul_of_one_le_left (by have := sums target listed; omega) unit)
  refine ⟨fun target listed => ?_, ?_, fun i => ?_, fun target listed i => ?_, fun target listed => ?_, ?_⟩
  · obtain ⟨below, above⟩ := predicted target listed
    exact ⟨below, above.trans (largest target listed)⟩
  · rw [overprediction_split]
    have above : (entries.map fun target => ∑ i, target.1 i * x i).sum ≤ sint64Max :=
      (List.sum_le_sum fun target listed => (predicted target listed).2).trans bound
    have below : 0 ≤ (entries.map fun target => ∑ i, target.1 i * x i).sum := List.sum_nonneg fun value among => by
      obtain ⟨target, inside, rfl⟩ := List.mem_map.mp among
      exact (predicted target inside).1
    omega
  · constructor
    · exact List.sum_nonneg fun value among => by
        obtain ⟨target, inside, rfl⟩ := List.mem_map.mp among
        exact quantized.nonneg target inside i
    · exact (List.sum_le_sum fun target listed => entryBound target listed i).trans bound
  · exact ⟨quantized.nonneg target listed i, (entryBound target listed i).trans (largest target listed)⟩
  · exact ⟨(quantized.target target listed).le, (targets target listed).trans (largest target listed)⟩
  · show - sint64Max ≤ - (entries.map Prod.snd).sum ∧ - (entries.map Prod.snd).sum ≤ 0
    omega

end solved

end CrossPool.FfnAgent
