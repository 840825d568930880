import CrossPool.FfnAgent.Calibration
import Mathlib.Tactic.FinCases

/-!
# The calibration envelope

What the fit returns for a family of observations: the rows with their largest
residuals depend on the set of observations alone, so the canonical cover does too, and
it covers each observation by the exact value of its expression. Evaluation refuses
values beyond 64 bits.
-/

namespace CrossPool.FfnAgent

open CrossPool.Lib

/-! ## The feature rows of a family of observations -/

section rows

variable {n : Nat} {vector : Fin n → Int} {residual : Int} {targets : List (Target n)}

theorem raiseTarget_keys : ∀ other, other ∈ (raiseTarget vector residual targets).map Prod.fst ↔
    other = vector ∨ other ∈ targets.map Prod.fst := by
  induction targets with
  | nil => simp [raiseTarget]
  | cons entry rest ih =>
    obtain ⟨first, target⟩ := entry
    intro other
    rw [raiseTarget]
    split
    · next same => simp only [List.map_cons, List.mem_cons, ← same, or_self_left]
    · simp only [List.map_cons, List.mem_cons, ih other]
      exact or_left_comm

theorem raiseTarget_distinct (distinct : (targets.map Prod.fst).Nodup) :
    ((raiseTarget vector residual targets).map Prod.fst).Nodup := by
  induction targets with
  | nil => simp [raiseTarget]
  | cons entry rest ih =>
    obtain ⟨first, target⟩ := entry
    rw [List.map_cons, List.nodup_cons] at distinct
    rw [raiseTarget]
    split
    · exact List.nodup_cons.mpr distinct
    · next differ =>
      refine List.nodup_cons.mpr ⟨?_, ih distinct.2⟩
      rw [raiseTarget_keys]
      exact not_or.mpr ⟨differ, distinct.1⟩

/-- A raised table has the targets of other rows, and for the row the old target or the
residual. -/
theorem mem_raiseTarget (low : 0 ≤ residual) {target : Target n} (listed : target ∈ raiseTarget vector residual targets) :
    target ∈ targets ∨ target = (vector, residual) := by
  induction targets with
  | nil =>
    right
    rw [List.mem_singleton.mp listed, max_eq_right low]
  | cons entry rest ih =>
    obtain ⟨first, old⟩ := entry
    rw [raiseTarget] at listed
    split at listed
    · next same =>
      rcases List.mem_cons.mp listed with rfl | later
      · rcases max_choice old residual with keeps | raises
        · exact .inl (by rw [keeps]; exact List.mem_cons_self)
        · exact .inr (by rw [raises, same])
      · exact .inl (List.mem_cons_of_mem _ later)
    · rcases List.mem_cons.mp listed with rfl | later
      · exact .inl List.mem_cons_self
      · exact (ih later).imp_left (List.mem_cons_of_mem _)

/-- No target falls, and the row reaches the residual. -/
theorem raiseTarget_reaches (vector : Fin n → Int) (residual : Int) (targets : List (Target n)) :
    (∀ target ∈ targets, ∃ value, (target.1, value) ∈ raiseTarget vector residual targets ∧ target.2 ≤ value) ∧
      ∃ value, (vector, value) ∈ raiseTarget vector residual targets ∧ residual ≤ value := by
  induction targets with
  | nil => exact ⟨by simp, _, List.mem_cons_self, le_max_right _ _⟩
  | cons entry rest ih =>
    obtain ⟨first, old⟩ := entry
    obtain ⟨kept, value, own, reached⟩ := ih
    rw [raiseTarget]
    split
    · next same =>
      constructor
      · intro target listed
        rcases List.mem_cons.mp listed with rfl | later
        · exact ⟨_, List.mem_cons_self, le_max_left _ _⟩
        · exact ⟨target.2, List.mem_cons_of_mem _ later, le_rfl⟩
      · exact ⟨_, by rw [same]; exact List.mem_cons_self, le_max_right _ _⟩
    · constructor
      · intro target listed
        rcases List.mem_cons.mp listed with rfl | later
        · exact ⟨old, List.mem_cons_self, le_rfl⟩
        · obtain ⟨value, inside, le⟩ := kept target later
          exact ⟨value, List.mem_cons_of_mem _ inside, le⟩
      · exact ⟨value, List.mem_cons_of_mem _ own, reached⟩

end rows

section scan

variable {seen other : List MemoryObservation} {scan later : FitScan} {observation : MemoryObservation}

/-- The feature row of an observation. -/
def MemoryObservation.vector (observation : MemoryObservation) : Fin 10 → Int :=
  observation.point.features.calibrationValues

/-- The bytes that the analytic estimate leaves uncovered. -/
def MemoryObservation.residual (observation : MemoryObservation) : Int :=
  max 0 (observation.observedDeviceBytes - observation.point.estimatedPhysicalBytes.sum)

/-- What the scan of some observations has gathered: for every row that occurs its
largest residual, and the observations that are positive. -/
structure Scanned (seen : List MemoryObservation) (scan : FitScan) : Prop where
  analytic : ∀ observation ∈ seen,
    observation.point.analyticEstimateBytes = .ok observation.point.estimatedPhysicalBytes.sum
  distinct : (scan.targets.map Prod.fst).Nodup
  attained : ∀ target ∈ scan.targets, ∃ observation ∈ seen, (observation.vector, observation.residual) = target
  reached : ∀ observation ∈ seen, ∃ value, (observation.vector, value) ∈ scan.targets ∧ observation.residual ≤ value
  positive : ∀ value, value ∈ scan.positiveObservations ↔
    ∃ observation ∈ seen, 0 < observation.observedDeviceBytes ∧ observation.observedDeviceBytes.toNat = value

theorem analyticEstimateBytes_ok {point : DeviceMemoryPoint} {analytic : Int} (returned : point.analyticEstimateBytes = .ok analytic) :
    analytic = point.estimatedPhysicalBytes.sum := by
  obtain ⟨-, -, same⟩ := bind_eq_ok.mp returned
  exact (Except.ok.inj same).symm

theorem residual_nonneg (observation : MemoryObservation) : 0 ≤ observation.residual :=
  le_max_left _ _

/-- One more observation. -/
theorem observe_scanned (scanned : Scanned seen scan) (returned : scan.observe observation = .ok later) :
    Scanned (seen ++ [observation]) later := by
  obtain ⟨analytic, estimated, same⟩ := bind_eq_ok.mp returned
  obtain rfl := analyticEstimateBytes_ok estimated
  obtain rfl := Except.ok.inj same
  obtain ⟨kept, value, own, reaches⟩ := raiseTarget_reaches observation.vector observation.residual scan.targets
  refine ⟨fun o listed => ?_, raiseTarget_distinct scanned.distinct, fun target listed => ?_, fun o listed => ?_, fun value => ?_⟩
  · rcases List.mem_append.mp listed with early | here
    · exact scanned.analytic o early
    · rw [List.mem_singleton.mp here]
      exact estimated
  · rcases mem_raiseTarget (residual_nonneg observation) listed with early | rfl
    · obtain ⟨o, inside, same⟩ := scanned.attained target early
      exact ⟨o, List.mem_append_left _ inside, same⟩
    · exact ⟨observation, List.mem_append_right _ (List.mem_singleton.mpr rfl), rfl⟩
  · rcases List.mem_append.mp listed with early | here
    · obtain ⟨before, inside, le⟩ := scanned.reached o early
      obtain ⟨after, inside, le'⟩ := kept _ inside
      exact ⟨after, inside, le.trans le'⟩
    · rw [List.mem_singleton.mp here]
      exact ⟨value, own, reaches⟩
  · show value ∈ (if _ then _ else _) ↔ _
    split
    · next counts =>
      simp only [List.mem_append, List.mem_singleton, scanned.positive value]
      constructor
      · rintro (⟨o, inside, positive⟩ | rfl)
        · exact ⟨o, .inl inside, positive⟩
        · exact ⟨observation, .inr rfl, counts, rfl⟩
      · rintro ⟨o, inside | rfl, positive, same⟩
        · exact .inl ⟨o, inside, positive, same⟩
        · exact .inr same.symm
    · next out =>
      simp only [List.mem_append, List.mem_singleton, scanned.positive value]
      constructor
      · rintro ⟨o, inside, positive⟩
        exact ⟨o, .inl inside, positive⟩
      · rintro ⟨o, inside | rfl, positive, same⟩
        · exact ⟨o, inside, positive, same⟩
        · exact absurd positive out

theorem scan_scanned (returned : seen.foldlM FitScan.observe ⟨[], []⟩ = .ok scan) : Scanned seen scan := by
  apply foldlM_eq_ok ⟨by simp, List.nodup_nil, by simp, by simp, by simp⟩ _ returned
  intro seen observation scan later _ before stepped
  exact observe_scanned before stepped

/-- A scan returns where every estimate does. -/
theorem scan_returns (estimated : ∀ observation ∈ seen,
    observation.point.analyticEstimateBytes = .ok observation.point.estimatedPhysicalBytes.sum) :
    ∃ scan, seen.foldlM FitScan.observe ⟨[], []⟩ = .ok scan := by
  refine foldlM_returns (fun scan observation listed => ?_) _
  exact ⟨_, bind_eq_ok.mpr ⟨_, estimated observation listed, rfl⟩⟩

/-- A scan only raises what an estimate out of range raises. -/
theorem scan_raises {scan : FitScan} {message : String} (raised : seen.foldlM FitScan.observe scan = .error message) :
    message = "values require non-negative sint64 integers" := by
  induction seen generalizing scan with
  | nil => cases raised
  | cons observation seen ih =>
    rw [List.foldlM_cons] at raised
    cases stepped : scan.observe observation with
    | ok next =>
      rw [stepped] at raised
      exact ih raised
    | error other =>
      rw [stepped] at raised
      obtain rfl : other = message := Except.error.inj raised
      simp only [FitScan.observe, DeviceMemoryPoint.analyticEstimateBytes, ensureSint64Nonnegative] at stepped
      split at stepped
      · cases stepped
      · exact (Except.error.inj stepped).symm

/-- Two scans of the same observations have the same rows with the same targets. -/
theorem Scanned.perm (first : Scanned seen scan) (second : Scanned other later)
    (same : ∀ observation, observation ∈ seen ↔ observation ∈ other) : scan.targets.Perm later.targets := by
  have half {seen other : List MemoryObservation} {scan later : FitScan} (first : Scanned seen scan)
      (second : Scanned other later) (same : ∀ observation, observation ∈ seen ↔ observation ∈ other) (target)
      (listed : target ∈ scan.targets) : ∃ value, (target.1, value) ∈ later.targets ∧ target.2 ≤ value := by
    obtain ⟨o, inside, rfl⟩ := first.attained target listed
    exact second.reached o ((same o).mp inside)
  have equal {targets : List (Target 10)} (distinct : (targets.map Prod.fst).Nodup) {vector value value'}
      (one : (vector, value) ∈ targets) (two : (vector, value') ∈ targets) : value = value' := by
    have := List.inj_on_of_nodup_map distinct one two rfl
    exact (Prod.mk.inj this).2
  have both {seen other : List MemoryObservation} {scan later : FitScan} (first : Scanned seen scan)
      (second : Scanned other later) (same : ∀ observation, observation ∈ seen ↔ observation ∈ other) (target)
      (listed : target ∈ scan.targets) : target ∈ later.targets := by
    obtain ⟨vector, value⟩ := target
    obtain ⟨value', inside, le⟩ := half first second same _ listed
    obtain ⟨value'', back, le'⟩ := half second first (fun o => (same o).symm) _ inside
    obtain rfl := equal first.distinct listed back
    obtain rfl : value = value' := le_antisymm le le'
    exact inside
  rw [List.perm_ext_iff_of_nodup (first.distinct.of_map _) (second.distinct.of_map _)]
  exact fun target => ⟨both first second same target, both second first (fun o => (same o).symm) target⟩

theorem dvd_foldl_gcd {d start : Nat} {values : List Nat} : d ∣ values.foldl Nat.gcd start ↔ d ∣ start ∧ ∀ value ∈ values, d ∣ value := by
  induction values generalizing start with
  | nil => simp
  | cons value values ih => simp [ih, Nat.dvd_gcd_iff, and_assoc]

/-- The same positive observations have the same quantum. -/
theorem Scanned.quantum (first : Scanned seen scan) (second : Scanned other later)
    (same : ∀ observation, observation ∈ seen ↔ observation ∈ other) :
    scan.positiveObservations.foldl Nat.gcd 0 = later.positiveObservations.foldl Nat.gcd 0 := by
  have values : ∀ value, value ∈ scan.positiveObservations ↔ value ∈ later.positiveObservations := by
    intro value
    simp only [first.positive, second.positive, same]
  apply Nat.dvd_antisymm
  · exact dvd_foldl_gcd.mpr ⟨dvd_zero _, fun value listed => (dvd_foldl_gcd.mp dvd_rfl).2 value ((values value).mpr listed)⟩
  · exact dvd_foldl_gcd.mpr ⟨dvd_zero _, fun value listed => (dvd_foldl_gcd.mp dvd_rfl).2 value ((values value).mp listed)⟩

end scan


/-! ## The fit as a whole -/

section fit

variable {solve other : Solver 10} {fit again heldOut : List MemoryProfileWorld} {targets : List (Target 10)} {quantum : Int}
  {coefficients : FfnMemoryCalibrationCoefficients} {headroom : Int}

/-- The rows that the fit solves for: each feature row once, with the largest residual
of its observations and one quantum more. -/
structure FitRows (fit : List MemoryProfileWorld) (targets : List (Target 10)) (quantum : Int) : Prop where
  analytic : ∀ observation ∈ fit.flatMap (·.observations),
    observation.point.analyticEstimateBytes = .ok observation.point.estimatedPhysicalBytes.sum
  distinct : (targets.map Prod.fst).Nodup
  attained : ∀ target ∈ targets, ∃ observation ∈ fit.flatMap (·.observations),
    (observation.vector, observation.residual + quantum) = target
  reached : ∀ observation ∈ fit.flatMap (·.observations), ∃ value,
    (observation.vector, value) ∈ targets ∧ observation.residual + quantum ≤ value
  positive : 0 < quantum

/-- What follows a scan that returns. -/
theorem fitTargets_eq {scan : FitScan} (scanned : (fit.flatMap (·.observations)).foldlM FitScan.observe ⟨[], []⟩ = .ok scan) :
    fitTargets fit = if ((scan.positiveObservations.foldl Nat.gcd 0 : Nat) : Int) ≤ 0 then
        .error "memory-profile evidence has no positive device-observation quantum"
      else .ok (scan.targets.map fun target => (target.1, target.2 + (scan.positiveObservations.foldl Nat.gcd 0 : Nat)),
        (scan.positiveObservations.foldl Nat.gcd 0 : Nat)) := by
  rw [fitTargets, scanned]
  by_cases none : ((scan.positiveObservations.foldl Nat.gcd 0 : Nat) : Int) ≤ 0
  · rw [if_pos none]
    exact if_pos none
  · rw [if_neg none]
    exact if_neg none

theorem fitTargets_rows (returned : fitTargets fit = .ok (targets, quantum)) : FitRows fit targets quantum := by
  obtain ⟨scan, scanned, -⟩ := bind_eq_ok.mp returned
  have facts := scan_scanned scanned
  rw [fitTargets_eq scanned] at returned
  split at returned
  · cases returned
  next positive =>
  obtain ⟨rfl, rfl⟩ := Prod.mk.inj (Except.ok.inj returned)
  refine ⟨facts.analytic, ?_, fun target listed => ?_, fun observation listed => ?_, not_le.mp positive⟩
  · rw [List.map_map]
    exact facts.distinct
  · obtain ⟨own, inside, rfl⟩ := List.mem_map.mp listed
    obtain ⟨observation, inside, same⟩ := facts.attained own inside
    exact ⟨observation, inside, by rw [← same]⟩
  · obtain ⟨value, inside, le⟩ := facts.reached observation listed
    exact ⟨_, List.mem_map_of_mem inside, Int.add_le_add_right le _⟩

/-- The same observations, however often and in whatever order, give the same rows and
the same quantum, or the same error. -/
theorem fitTargets_same
    (same : ∀ observation, observation ∈ fit.flatMap (·.observations) ↔ observation ∈ again.flatMap (·.observations)) :
    (∃ message, fitTargets fit = .error message ∧ fitTargets again = .error message) ∨
      ∃ targets targets' quantum, fitTargets fit = .ok (targets, quantum) ∧ fitTargets again = .ok (targets', quantum) ∧
        targets.Perm targets' := by
  cases scanned : (fit.flatMap (·.observations)).foldlM FitScan.observe ⟨[], []⟩ with
  | error message =>
    cases scanned' : (again.flatMap (·.observations)).foldlM FitScan.observe ⟨[], []⟩ with
    | error message' =>
      obtain rfl := scan_raises scanned
      obtain rfl := scan_raises scanned'
      exact .inl ⟨_, by rw [fitTargets, scanned]; rfl, by rw [fitTargets, scanned']; rfl⟩
    | ok scan' =>
      obtain ⟨scan, returned⟩ := scan_returns fun o listed => (scan_scanned scanned').analytic o ((same o).mp listed)
      rw [scanned] at returned
      cases returned
  | ok scan =>
    have facts := scan_scanned scanned
    obtain ⟨scan', scanned'⟩ := scan_returns fun o listed => facts.analytic o ((same o).mpr listed)
    have facts' := scan_scanned scanned'
    have gcd := facts.quantum facts' same
    rw [fitTargets_eq scanned, fitTargets_eq scanned', ← gcd]
    by_cases none : ((scan.positiveObservations.foldl Nat.gcd 0 : Nat) : Int) ≤ 0
    · exact .inl ⟨_, if_pos none, if_pos none⟩
    · exact .inr ⟨_, _, _, if_neg none, if_neg none, (facts.perm facts' same).map _⟩

theorem calibrationValues_nonneg (features : DeviceMemoryFeatures) (i : Fin 10) : 0 ≤ features.calibrationValues i := by
  have checked := ensureSint64Nonnegative_ok.mp features.checked
  simp only [List.mem_cons, List.not_mem_nil, or_false, forall_eq_or_imp, forall_eq] at checked
  obtain ⟨storage, allocations, dense, moe, lanes, branches⟩ := checked
  fin_cases i
  · exact Int.one_nonneg
  · show 0 ≤ (features.tensorStorageBytes + mib - 1) / mib * mib / mib
    have unit : (0 : Int) < mib := by decide
    rw [Int.mul_ediv_cancel _ unit.ne']
    exact Int.ediv_nonneg (by unfold mib; omega) unit.le
  · exact allocations.1
  · exact dense.1
  · exact moe.1
  · exact lanes.1
  · exact branches.1
  · show 0 ≤ if features.denseImplementationPresent then (1 : Int) else 0
    split <;> decide
  · show 0 ≤ if features.moeImplementationPresent then (1 : Int) else 0
    split <;> decide
  · show 0 ≤ if features.joinedFfnagent then (1 : Int) else 0
    split <;> decide

theorem FitRows.rows (facts : FitRows fit targets quantum) : Rows targets := by
  refine ⟨fun target listed i => ?_, fun target listed => ⟨0, ?_⟩, fun target listed => ?_⟩ <;>
    obtain ⟨observation, -, rfl⟩ := facts.attained target listed
  · exact calibrationValues_nonneg _ i
  · exact Int.one_pos
  · have := facts.positive
    have := residual_nonneg observation
    show 0 < observation.residual + quantum
    omega

theorem construct_values {v : Fin 10 → Int} (constructed : FfnMemoryCalibrationCoefficients.construct v = .ok coefficients) :
    coefficients.values = v := by
  obtain ⟨-, -, same⟩ := bind_eq_ok.mp constructed
  obtain rfl := Except.ok.inj same
  funext i
  fin_cases i <;> rfl

/-- The checks before the model do not depend on the order of the rows. -/
theorem checkTargets_perm {n : Nat} {targets others : List (Target n)} (same : targets.Perm others) (quantum : Int) :
    checkTargets targets quantum = checkTargets others quantum := by
  have quantized : (quantizedTargets targets quantum).Perm (quantizedTargets others quantum) := same.map _
  have largest : maximumTarget (quantizedTargets targets quantum) = maximumTarget (quantizedTargets others quantum) := by
    unfold maximumTarget
    have values := quantized.map Prod.snd
    cases found : ((quantizedTargets targets quantum).map Prod.snd).max? with
    | none =>
      have empty := List.max?_eq_none_iff.mp found
      rw [empty] at values
      rw [← values.nil_eq]
      rfl
    | some value =>
      obtain ⟨listed, above⟩ := List.max?_eq_some_iff.mp found
      rw [List.max?_eq_some_iff.mpr ⟨values.mem_iff.mp listed, fun other inside => above other (values.mem_iff.mpr inside)⟩]
  have sums : ((quantizedTargets targets quantum).map fun target => ∑ i, target.1 i).sum =
      ((quantizedTargets others quantum).map fun target => ∑ i, target.1 i).sum := (quantized.map _).sum_eq
  have empty : targets = [] ↔ others = [] := by
    constructor
    · rintro rfl
      exact same.nil_eq.symm
    · rintro rfl
      exact same.eq_nil
  have unexercised : (∃ i, ∀ target ∈ targets, target.1 i = 0) ↔ ∃ i, ∀ target ∈ others, target.1 i = 0 := by
    simp only [same.mem_iff]
  simp only [checkTargets, empty, unexercised, largest, sums]

/-- Exact solvers find the same coefficients for the same rows. -/
theorem solveCoefficients_perm (exact : ExactSolver solve) (exact' : ExactSolver other) {others : List (Target 10)}
    (rows : Rows targets) (same : targets.Perm others) :
    solveCoefficients solve targets quantum = solveCoefficients other others quantum := by
  have rows' : Rows others := ⟨fun target listed => rows.nonneg target (same.mem_iff.mpr listed),
    fun target listed => rows.counted target (same.mem_iff.mpr listed),
    fun target listed => rows.target target (same.mem_iff.mpr listed)⟩
  have checks := checkTargets_perm same quantum
  cases passes : checkTargets targets quantum with
  | error message =>
    rw [solveCoefficients, solveCoefficients, solveValues, solveValues, ← checks, passes]
    rfl
  | ok passed =>
    obtain ⟨c, found, cover, -⟩ := solveValues_canonical exact rows passes
    obtain ⟨d, found', cover', -⟩ := solveValues_canonical exact' rows' (checks ▸ passes)
    obtain rfl := (cover.perm same).unique cover'
    rw [solveCoefficients, solveCoefficients, found, found']

/-- What a fit that returns has solved. -/
theorem fitWorlds_solved (exact : ExactSolver solve) (returned : fitWorlds solve fit heldOut = .ok (coefficients, headroom)) :
    ∃ targets quantum, fitTargets fit = .ok (targets, quantum) ∧ FitRows fit targets quantum ∧ Checked targets quantum ∧
      CanonicalCover targets quantum coefficients.values ∧ ∀ i, 0 ≤ coefficients.values i ∧ coefficients.values i ≤ sint64Max := by
  obtain ⟨⟨targets, quantum⟩, gathered, rest⟩ := bind_eq_ok.mp returned
  obtain ⟨solved, solving, rest⟩ := bind_eq_ok.mp rest
  obtain ⟨held, -, rest⟩ := bind_eq_ok.mp rest
  have same : solved = coefficients := by
    split at rest
    · cases rest
    · exact (Prod.mk.inj (Except.ok.inj rest)).1
  subst same
  have facts := fitTargets_rows gathered
  obtain ⟨values, found, constructed⟩ := bind_eq_ok.mp solving
  cases passes : checkTargets targets quantum with
  | error message =>
    rw [solveValues, passes] at found
    cases found
  | ok passed =>
    obtain ⟨c, found', cover, inside⟩ := solveValues_canonical exact facts.rows passes
    rw [found'] at found
    obtain rfl := Except.ok.inj found
    rw [construct_values constructed]
    exact ⟨targets, quantum, gathered, facts, checkTargets_ok passes, cover, inside⟩

/-- The exact expression covers each observation of the fit. -/
theorem FitRows.covered (facts : FitRows fit targets quantum) (cover : CanonicalCover targets quantum coefficients.values)
    {observation : MemoryObservation} (listed : observation ∈ fit.flatMap (·.observations)) :
    observation.observedDeviceBytes ≤
      observation.point.estimatedPhysicalBytes.sum + coefficients.prediction observation.point.features := by
  obtain ⟨value, inside, le⟩ := facts.reached observation listed
  have enough := cover.covers _ inside
  have same : ∑ i, observation.vector i * coefficients.values i = coefficients.prediction observation.point.features :=
    Finset.sum_congr rfl fun i _ => mul_comm _ _
  have residual : observation.observedDeviceBytes - observation.point.estimatedPhysicalBytes.sum ≤ observation.residual :=
    le_max_right _ _
  have := facts.positive
  rw [← same]
  show observation.observedDeviceBytes ≤ _ + ∑ i, observation.vector i * coefficients.values i
  have : value ≤ ∑ i, observation.vector i * coefficients.values i := enough
  omega

theorem evaluate_eq (nonneg : ∀ i, 0 ≤ coefficients.values i) (features : DeviceMemoryFeatures) :
    coefficients.evaluate features =
      if coefficients.prediction features ≤ sint64Max then .ok (coefficients.prediction features)
      else .error "values require non-negative sint64 integers" := by
  have low : 0 ≤ coefficients.prediction features :=
    Finset.sum_nonneg fun i _ => mul_nonneg (nonneg i) (calibrationValues_nonneg features i)
  simp only [FfnMemoryCalibrationCoefficients.evaluate, ensureSint64Nonnegative, List.mem_singleton, forall_eq, low, true_and]
  split <;> rfl

/-- The coefficients of a fit are the canonical cover of the rows of its observations,
which their order and repetition do not change: they cover every observation by the
exact value of the expression, which evaluation returns unless it leaves 64 bits, and
neither they nor the expressions of the model leave 64 bits. -/
theorem calibration_envelope (exact : ExactSolver solve)
    (returned : fitWorlds solve fit heldOut = .ok (coefficients, headroom)) :
    (∀ observation ∈ fit.flatMap (·.observations), ∃ analytic,
      observation.point.analyticEstimateBytes = .ok analytic ∧
        observation.observedDeviceBytes ≤ analytic + coefficients.prediction observation.point.features ∧
        coefficients.evaluate observation.point.features =
          if coefficients.prediction observation.point.features ≤ sint64Max then
            .ok (coefficients.prediction observation.point.features)
          else .error "values require non-negative sint64 integers") ∧
      (∃ targets quantum, fitTargets fit = .ok (targets, quantum) ∧ FitRows fit targets quantum ∧
        CanonicalCover targets quantum coefficients.values ∧
        ∀ x : Fin 10 → Int, (∀ i, 0 ≤ x i ∧ x i ≤ maximumTarget (quantizedTargets targets quantum)) →
          InRange (quantizedTargets targets quantum) x) ∧
      (∀ i, 0 ≤ coefficients.values i ∧ coefficients.values i ≤ sint64Max) ∧
      ∀ other again, ExactSolver other →
        (∀ observation, observation ∈ fit.flatMap (·.observations) ↔ observation ∈ again.flatMap (·.observations)) →
        fitWorlds other again heldOut = .ok (coefficients, headroom) := by
  obtain ⟨targets, quantum, gathered, facts, checked, cover, inside⟩ := fitWorlds_solved exact returned
  refine ⟨fun observation listed => ?_, ⟨targets, quantum, gathered, facts, cover, fun x domain => ?_⟩, inside, ?_⟩
  · exact ⟨_, facts.analytic observation listed, facts.covered cover listed, evaluate_eq (fun i => (inside i).1) _⟩
  · exact expressions_inRange facts.rows checked domain
  · intro other again exact' same
    rcases fitTargets_same same with ⟨message, raised, -⟩ | ⟨targets', others, quantum', first, second, perm⟩
    · rw [gathered] at raised
      cases raised
    · rw [gathered] at first
      obtain ⟨rfl, rfl⟩ := Prod.mk.inj (Except.ok.inj first)
      rw [← returned, fitWorlds, fitWorlds, gathered, second]
      show (solveCoefficients other others quantum >>= _) = (solveCoefficients solve targets quantum >>= _)
      rw [solveCoefficients_perm exact exact' facts.rows perm]

end fit

/-! ## A fit beyond 64 bits -/

/-- A point with storage and an allocation. -/
def bothFeatures : DeviceMemoryFeatures :=
  ⟨2 ^ 20, 1, 0, 0, 0, 0, false, false, false, by decide⟩

/-- A point with all other features. -/
def otherFeatures : DeviceMemoryFeatures :=
  ⟨0, 0, 1, 1, 1, 1, true, true, true, by decide⟩

/-- Large residuals with storage and with an allocation, none with both. -/
def skewedWorld : MemoryProfileWorld where
  models := "()"
  participants :=
    [[⟨⟨[], ⟨2 ^ 20, 0, 0, 0, 0, 0, false, false, false, by decide⟩, by decide⟩, 2 ^ 62⟩,
      ⟨⟨[], ⟨0, 1, 0, 0, 0, 0, false, false, false, by decide⟩, by decide⟩, 2 ^ 62⟩,
      ⟨⟨[2 ^ 61], bothFeatures, by decide⟩, 2 ^ 61⟩, ⟨⟨[2 ^ 61], otherFeatures, by decide⟩, 2 ^ 61⟩]]

/-- A held-out world of a point that the fit has seen. -/
def heldOutWorld : MemoryProfileWorld where
  models := "()"
  participants := [[⟨⟨[2 ^ 61], otherFeatures, by decide⟩, 2 ^ 61⟩]]

def skewedTargets : List (Target 10) :=
  [(![1, 1, 0, 0, 0, 0, 0, 0, 0, 0], 3 * 2 ^ 61), (![1, 0, 1, 0, 0, 0, 0, 0, 0, 0], 3 * 2 ^ 61),
    (![1, 1, 1, 0, 0, 0, 0, 0, 0, 0], 2 ^ 61), (![1, 0, 0, 1, 1, 1, 1, 1, 1, 1], 2 ^ 61)]

/-- Half of the largest residuals as the base, and twice that for storage and for an
allocation. -/
def skewedCoefficients : FfnMemoryCalibrationCoefficients :=
  ⟨2 ^ 61, 2 ^ 62, 2 ^ 62, 0, 0, 0, 0, 0, 0, 0⟩

/-- The coefficients in quanta. -/
def skewedMultiples : Fin 10 → Int :=
  ![1, 2, 2, 0, 0, 0, 0, 0, 0, 0]

/-- The rows in quanta. -/
def skewedQuanta : List (Target 10) :=
  [(![1, 1, 0, 0, 0, 0, 0, 0, 0, 0], 3), (![1, 0, 1, 0, 0, 0, 0, 0, 0, 0], 3), (![1, 1, 1, 0, 0, 0, 0, 0, 0, 0], 1),
    (![1, 0, 0, 1, 1, 1, 1, 1, 1, 1], 1)]

theorem skewed_rows : fitTargets [skewedWorld] = .ok (skewedTargets, 2 ^ 61) ∧
    checkTargets skewedTargets (2 ^ 61) = .ok () ∧ quantizedTargets skewedTargets (2 ^ 61) = skewedQuanta ∧
      (∀ i, 0 ≤ skewedMultiples i) ∧ skewedCoefficients.values = (fun i => skewedMultiples i * 2 ^ 61) ∧
      (∀ target ∈ skewedTargets, target.2 ≤ ∑ i, target.1 i * skewedCoefficients.values i) ∧
      (overprediction skewedQuanta).value skewedMultiples = 4 := by
  decide +kernel

theorem skewed_covers : Multiple (2 ^ 61) skewedCoefficients.values ∧ Covers skewedTargets skewedCoefficients.values := by
  obtain ⟨-, -, -, nonneg, scaled, covers, -⟩ := skewed_rows
  refine ⟨fun i => ⟨(skewedMultiples i).toNat, ?_⟩, covers⟩
  rw [Int.toNat_of_nonneg (nonneg i)]
  exact congrFun scaled i

/-- The canonical cover of the skewed rows. -/
theorem skewed_canonical {c : Fin 10 → Int} (cover : CanonicalCover skewedTargets (2 ^ 61) c) :
    c = skewedCoefficients.values := by
  obtain ⟨-, -, quantized, -, own, -, four⟩ := skewed_rows
  obtain ⟨multiple, covers, least⟩ := cover
  choose k scaled using multiple
  obtain rfl : c = fun i => (k i : Int) * 2 ^ 61 := funext scaled
  have quanta := (covers_scaled (by decide)).mp covers
  rw [quantized] at quanta
  have storage := quanta (![1, 1, 0, 0, 0, 0, 0, 0, 0, 0], 3) (by simp [skewedQuanta])
  have allocation := quanta (![1, 0, 1, 0, 0, 0, 0, 0, 0, 0], 3) (by simp [skewedQuanta])
  have others := quanta (![1, 0, 0, 1, 1, 1, 1, 1, 1, 1], 1) (by simp [skewedQuanta])
  simp only [Fin.sum_univ_succ] at storage allocation others
  simp at storage allocation others
  have total := least _ skewed_covers.1 skewed_covers.2
  obtain ⟨offset, grows⟩ := overprediction_scaled skewedTargets (2 ^ 61)
  rw [own, grows, grows, quantized, four] at total
  have sum : (overprediction skewedQuanta).value (fun i => (k i : Int)) =
      4 * k 0 + 2 * k 1 + 2 * k 2 + k 3 + k 4 + k 5 + k 6 + k 7 + k 8 + k 9 - 8 := by
    rw [overprediction_value]
    simp [skewedQuanta, Fin.sum_univ_succ]
    ring
  rw [sum] at total
  rcases total with less | ⟨same, le⟩
  · omega
  have base := Pi.apply_le_of_toLex le (i := 0) fun j earlier => absurd earlier (Fin.not_lt_zero j)
  have unit : (k 0 : Int) ≤ 1 := le_of_mul_le_mul_right base (by decide)
  have values : k 0 = 1 ∧ k 1 = 2 ∧ k 2 = 2 ∧ k 3 = 0 ∧ k 4 = 0 ∧ k 5 = 0 ∧ k 6 = 0 ∧ k 7 = 0 ∧ k 8 = 0 ∧ k 9 = 0 := by
    omega
  have multiples : ∀ i, (k i : Int) = skewedMultiples i := by
    simp only [Fin.forall_fin_succ, skewedMultiples]
    simp
    omega
  rw [own]
  funext i
  rw [multiples]

/-- What the fit of the skewed rows computes, up to the point with both features. That
needs five quanta, which evaluation refuses. -/
theorem skewed_construct :
    FfnMemoryCalibrationCoefficients.construct skewedCoefficients.values = .ok skewedCoefficients ∧
      ([heldOutWorld].flatMap fun world => world.observations.map fun observation => (world.models, observation)).foldlM
        (checkHeldOut skewedCoefficients) sint64Max = .ok (2 ^ 61) ∧
      skewedCoefficients.evaluate bothFeatures = .error "values require non-negative sint64 integers" := by
  decide +kernel

/-- What every exact solver makes of the skewed rows. -/
theorem skewed_fit {solve : Solver 10} (exact : ExactSolver solve) :
    fitWorlds solve [skewedWorld] [heldOutWorld] = .ok (skewedCoefficients, 2 ^ 61) := by
  obtain ⟨gathered, checked, -⟩ := skewed_rows
  obtain ⟨constructed, held, -⟩ := skewed_construct
  obtain ⟨c, found, cover, -⟩ := solveValues_canonical exact (fitTargets_rows gathered).rows checked
  obtain rfl := skewed_canonical cover
  rw [fitWorlds, gathered]
  show (solveCoefficients solve skewedTargets (2 ^ 61) >>= _) = _
  rw [solveCoefficients, found]
  show (FfnMemoryCalibrationCoefficients.construct skewedCoefficients.values >>= _) = _
  rw [constructed]
  refine bind_eq_ok.mpr ⟨skewedCoefficients, rfl, bind_eq_ok.mpr ⟨2 ^ 61, held, ?_⟩⟩
  decide

/-- A fit can return coefficients that cannot be evaluated at one of its own
observations. -/
theorem evaluation_out_of_range : ¬ ∀ (solve : Solver 10) (fit heldOut : List MemoryProfileWorld)
    (coefficients : FfnMemoryCalibrationCoefficients) (headroom : Int), ExactSolver solve →
      fitWorlds solve fit heldOut = .ok (coefficients, headroom) →
        ∀ observation ∈ fit.flatMap (·.observations), ∃ analytic predicted,
          observation.point.analyticEstimateBytes = .ok analytic ∧
            coefficients.evaluate observation.point.features = .ok predicted ∧
            observation.observedDeviceBytes ≤ analytic + predicted := by
  intro covers
  obtain ⟨solve, exact⟩ := exists_exactSolver 10
  obtain ⟨analytic, predicted, -, evaluated, -⟩ := covers solve _ _ _ _ exact (skewed_fit exact)
    ⟨⟨[2 ^ 61], bothFeatures, by decide⟩, 2 ^ 61⟩ (by simp [skewedWorld, MemoryProfileWorld.observations])
  rw [skewed_construct.2.2] at evaluated
  cases evaluated

theorem calibration_envelope_skewed : ∃ solve : Solver 10,
    fitWorlds solve [skewedWorld] [heldOutWorld] = .ok (skewedCoefficients, 2 ^ 61) ∧
      (∀ i, 0 ≤ skewedCoefficients.values i ∧ skewedCoefficients.values i ≤ sint64Max) ∧
      fitWorlds solve [skewedWorld, skewedWorld] [heldOutWorld] = .ok (skewedCoefficients, 2 ^ 61) := by
  obtain ⟨solve, exact⟩ := exists_exactSolver 10
  obtain ⟨-, -, bounded, again⟩ := calibration_envelope exact (skewed_fit exact)
  exact ⟨solve, skewed_fit exact, bounded, again solve _ exact (by simp)⟩

end CrossPool.FfnAgent
