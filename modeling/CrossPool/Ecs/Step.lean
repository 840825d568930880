import CrossPool.Ecs.Accounting
import CrossPool.Lib.Runs

/-!
# What one policy step does

Every procedure of the policy is a sequence of `Move`s, whether it returns or
raises. Since each move keeps the invariant, the accounting holds after every
run of `step`, and the query of the free bytes never finds a device overdrawn.
-/

namespace CrossPool.Ecs

open CrossPool.Lib

section Procedures

variable (dep : Deployment) (profiles : Nat → Nat → PartitionProfile) (readings : Readings)

/-- `t` is reached from `s` by moves of one step. -/
def Along (s t : CapacityPolicy) : Prop :=
  Relation.ReflTransGen (Move dep profiles readings) s t

/-- The invariant of a policy with frozen capacities. -/
structure Live (policy : CapacityPolicy) : Prop where
  invariant : PolicyInvariant dep profiles policy
  frozen : policy.poolCapacityBytes ≠ none

variable {dep profiles readings}
variable {s t u : CapacityPolicy} {book : RegistrationBook}

theorem Along.refl : Along dep profiles readings s s :=
  Relation.ReflTransGen.refl

theorem Along.move (along : Along dep profiles readings s t) (move : Move dep profiles readings t u) :
    Along dep profiles readings s u :=
  Relation.ReflTransGen.tail along move

theorem Along.trans (first : Along dep profiles readings s t) (second : Along dep profiles readings t u) :
    Along dep profiles readings s u :=
  Relation.ReflTransGen.trans first second

theorem Along.invariant (along : Along dep profiles readings s t) (inv : PolicyInvariant dep profiles s) :
    PolicyInvariant dep profiles t := by
  induction along with
  | refl => exact inv
  | tail _ move ih => exact move.invariant ih

/-- A live policy keeps its capacities. -/
theorem Move.capacity (live : s.poolCapacityBytes ≠ none) (move : Move dep profiles readings s t) :
    t.poolCapacityBytes = s.poolCapacityBytes := by
  cases move with
  | freeze capacity created =>
    rw [created] at live
    exact absurd rfl live
  | floor => assumption
  | ceiling => assumption
  | retire => assumption
  | publish => assumption
  | other => assumption

theorem Along.capacity (along : Along dep profiles readings s t) (live : s.poolCapacityBytes ≠ none) :
    t.poolCapacityBytes = s.poolCapacityBytes := by
  induction along with
  | refl => rfl
  | tail _ move ih => exact (move.capacity (ih ▸ live)).trans ih

theorem Along.live (along : Along dep profiles readings s t) (live : Live dep profiles s) : Live dep profiles t :=
  ⟨along.invariant live.invariant, along.capacity live.frozen ▸ live.frozen⟩

theorem Live.accounted (live : Live dep profiles s) :
    ∃ capacity, s.poolCapacityBytes = some capacity ∧ Accounted dep profiles capacity s := by
  obtain ⟨capacity, frozen⟩ := Option.ne_none_iff_exists'.mp live.frozen
  exact ⟨capacity, frozen, live.invariant.frozen capacity frozen⟩

/-- Once every group has applied its first operation, none is starting again. -/
theorem Move.started (live : Live dep profiles s) (started : ¬ Starting dep s) (move : Move dep profiles readings s t) :
    ¬ Starting dep t := by
  have same (applied : t.appliedSequences = s.appliedSequences) : ¬ Starting dep t := by
    simpa only [Starting, applied] using started
  cases move with
  | freeze capacity created =>
    have frozen := live.frozen
    rw [created] at frozen
    exact absurd rfl frozen
  | floor group member live' idle unapplied active operations applied => exact same applied
  | ceiling group capacity frozen ceilings active operations applied => exact same applied
  | retire group operation member live' pending replies active applied =>
    obtain ⟨capacity, frozen, accounted⟩ := live.accounted
    obtain ⟨-, -, numbered⟩ := accounted.pending group member operation pending
    rintro ⟨other, known, zero⟩
    rw [applied] at zero
    by_cases here : other = group
    · subst here
      rw [Function.update_self] at zero
      omega
    · rw [Function.update_of_ne here] at zero
      exact started ⟨other, known, zero⟩
  | publish group capacity active target member frozen idle initialized publishable operations commands kept applied =>
    exact same applied
  | other live' active operations applied => exact same applied

theorem Along.started (along : Along dep profiles readings s t) (live : Live dep profiles s) (started : ¬ Starting dep s) :
    ¬ Starting dep t := by
  induction along with
  | refl => exact started
  | tail before move ih => exact move.started (Along.live before live) ih

/-- A procedure makes moves only, whether it returns or raises. -/
def Moves (dep : Deployment) (profiles : Nat → Nat → PartitionProfile) (readings : Readings) {α : Type}
    (m : EStateM String CapacityPolicy α) (s : CapacityPolicy) : Prop :=
  wp m (fun _ t => Along dep profiles readings s t) (fun t => Along dep profiles readings s t) s

/-- What moves from a state already moved to. -/
theorem Moves.after {α : Type} {m : EStateM String CapacityPolicy α} (along : Along dep profiles readings s t)
    (moves : Moves dep profiles readings m t) :
    wp m (fun _ u => Along dep profiles readings s u) (fun u => Along dep profiles readings s u) t :=
  wp_mono moves (fun _ _ next => along.trans next) (fun _ next => along.trans next)

/-! ## Publishing -/

/-- A query changes nothing; whatever it returns is followed in the same state. -/
theorem wp_query_of {α : Type} {f : CapacityPolicy → Except String α} {post : α → CapacityPolicy → Prop}
    {raised : CapacityPolicy → Prop} (returns : ∀ a, f s = .ok a → post a s) (raises : raised s) :
    wp (query f) post raised s := by
  rw [wp_query]
  split
  · rename_i a answer
    exact returns a answer
  · exact raises

theorem construct_eq_ok {sequence : Nat} {quotaBytes : List Int} {command : QuotaCommand}
    (constructed : QuotaCommand.construct sequence quotaBytes = .ok command) : command = ⟨sequence, quotaBytes⟩ := by
  unfold QuotaCommand.construct at constructed
  split at constructed
  · cases constructed
  split at constructed
  · cases constructed
  · exact (Except.ok.inj constructed).symm

theorem publishCommand_wp (group : Group) (command : QuotaCommand) :
    wp (CapacityPolicy.publishCommand dep readings group command)
      (fun _ t => t = { s with commands := Function.update s.commands group (command :: s.commands group) } ∨
        t = s ∧ (s.commands group).head? = some command) (fun t => t = s) s := by
  unfold CapacityPolicy.publishCommand
  simp only [wp_bind, wp_get]
  split
  · rfl
  split
  · rfl
  split
  · split
    · rename_i same
      exact Or.inr ⟨rfl, same⟩
    · rfl
  split
  · rfl
  split
  · rfl
  split
  · rfl
  · exact Or.inl rfl

/-- Publishing a publishable vector is one move; a raise leaves the policy. -/
theorem publishOperation_wp {group : Group} {target : List Int} {capacity : Nat → Int}
    (member : group ∈ dep.capacityGroups) (frozen : s.poolCapacityBytes = some capacity)
    (publishable : ∀ active, s.operations group = none → s.activeQuotas group = some active →
      Publishable dep profiles capacity s group active target) :
    wp (CapacityPolicy.publishOperation dep readings group target)
      (fun _ t => Move dep profiles readings s t) (fun t => t = s) s := by
  unfold CapacityPolicy.publishOperation
  simp only [wp_bind, wp_get]
  split
  · rfl
  · rename_i ready
    obtain ⟨active, initialized⟩ := Option.ne_none_iff_exists'.mp fun absent => ready (Or.inl absent)
    have idle : s.operations group = none := not_not.mp fun busy => ready (Or.inr busy)
    simp only [wp_bind]
    refine wp_query_of ?_ rfl
    intro command constructed
    obtain rfl := construct_eq_ok constructed
    refine wp_mono (publishCommand_wp group _) ?_ (fun _ h => h)
    rintro _ t (rfl | ⟨rfl, head⟩)
    · exact .publish group capacity active target member frozen idle initialized (publishable active idle initialized)
        rfl (Or.inl rfl) rfl rfl rfl rfl
    · exact .publish group capacity active target member frozen idle initialized (publishable active idle initialized)
        rfl (Or.inr ⟨rfl, head⟩) rfl rfl rfl rfl

/-- Publishing moves, and the funding attempt may be written after it. -/
theorem publishOperation_along {group : Group} {target : List Int} {capacity : Nat → Int}
    (frozen : s.poolCapacityBytes = some capacity) (member : group ∈ dep.capacityGroups)
    (publishable : ∀ active, s.operations group = none → s.activeQuotas group = some active →
      Publishable dep profiles capacity s group active target) :
    wp (CapacityPolicy.publishOperation dep readings group target)
      (fun _ t => Along dep profiles readings s t ∧ ∀ next, Along dep profiles readings s { t with fundingAttempt := next })
      (fun t => Along dep profiles readings s t) s := by
  refine wp_mono (publishOperation_wp member frozen publishable) ?_ ?_
  · intro _ t move
    have live : s.poolCapacityBytes ≠ none := by simp [frozen]
    have along : Along dep profiles readings s t := Along.refl.move move
    exact ⟨along, fun next => along.move (.other (along.capacity live ▸ live) rfl rfl rfl rfl rfl rfl)⟩
  · rintro t rfl
    exact .refl

variable {capacity : Nat → Int} {group : Group} {active target : List Int}

/-- The target of an eligible demand is within the group's bounds and no smaller
than its active limits. -/
theorem eligible_within (accounted : Accounted dep profiles capacity s) {demand : QuotaDemand}
    (eligible : s.eligibleDemand group = .ok (some demand)) (wanted : demand.requiredBytes = some target) :
    group ∈ dep.capacityGroups ∧ Within dep profiles capacity group target := by
  obtain ⟨active, required, ceiling, borrower⟩ := eligibleDemand_eq_ok eligible
  obtain rfl := Option.some.inj (wanted.symm.trans borrower.wanted)
  have member := accounted.known group (by simp [borrower.initialized])
  obtain ⟨width, floor, -⟩ := accounted.active group member active borrower.initialized
  have stored := accounted.ceilings group member ceiling borrower.limited
  refine ⟨member, borrower.activeWidth.symm.trans width, ?_, ?_⟩
  · intro rank small
    exact (floor rank small).trans (borrower.fits rank (width.symm ▸ small)).1
  · intro rank small
    have bound := (borrower.fits rank (width.symm ▸ small)).2
    rwa [stored, ceilingVector, getD_map_range _ small] at bound

/-- A grant whose growth fits the free bytes is publishable. -/
theorem grant_publishable (retains : Retains profiles book)
    (frozen : s.poolCapacityBytes = some capacity) (started : ¬ Starting dep s) (member : group ∈ dep.capacityGroups)
    (within : Within dep profiles capacity group target) {free : Nat → Int} (counted : s.poolFreeBytes dep book = .ok free)
    {growth : List (Nat × Int)} (grown : CapacityPolicy.growthBytes dep book group active target = .ok growth)
    (fits : growth.all fun entry => entry.2 ≤ free entry.1) :
    Publishable dep profiles capacity s group active target := by
  refine ⟨within, fun starting => absurd starting started, fun _ rank small => Or.inr ?_⟩
  obtain rfl := growthBytes_eq_ok retains grown
  rw [← poolFreeBytes_eq_ok retains frozen counted (rank_lt_world member small)]
  have entry := List.all_eq_true.mp fits _ (List.mem_map.mpr ⟨rank, List.mem_range.mpr small, rfl⟩)
  exact of_decide_eq_true entry

theorem lookup_nonneg {shortages : List (Nat × Int)} (short : ∀ entry ∈ shortages, 0 ≤ entry.2) (device : Nat) :
    0 ≤ (shortages.lookup device).getD 0 := by
  cases found : shortages.lookup device with
  | none => exact le_refl 0
  | some amount =>
    induction shortages with
    | nil => cases found
    | cons entry rest ih =>
      obtain ⟨key, value⟩ := entry
      rw [List.lookup_cons] at found
      split at found
      · obtain rfl := Option.some.inj found
        exact short (key, value) (by simp)
      · exact ih (fun other listed => short other (by simp [listed])) found

/-- A donor's shrink is publishable. -/
theorem shrink_publishable (retains : Retains profiles book) (accounted : Accounted dep profiles capacity s)
    (started : ¬ Starting dep s) (member : group ∈ dep.capacityGroups) (initialized : s.activeQuotas group = some active)
    {shortages : List (Nat × Int)} (short : ∀ entry ∈ shortages, 0 ≤ entry.2)
    (shrunk : CapacityPolicy.donorTarget dep book shortages group active = .ok target) :
    Publishable dep profiles capacity s group active target := by
  obtain ⟨width, floor, ceiling⟩ := accounted.active group member active initialized
  obtain rfl := donorTarget_eq_ok retains shrunk
  have smaller : ∀ rank < dep.width group.1,
      max (floorOf profiles group.1 (group.2 * dep.width group.1 + rank))
        (active.getD rank 0 - (shortages.lookup (group.2 * dep.width group.1 + rank)).getD 0) ≤ active.getD rank 0 := by
    intro rank small
    have := lookup_nonneg short (group.2 * dep.width group.1 + rank)
    exact max_le (floor rank small) (by omega)
  refine ⟨⟨by simp, ?_, ?_⟩, fun starting => absurd starting started, fun _ rank small => Or.inl ?_⟩
  · intro rank small
    rw [getD_map_range _ small]
    exact le_max_left _ _
  · intro rank small
    rw [getD_map_range _ small]
    exact (smaller rank small).trans (ceiling rank small)
  · rw [getD_map_range _ small]
    exact smaller rank small

/-- The policy may shrink this group for the attempt. -/
structure Donor (dep : Deployment) (policy : CapacityPolicy) (attempt : FundingAttempt) (donor : Group) (active : List Int) :
    Prop where
  member : donor ∈ dep.capacityGroups
  apart : donor ≠ attempt.borrower
  untried : donor ∉ attempt.attemptedDonors
  initialized : policy.activeQuotas donor = some active
  idle : policy.operations donor = none
  current : ∃ demand, policy.demands donor = some demand ∧ demand.evaluatedSequence = policy.appliedSequences donor

theorem donorCandidate_eq_ok {attempt : FundingAttempt} {shortages : List (Nat × Int)} {donor : Group}
    (member : donor ∈ dep.capacityGroups) {found : List Int × Group × List Int}
    (returned : s.donorCandidate dep book attempt shortages donor = .ok (some found)) :
    found.2.1 = donor ∧ ∃ active, Donor dep s attempt donor active ∧ found.2.2 ≠ active ∧
      CapacityPolicy.donorTarget dep book shortages donor active = .ok found.2.2 := by
  unfold CapacityPolicy.donorCandidate at returned
  split at returned
  · cases returned
  rename_i allowed
  split at returned
  · rename_i active demand initialized idle demanded
    split at returned
    · cases returned
    rename_i current
    simp only [bind_eq_ok] at returned
    obtain ⟨target, shrunk, last⟩ := returned
    split at last
    · cases last
    · rename_i changed
      obtain rfl := Option.some.inj (Except.ok.inj last)
      refine ⟨rfl, active, ⟨member, ?_, ?_, initialized, idle, demand, demanded, not_not.mp current⟩, changed, shrunk⟩
      · exact fun same => allowed (Or.inl same)
      · exact fun tried => allowed (Or.inr tried)
  · cases returned

/-- A donor that is no candidate would give nothing. -/
theorem donorCandidate_eq_none {attempt : FundingAttempt} {shortages : List (Nat × Int)} {donor : Group} {active : List Int}
    (returned : s.donorCandidate dep book attempt shortages donor = .ok none) (able : Donor dep s attempt donor active) :
    CapacityPolicy.donorTarget dep book shortages donor active = .ok active := by
  obtain ⟨demand, demanded, current⟩ := able.current
  have allowed : ¬ (donor = attempt.borrower ∨ donor ∈ attempt.attemptedDonors) := by
    rintro (same | tried)
    · exact able.apart same
    · exact able.untried tried
  simp only [CapacityPolicy.donorCandidate, if_neg allowed, able.initialized, able.idle, demanded, current, ne_eq,
    not_true_eq_false, if_false, bind_eq_ok] at returned
  obtain ⟨target, shrunk, last⟩ := returned
  split at last
  · rename_i same
    exact same ▸ shrunk
  · cases last

theorem leastCandidate_mem {items : List (List Int × Group × List Int)} {least : List Int × Group × List Int}
    (found : CapacityPolicy.leastCandidate items = some least) : least ∈ items := by
  induction items generalizing least with
  | nil => cases found
  | cons next rest ih =>
    unfold CapacityPolicy.leastCandidate at found
    split at found
    · simp [Option.some.inj found]
    · rename_i best below
      split at found
      · obtain rfl := Option.some.inj found
        exact List.mem_cons_of_mem _ (ih below)
      · simp [Option.some.inj found]

/-- The donor selected is one of the candidates. -/
theorem selectDonor_eq_ok {attempt : FundingAttempt} {shortages : List (Nat × Int)} {donor : Group}
    (returned : s.selectDonor dep book attempt shortages = .ok (some (donor, target))) :
    ∃ active, Donor dep s attempt donor active ∧ target ≠ active ∧
      CapacityPolicy.donorTarget dep book shortages donor active = .ok target := by
  simp only [CapacityPolicy.selectDonor, bind_eq_ok] at returned
  obtain ⟨found, mapped, last⟩ := returned
  obtain ⟨chosen, least, same⟩ := Option.map_eq_some_iff.mp (Except.ok.inj last)
  have member : some chosen ∈ found := by
    obtain ⟨entry, listed, rfl⟩ := List.mem_filterMap.mp (leastCandidate_mem least)
    exact listed
  obtain ⟨group, known, answer⟩ := exists_of_mem_mapM mapped member
  obtain ⟨named, active, able, changed, shrunk⟩ := donorCandidate_eq_ok known answer
  rw [same] at named changed shrunk
  subst named
  exact ⟨active, able, changed, shrunk⟩

theorem leastCandidate_eq_none {items : List (List Int × Group × List Int)} (empty : CapacityPolicy.leastCandidate items = none) :
    items = [] := by
  cases items with
  | nil => rfl
  | cons next rest =>
    unfold CapacityPolicy.leastCandidate at empty
    split at empty
    · cases empty
    · split at empty <;> cases empty

/-- Without a candidate no group would give anything. -/
theorem selectDonor_eq_none {attempt : FundingAttempt} {shortages : List (Nat × Int)}
    (returned : s.selectDonor dep book attempt shortages = .ok none) {donor : Group} {active : List Int}
    (able : Donor dep s attempt donor active) : CapacityPolicy.donorTarget dep book shortages donor active = .ok active := by
  simp only [CapacityPolicy.selectDonor, bind_eq_ok] at returned
  obtain ⟨found, mapped, last⟩ := returned
  have empty := leastCandidate_eq_none (Option.map_eq_none_iff.mp (Except.ok.inj last))
  refine donorCandidate_eq_none ?_ able
  have answers := forall₂_of_mapM_eq_ok mapped
  obtain ⟨place, small, named⟩ := List.getElem_of_mem able.member
  have answered : place < found.length := answers.length_eq ▸ small
  have answer := answers.get (i := place) small answered
  simp only [List.get_eq_getElem, named] at answer
  cases result : found[place] with
  | none => rwa [result] at answer
  | some chosen =>
    have listed : chosen ∈ found.filterMap id :=
      List.mem_filterMap.mpr ⟨some chosen, result ▸ List.getElem_mem answered, rfl⟩
    rw [empty] at listed
    cases listed

/-! ## Funding -/

/-- A move of fields the accounting does not read. -/
theorem Along.other (along : Along dep profiles readings s t) (live : t.poolCapacityBytes ≠ none)
    (attempt : Option FundingAttempt) : Along dep profiles readings s { t with fundingAttempt := attempt } :=
  along.move (.other live rfl rfl rfl rfl rfl rfl)

theorem advanceAttempt_moves (retains : Retains profiles book) (live : Live dep profiles s) (started : ¬ Starting dep s)
    (attempt : FundingAttempt) : Moves dep profiles readings (CapacityPolicy.advanceAttempt dep book readings attempt) s := by
  obtain ⟨capacity, frozen, accounted⟩ := live.accounted
  have here : Along dep profiles readings s s := .refl
  unfold Moves CapacityPolicy.advanceAttempt
  split
  · exact here
  simp only [wp_bind]
  refine wp_query_of ?_ here
  intro current currentAnswer
  split
  · exact here.other live.frozen none
  rename_i isCurrent
  simp only [wp_bind]
  refine wp_query_of ?_ here
  intro free counted
  simp only [wp_get]
  split
  · exact here
  rename_i active initialized
  simp only [wp_bind]
  refine wp_query_of ?_ here
  intro growth grown
  split
  · rename_i fits
    obtain ⟨demand, eligible, same⟩ := map_eq_ok.mp currentAnswer
    cases demand with
    | none => simp [← same] at isCurrent
    | some demand =>
      have wanted : demand.requiredBytes = some attempt.targetQuotaBytes := by
        simp only [← same, decide_eq_true_eq, not_not] at isCurrent
        exact isCurrent.2.1
      obtain ⟨member, within⟩ := eligible_within accounted eligible wanted
      have publishable : ∀ active', s.operations attempt.borrower = none →
          s.activeQuotas attempt.borrower = some active' →
            Publishable dep profiles capacity s attempt.borrower active' attempt.targetQuotaBytes := by
        intro active' _ initialized'
        obtain rfl := Option.some.inj (initialized.symm.trans initialized')
        exact grant_publishable retains frozen started member within counted grown fits
      simp only [wp_bind, wp_modify, wp_pure]
      exact wp_mono (publishOperation_along frozen member publishable) (fun _ _ after => after.2 _) (fun _ h => h)
  · simp only [wp_bind]
    refine wp_query_of ?_ here
    intro donor selected
    split
    · exact here.other live.frozen none
    · rename_i donor target
      obtain ⟨donated, able, -, shrunk⟩ := selectDonor_eq_ok selected
      have member := able.member
      have given := able.initialized
      have publishable : ∀ active', s.operations donor = none → s.activeQuotas donor = some active' →
          Publishable dep profiles capacity s donor active' target := by
        intro active' _ initialized'
        obtain rfl := Option.some.inj (given.symm.trans initialized')
        refine shrink_publishable retains accounted started member given ?_ shrunk
        intro entry listed
        obtain ⟨short, filtered, rfl⟩ := List.mem_map.mp listed
        have more := of_decide_eq_true (List.mem_filter.mp filtered).2
        show 0 ≤ short.2 - free short.1
        omega
      simp only [wp_bind, wp_modify, wp_pure]
      exact wp_mono (publishOperation_along frozen member publishable) (fun _ _ after => after.2 _) (fun _ h => h)

theorem fundUnrelated_moves (retains : Retains profiles book) (live : Live dep profiles s) (started : ¬ Starting dep s)
    (attempt : FundingAttempt) (donor : Group) :
    Moves dep profiles readings (CapacityPolicy.fundUnrelated dep book readings attempt donor) s := by
  obtain ⟨capacity, frozen, accounted⟩ := live.accounted
  have here : Along dep profiles readings s s := .refl
  unfold Moves CapacityPolicy.fundUnrelated
  simp only [wp_bind]
  refine wp_query_of ?_ here
  intro reserved _
  refine wp_query_of ?_ here
  intro free counted
  refine wp_query_of ?_ here
  intro borrowers _
  -- The search writes nothing before the grant it stops at.
  refine wp_mono (wp_anyM (· = s) (Along dep profiles readings s) ?_ rfl) ?_ (fun _ h => h)
  · intro group _ t same
    obtain rfl : s = t := same.symm
    simp only [wp_bind]
    refine wp_query_of ?_ here
    intro devices _
    split
    · simp
    simp only [wp_bind]
    refine wp_query_of ?_ here
    intro demand eligible
    simp only [wp_get]
    split
    · rename_i evaluated target deadline active initialized
      simp only [wp_bind]
      refine wp_query_of ?_ here
      intro growth grown
      split
      · rename_i fits
        obtain ⟨member, within⟩ := eligible_within accounted eligible rfl
        have publishable : ∀ active', s.operations group = none → s.activeQuotas group = some active' →
            Publishable dep profiles capacity s group active' target := by
          intro active' _ initialized'
          obtain rfl := Option.some.inj (initialized.symm.trans initialized')
          exact grant_publishable retains frozen started member within counted grown fits
        simp only [wp_bind, wp_pure]
        exact wp_mono (publishOperation_along frozen member publishable) (fun _ _ after => after.1) (fun _ h => h)
      · simp
    · simp
  · intro found t after
    cases found with
    | true => exact after
    | false =>
      obtain rfl : t = s := after
      exact here

theorem fundNext_moves (retains : Retains profiles book) (live : Live dep profiles s) (started : ¬ Starting dep s) :
    Moves dep profiles readings (CapacityPolicy.fundNext dep book readings) s := by
  have here : Along dep profiles readings s s := .refl
  unfold Moves CapacityPolicy.fundNext
  simp only [wp_bind]
  refine wp_query_of ?_ here
  intro borrowers _
  refine wp_mono (wp_anyM (Along dep profiles readings s) (Along dep profiles readings s) ?_ here) ?_ (fun _ h => h)
  · intro group _ t along
    have liveThere := along.live live
    simp only [wp_bind]
    refine wp_query_of ?_ along
    intro demand _
    split
    · rename_i evaluated target deadline eligible
      simp only [wp_bind, wp_modify]
      have noted := along.other liveThere.frozen (some ⟨group, evaluated, target, deadline, [], none⟩)
      have advances : Moves dep profiles readings _ _ :=
        advanceAttempt_moves retains (noted.live live) (noted.started live started) ⟨group, evaluated, target, deadline, [], none⟩
      refine wp_mono (advances.after noted) ?_ (fun _ h => h)
      intro found u next
      cases found <;> exact next
    · simpa using along
  · intro found t after
    cases found <;> exact after

/-! ## Startup, retirement and demands -/

/-- A startup target is publishable. -/
theorem initial_publishable (retains : Retains profiles book) (accounted : Accounted dep profiles capacity s)
    (frozen : s.poolCapacityBytes = some capacity) (member : group ∈ dep.capacityGroups)
    (unapplied : s.appliedSequences group = 0) (computed : s.initialTarget dep book group = .ok target) :
    Publishable dep profiles capacity s group active target := by
  obtain rfl := initialTarget_eq_ok retains frozen computed
  have starting : Starting dep s := ⟨group, member, unapplied⟩
  refine ⟨⟨by simp, ?_, ?_⟩, ?_, fun started => absurd starting started⟩
  · intro rank small
    rw [getD_map_range _ small]
    have fits := accounted.floors _ (rank_lt_world member small)
    have := share_nonneg fits
    refine le_min ?_ (by omega)
    unfold floorOf
    exact_mod_cast (profiles group.1 (group.2 * dep.width group.1 + rank)).bounds.1
  · intro rank small
    rw [getD_map_range _ small]
    exact target_le_ceiling (accounted.floors _ (rank_lt_world member small))
  · intro _ rank small
    rw [getD_map_range _ small]
    exact min_le_right _ _

theorem publishNextInitialOperation_moves (retains : Retains profiles book) (live : Live dep profiles s) :
    Moves dep profiles readings (CapacityPolicy.publishNextInitialOperation dep book readings) s := by
  obtain ⟨capacity, frozen, accounted⟩ := live.accounted
  have here : Along dep profiles readings s s := .refl
  unfold Moves CapacityPolicy.publishNextInitialOperation
  simp only [wp_bind, wp_get]
  split
  · exact here
  split
  · rename_i group found
    have member := List.mem_of_find?_eq_some found
    have unapplied : s.appliedSequences group = 0 := by simpa using List.find?_some found
    simp only [wp_bind]
    refine wp_query_of ?_ here
    intro target computed
    have publishable : ∀ active, s.operations group = none → s.activeQuotas group = some active →
        Publishable dep profiles capacity s group active target := by
      intro active _ _
      exact initial_publishable retains accounted frozen member unapplied computed
    exact wp_mono (publishOperation_along frozen member publishable) (fun _ _ after => after.1) (fun _ h => h)
  · exact here

theorem retireOperation_moves (live : Live dep profiles s) (member : group ∈ dep.capacityGroups) :
    Moves dep profiles readings (CapacityPolicy.retireOperation dep book readings group) s := by
  have here : Along dep profiles readings s s := .refl
  unfold Moves CapacityPolicy.retireOperation
  simp only [wp_bind, wp_get]
  split
  · rename_i operation old pending initialized
    split
    · rename_i replied
      simp only [wp_bind]
      refine wp_query_of ?_ here
      intro entries _
      split
      · simp only [wp_bind, wp_modify, wp_pure]
        refine here.move (.retire group operation member live.frozen pending ?_ rfl rfl rfl rfl rfl rfl)
        intro slot listed
        have reply := List.all_eq_true.mp replied _ (List.mem_map.mpr ⟨slot, listed, rfl⟩)
        exact of_decide_eq_true reply
      · exact here
    · exact here
  · exact here

theorem consumeDemand_moves (live : Live dep profiles s) (group : Group) :
    Moves dep profiles readings (CapacityPolicy.consumeDemand readings group) s := by
  have here : Along dep profiles readings s s := .refl
  have stored (demands : Group → Option QuotaDemand) : Along dep profiles readings s { s with demands := demands } :=
    here.move (.other live.frozen rfl rfl rfl rfl rfl rfl)
  unfold Moves CapacityPolicy.consumeDemand
  split
  · exact here
  simp only [wp_bind, wp_get]
  split
  · exact here
  split
  · split
    · exact here
    split
    · exact here
    · exact stored _
  · exact stored _

/-! ## Freezing -/

theorem deviceBudget_eq_ok (retains : Retains profiles book) {device : Nat} {budget : Int}
    (returned : CapacityPolicy.deviceBudget dep book readings device = .ok budget) : floorsOf dep profiles device ≤ budget := by
  unfold CapacityPolicy.deviceBudget at returned
  split at returned
  · rename_i report _
    simp only [bind_eq_ok] at returned
    obtain ⟨registrations, mapped, last⟩ := returned
    have floored : (registrations.map fun registration => (registration.contextStateProfile.floorBytes : Int)) =
        (List.range dep.instanceCount).map fun index => floorOf profiles index device := by
      refine map_of_mapM_eq_ok ?_ mapped
      intro index _ registration found
      simp only [CapacityPolicy.startupRegistration, bind_eq_ok] at found
      obtain ⟨known, lookup, checked⟩ := found
      split at checked
      · cases checked
      · obtain rfl := Except.ok.inj checked
        rw [partition_eq_ok retains lookup]
        rfl
    rw [floored, sum_map_range] at last
    split at last
    · cases last
    · rename_i enough
      obtain rfl := Except.ok.inj last
      exact not_lt.mp enough
  · cases returned

/-- During startup freezing no operation is pending and none has been applied. -/
structure Freezing (policy : CapacityPolicy) : Prop where
  idle : ∀ group, policy.operations group = none
  unapplied : ∀ group, policy.appliedSequences group = 0

theorem freezeGroup_wp (readings : Readings) (retains : Retains profiles book) (live : Live dep profiles s) (freezing : Freezing s)
    (member : group ∈ dep.capacityGroups) :
    wp (CapacityPolicy.freezeGroup dep book group) (fun _ t => Along dep profiles readings s t ∧ Freezing t)
      (fun t => Along dep profiles readings s t) s := by
  obtain ⟨capacity, frozen, -⟩ := live.accounted
  have here : Along dep profiles readings s s := .refl
  unfold CapacityPolicy.freezeGroup
  simp only [wp_bind]
  refine wp_query_of ?_ here
  intro found profiled
  have floors : (found.map fun entry => (entry.2.floorBytes : Int)) = floorVector dep profiles group := by
    rw [groupProfiles_eq_ok retains profiled, List.map_map]
    rfl
  simp only [wp_modify, floors]
  have floored : Along dep profiles readings s { s with
      activeQuotas := Function.update s.activeQuotas group (some (floorVector dep profiles group)) } :=
    here.move (.floor group member live.frozen (freezing.idle group) (freezing.unapplied group) rfl rfl rfl rfl rfl rfl)
  refine wp_query_of ?_ floored
  intro ceiling computed
  obtain rfl : ceiling = ceilingVector dep profiles capacity group := serviceCeiling_eq_ok retains frozen member computed
  exact ⟨floored.move (.ceiling group capacity frozen rfl rfl rfl rfl rfl rfl), freezing.idle, freezing.unapplied⟩

theorem freezePools_moves (retains : Retains profiles book) (created : s = CapacityPolicy.create)
    (inv : PolicyInvariant dep profiles s) :
    wp (CapacityPolicy.freezePools dep book readings)
      (fun _ t => Along dep profiles readings s t ∧ t.poolCapacityBytes ≠ none)
      (fun t => Along dep profiles readings s t) s := by
  have here : Along dep profiles readings s s := .refl
  unfold CapacityPolicy.freezePools
  simp only [wp_bind]
  refine wp_query_of ?_ here
  intro budgets mapped
  have floors : ∀ device < dep.atnWorldSize, floorsOf dep profiles device ≤ budgets.getD device 0 := by
    intro device small
    have answers := forall₂_of_mapM_eq_ok mapped
    have listed : device < budgets.length := by
      rw [← answers.length_eq]
      simpa using small
    have answer := answers.get (i := device) (by simpa using small) listed
    rw [List.getD_eq_getElem _ _ listed]
    exact deviceBudget_eq_ok retains (by simpa using answer)
  simp only [wp_modify]
  have frozen := here.move (.freeze (fun device => budgets.getD device 0) created floors)
  subst created
  refine wp_mono (wp_forM (fun t => Along dep profiles readings CapacityPolicy.create t ∧ Freezing t ∧
    t.poolCapacityBytes ≠ none) ?_ ⟨frozen, ⟨fun _ => rfl, fun _ => rfl⟩, by simp⟩) ?_ (fun _ h => h)
  · rintro group member t ⟨along, freezing, unfrozen⟩
    have live : Live dep profiles t := ⟨along.invariant inv, unfrozen⟩
    refine wp_mono (freezeGroup_wp readings retains live freezing member) ?_ ?_
    · rintro _ u ⟨next, freezing'⟩
      exact ⟨along.trans next, freezing', (next.live live).frozen⟩
    · intro u next
      exact along.trans next
  · rintro _ t ⟨along, -, unfrozen⟩
    exact ⟨along, unfrozen⟩

/-! ## The whole step -/

theorem progress_moves (retains : Retains profiles book) (live : Live dep profiles s) :
    Moves dep profiles readings (CapacityPolicy.progress dep book readings) s := by
  have here : Along dep profiles readings s s := .refl
  unfold Moves CapacityPolicy.progress
  simp only [wp_bind]
  refine wp_mono (wp_filterM (Along dep profiles readings s) ?_ here) ?_ (fun _ h => h)
  · intro group member t along
    exact (retireOperation_moves (along.live live) member).after along
  intro retired t retiredAlong
  refine wp_mono (wp_forM (Along dep profiles readings s) ?_ retiredAlong) ?_ (fun _ h => h)
  · intro group _ u along
    exact along.other (along.live live).frozen _
  intro _ u along
  have liveThere := along.live live
  simp only [wp_get]
  split
  · simp only [wp_bind]
    exact (publishNextInitialOperation_moves retains liveThere).after along
  rename_i startedAll
  have started : ¬ Starting dep u := by
    rintro ⟨group, member, zero⟩
    exact startedAll (List.any_eq_true.mpr ⟨group, member, decide_eq_true zero⟩)
  simp only [wp_bind]
  -- Reading demands leaves the state live and started.
  refine wp_mono (wp_forM (Along dep profiles readings u) ?_ Along.refl) ?_ (fun _ next => along.trans next)
  · intro group _ v next
    exact (consumeDemand_moves (next.live liveThere) group).after next
  intro _ v next
  have liveNow := next.live liveThere
  have startedNow := next.started liveThere started
  have reached := along.trans next
  simp only [wp_get]
  split
  · exact (fundNext_moves retains liveNow startedNow).after reached
  · rename_i attempt _
    simp only [wp_bind]
    refine wp_mono (advanceAttempt_moves retains liveNow startedNow attempt) ?_ (fun _ more => reached.trans more)
    intro advanced w more
    have reachedLast := reached.trans more
    split
    · exact reachedLast
    split
    · exact (fundUnrelated_moves retains (more.live liveNow) (more.started liveNow startedNow) attempt _).after reachedLast
    · exact (fundNext_moves retains (more.live liveNow) (more.started liveNow startedNow)).after reachedLast

/-- One call of `step`, from any state of the invariant, makes moves only. -/
theorem step_moves (retains : Retains profiles book) (inv : PolicyInvariant dep profiles s) :
    Moves dep profiles readings (CapacityPolicy.step dep book readings) s := by
  have here : Along dep profiles readings s s := .refl
  unfold Moves CapacityPolicy.step
  simp only [wp_bind, wp_get]
  split
  · exact here
  split
  · rename_i unfrozen
    simp only [wp_bind]
    refine wp_mono (freezePools_moves retains (inv.fresh unfrozen) inv) ?_ (fun _ h => h)
    rintro _ t ⟨along, frozen⟩
    exact (progress_moves retains ⟨along.invariant inv, frozen⟩).after along
  · rename_i frozen
    exact progress_moves retains ⟨inv, frozen⟩

end Procedures

/-! ## Runs of the policy -/

/-- The state a call leaves, whether it returned or raised. -/
def CapacityPolicy.after (policy : CapacityPolicy) (dep : Deployment) (book : RegistrationBook) (readings : Readings) :
    CapacityPolicy :=
  match CapacityPolicy.step dep book readings policy with
  | .ok _ next => next
  | .error _ next => next

/-- Every sequence of `step` calls from a created policy, with any readings and
with registrations of the generation's profiles. -/
def policyRuns (dep : Deployment) (profiles : Nat → Nat → PartitionProfile) :
    System CapacityPolicy (RegistrationBook × Readings) where
  init policy := policy = CapacityPolicy.create
  step policy call next := Retains profiles call.1 ∧ next = policy.after dep call.1 call.2

theorem create_invariant (dep : Deployment) (profiles : Nat → Nat → PartitionProfile) :
    PolicyInvariant dep profiles CapacityPolicy.create :=
  ⟨fun _ => rfl, fun capacity frozen => by cases frozen⟩

theorem after_along {dep : Deployment} {profiles : Nat → Nat → PartitionProfile} {book : RegistrationBook}
    {readings : Readings} {policy : CapacityPolicy} (retains : Retains profiles book) (inv : PolicyInvariant dep profiles policy) :
    Along dep profiles readings policy (policy.after dep book readings) := by
  have moves : Moves dep profiles readings (CapacityPolicy.step dep book readings) policy := step_moves retains inv
  unfold Moves wp at moves
  unfold CapacityPolicy.after
  split at moves
  · rename_i call
    rw [call]
    exact moves
  · rename_i call
    rw [call]
    exact moves

theorem reachable_invariant {dep : Deployment} {profiles : Nat → Nat → PartitionProfile} {policy : CapacityPolicy}
    (reached : (policyRuns dep profiles).Reachable policy) : PolicyInvariant dep profiles policy := by
  refine System.ReachableUnder.invariant ?_ ?_ reached
  · rintro _ rfl
    exact create_invariant dep profiles
  · rintro s ⟨book, readings⟩ _ - inv - ⟨retains, rfl⟩
    exact (after_along retains inv).invariant inv

section Returns

variable {dep : Deployment} {profiles : Nat → Nat → PartitionProfile} {book : RegistrationBook}
variable {policy : CapacityPolicy} {capacity : Nat → Int}

theorem chargeGroup_returns (retains : Retains profiles book) (complete : Complete dep book)
    (accounted : Accounted dep profiles capacity policy) (free : Nat → Int) {group : Group}
    (member : group ∈ dep.capacityGroups) : ∃ next, CapacityPolicy.chargeGroup dep book policy free group = .ok next := by
  unfold CapacityPolicy.chargeGroup
  split
  · exact ⟨free, rfl⟩
  · rename_i active initialized
    obtain ⟨found, profiled⟩ := groupProfiles_returns complete member
    have width : found.length = dep.width group.1 := by
      rw [groupProfiles_eq_ok retains profiled]
      simp
    have activeWidth := (accounted.active group member active initialized).width
    have targetWidth : (policy.pendingQuota group active).length = dep.width group.1 := by
      unfold CapacityPolicy.pendingQuota
      split
      · rename_i operation pending
        exact (accounted.pending group member operation pending).1.width
      · exact activeWidth
    refine ⟨_, bind_eq_ok.mpr ⟨found, profiled, bind_eq_ok.mpr ⟨_, zipStrict_eq_ok.mpr ⟨?_, ?_, rfl⟩, rfl⟩⟩⟩
    · exact width.trans activeWidth.symm
    · exact activeWidth.trans targetWidth.symm

/-- With every registration present the free bytes are counted, and no device is
overdrawn. -/
theorem poolFreeBytes_returns (retains : Retains profiles book) (complete : Complete dep book)
    (frozen : policy.poolCapacityBytes = some capacity) (accounted : Accounted dep profiles capacity policy) :
    ∃ free, policy.poolFreeBytes dep book = .ok free ∧ ∀ device < dep.atnWorldSize, 0 ≤ free device := by
  have budgeted : policy.budgets = .ok capacity := by simp [CapacityPolicy.budgets, frozen]
  obtain ⟨free, folded⟩ := foldlM_returns (f := CapacityPolicy.chargeGroup dep book policy)
    (fun acc group member => chargeGroup_returns retains complete accounted acc member) capacity
  have enough : ∀ device < dep.atnWorldSize, 0 ≤ free device := by
    intro device small
    have counted := chargeGroups_eq_ok retains folded small
    have := accounted.budget device small
    omega
  have noneNegative : ¬ (List.range dep.atnWorldSize).any (fun device => free device < 0) := by
    rw [List.any_eq_true]
    rintro ⟨device, listed, negative⟩
    have := enough device (List.mem_range.mp listed)
    have := of_decide_eq_true negative
    omega
  refine ⟨free, bind_eq_ok.mpr ⟨capacity, budgeted, bind_eq_ok.mpr ⟨free, folded, ?_⟩⟩, enough⟩
  rw [if_neg noneNegative]
  rfl

end Returns

/-- After `freeze_pools`, in every state any sequence of steps reaches: on every
device the hosted partitions' permission fits the pool capacity and the free
bytes are counted without raising; every active and every pending limit lies
between its partition's floor and its service ceiling, which is at most the
reservation and is the ceiling the policy published. -/
theorem accounting_sound {dep : Deployment} {profiles : Nat → Nat → PartitionProfile} {policy : CapacityPolicy}
    (reached : (policyRuns dep profiles).Reachable policy) {capacity : Nat → Int}
    (frozen : policy.poolCapacityBytes = some capacity) :
    (∀ device < dep.atnWorldSize,
      ∑ index ∈ Finset.range dep.instanceCount, held dep policy index device ≤ capacity device) ∧
    (∀ book, Retains profiles book → Complete dep book →
      ∃ free, policy.poolFreeBytes dep book = .ok free ∧ ∀ device < dep.atnWorldSize, 0 ≤ free device) ∧
    (∀ group ∈ dep.capacityGroups, ∀ quota,
      (policy.activeQuotas group = some quota ∨
        ∃ sequence, policy.operations group = some ⟨sequence, quota⟩) → Within dep profiles capacity group quota) ∧
    (∀ group ∈ dep.capacityGroups, ∀ rank < dep.width group.1,
      ceilingOf dep profiles capacity group.1 (group.2 * dep.width group.1 + rank) ≤
        (profiles group.1 (group.2 * dep.width group.1 + rank)).reservationBytes) ∧
    ∀ group ∈ dep.capacityGroups, ∀ ceiling, policy.serviceCeilings group = some ceiling →
      ceiling = ceilingVector dep profiles capacity group := by
  have accounted := (reachable_invariant reached).frozen capacity frozen
  refine ⟨accounted.budget, ?_, ?_, ?_, accounted.ceilings⟩
  · intro book retains complete
    exact poolFreeBytes_returns retains complete frozen accounted
  · rintro group member quota (active | ⟨sequence, pending⟩)
    · exact accounted.active group member quota active
    · exact (accounted.pending group member _ pending).1
  · intro group _ rank _
    exact min_le_left _ _

/-- Two Instances on two attention devices, one as a group of two ranks and one as
two groups of one rank. -/
def twoInstances : Deployment where
  instancePlans := [⟨"wide", 2, 1⟩, ⟨"narrow", 1, 2⟩]
  atnWorldSize := 2
  devices := id
  utilizedBytes := fun total => total * 9 / 10
  covers := by simp

/-- The same profile for every partition. -/
def evenProfile : PartitionProfile :=
  ⟨10, 500, by decide⟩

/-- The first step of a policy whose partitions have all reported their floor. -/
def frozenTwo : CapacityPolicy :=
  CapacityPolicy.create.after twoInstances (fun _ _ => some ⟨evenProfile, 0⟩)
    ⟨fun _ => some 10, fun _ => some ⟨1000, 900⟩, fun _ => none, fun _ => none, fun _ => none, 0⟩

theorem frozenTwo_reachable : (policyRuns twoInstances fun _ _ => evenProfile).Reachable frozenTwo := by
  refine System.Reachable.step (.start rfl) (a := (fun _ _ => some ⟨evenProfile, 0⟩, _)) ⟨?_, rfl⟩
  rintro index rank registration ⟨⟩
  rfl

theorem accounting_sound_frozenTwo :
    frozenTwo.poolCapacityBytes = some (fun device => [(820 : Int), 820].getD device 0) ∧
      frozenTwo.operations (0, 0) = some ⟨1, [410, 410]⟩ ∧
        ∑ index ∈ Finset.range 2, held twoInstances frozenTwo index 1 ≤ 820 := by
  have frozen : frozenTwo.poolCapacityBytes = some (fun device => [(820 : Int), 820].getD device 0) := rfl
  exact ⟨frozen, rfl, (accounting_sound frozenTwo_reachable frozen).1 1 (by decide)⟩

end CrossPool.Ecs
