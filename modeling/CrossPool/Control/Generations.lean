import CrossPool.Control.Turnover

/-!
# One generation after the other

A generation is named by its position among all that the daemon ever retained.
Over any run, whatever the daemon observes, a failed generation stays failed and
out of service. When its observations of processes are true, it stops a
generation only once its owners cannot take part any more, and installs the next
one only after all of them are dead.
-/

namespace CrossPool.Control

open CrossPool.Lib

section Generations

variable {Doc : Type} [DecidableEq Doc]

/-- The generation installed after `serial` others, retained or retired. -/
def Plane.generation (s : Plane Doc) (serial : Nat) : Option GenerationState :=
  if serial = s.retired.length then s.fabric else s.retired.reverse[serial]?

/-- Processes die, one at a time, and stay dead. A process counts as alive until
it has died. -/
def Dies (alive after : ProcUniqId → Bool) : Prop :=
  ∃ proc, after = Function.update alive proc false

/-- Every interleaving of the daemon's handlers with each other and with deaths. -/
def daemon (Doc : Type) [DecidableEq Doc] (config : Config) :
    System (Monitor (ProcUniqId → Bool) (Plane Doc) Host Raised Nat)
      (Monitor.Event (ProcUniqId → Bool) Host Nat (Request Doc)) :=
  Monitor.system (Request.handler config) Dies fun _ s => s = Plane.empty Doc

/-- The daemon's probes tell which processes live. -/
def Truthful : Monitor (ProcUniqId → Bool) (Plane Doc) Host Raised Nat →
    Monitor.Event (ProcUniqId → Bool) Host Nat (Request Doc) → Prop :=
  Monitor.Admitted fun alive host => host.alive = alive

/-- Any answer may be observed; deaths prove nothing. -/
def anyHost : Outside (ProcUniqId → Bool) where
  gone _ _ := True
  passes := Dies
  admits _ _ := True
  stays _ _ _ _ _ := trivial
  seen _ _ _ _ _ := trivial

/-- A process that is observed dead is dead. -/
def truthfulHost : Outside (ProcUniqId → Bool) where
  gone alive owner := alive owner = false
  passes := Dies
  admits alive host := host.alive = alive
  stays := by
    rintro alive after owner ⟨proc, rfl⟩ dead
    by_cases here : owner = proc
    · simp [here]
    · simpa [here] using dead
  seen := by
    rintro alive host owner rfl dead
    exact dead

omit [DecidableEq Doc] in
theorem empty_sane (gone : ProcUniqId → Prop) : Sane gone (Plane.empty Doc) := by
  refine ⟨?_, ?_, ?_, ?_, ?_, ?_, ⟨?_, ?_, ?_, ?_⟩, rfl, ?_⟩
  · exact fun g found => nomatch found
  · exact fun g found => nomatch found
  · exact fun g found => nomatch found
  · exact fun g listed => absurd listed List.not_mem_nil
  · exact fun g listed => absurd listed List.not_mem_nil
  · exact fun g listed => absurd listed List.not_mem_nil
  · exact fun _ _ found => nomatch found
  · exact fun _ _ found => nomatch found
  · exact fun _ _ found => nomatch found
  · exact fun _ _ found => nomatch found
  · exact fun _ held => nomatch held

/-! ## What becomes of a generation -/

variable {gone : ProcUniqId → Prop} {s t : Plane Doc} {serial : Nat} {g : GenerationState}

omit [DecidableEq Doc] in
theorem mem_retired_of_generation (found : s.generation serial = some g) (past : serial ≠ s.retired.length) :
    g ∈ s.retired := by
  rw [Plane.generation, if_neg past] at found
  exact List.mem_reverse.mp (List.mem_of_getElem? found)

omit [DecidableEq Doc] in
theorem generation_lt (found : s.generation serial = some g) (past : serial ≠ s.retired.length) :
    serial < s.retired.length := by
  rw [Plane.generation, if_neg past] at found
  obtain ⟨small, -⟩ := List.getElem?_eq_some_iff.mp found
  simpa using small

omit [DecidableEq Doc] in
/-- A retired generation is no longer touched. -/
theorem generation_past (found : s.generation serial = some g) (past : serial ≠ s.retired.length)
    (more : List GenerationState) (retired : t.retired = more ++ s.retired) : t.generation serial = some g := by
  have small := generation_lt found past
  rw [Plane.generation, if_neg past] at found
  have apart : serial ≠ t.retired.length := by
    rw [retired, List.length_append]
    omega
  rw [Plane.generation, if_neg apart, retired, List.reverse_append, List.getElem?_append_left (by simpa using small)]
  exact found

/-- Every section evolves the retained generation and leaves the others. -/
theorem Turns.evolves (turns : Turns config gone s t) (found : s.generation serial = some g) :
    ∃ g', t.generation serial = some g' ∧ Evolves gone g g' := by
  by_cases past : serial = s.retired.length
  · have retained : s.fabric = some g := by simpa [Plane.generation, past] using found
    cases turns with
    | quiet quiet =>
      have related := quiet.fabric
      rw [retained] at related
      cases after : t.fabric with
      | none => rw [after] at related; cases related
      | some g' =>
        rw [after] at related
        cases related with
        | some evolves =>
          refine ⟨g', ?_, evolves⟩
          rw [Plane.generation, quiet.retired, if_pos past]
          exact after
    | leases _ _ _ fabric same =>
      refine ⟨g, ?_, .refl g⟩
      rw [Plane.generation, same, if_pos past, fabric]
      exact retained
    | retires g₀ kept _ _ dropped =>
      subst dropped
      obtain rfl := Option.some.inj (kept.symm.trans retained)
      refine ⟨g₀, ?_, .refl g₀⟩
      rw [Plane.generation, List.length_cons, if_neg (by omega), List.reverse_cons, past]
      simp
    | installs _ _ _ empty =>
      rw [empty] at retained
      cases retained
  · have carried (more : List GenerationState) (retired : t.retired = more ++ s.retired) :
        ∃ g', t.generation serial = some g' ∧ Evolves gone g g' :=
      ⟨g, generation_past found past more retired, .refl g⟩
    cases turns with
    | quiet quiet => exact carried [] quiet.retired
    | leases _ _ _ _ same => exact carried [] same
    | retires g₀ _ _ _ dropped =>
      subst dropped
      exact carried [g₀] rfl
    | installs _ _ _ _ _ _ _ formed =>
      subst formed
      exact carried [] rfl

theorem Rely.carries {η : Type} {outside : Outside η} {x y : η × Plane Doc} (rely : (outside.discipline config).Rely x y)
    (found : x.2.generation serial = some g) : ∃ g', y.2.generation serial = some g' ∧ Carries g g' := by
  have moves (x y : η × Plane Doc) (move : (outside.discipline config).Moves x y) :
      ∀ serial g, x.2.generation serial = some g → ∃ g', y.2.generation serial = some g' ∧ Carries g g' := by
    cases move with
    | effect _ turns =>
      intro serial g found
      obtain ⟨g', found', evolves⟩ := Turns.evolves turns found
      exact ⟨g', found', evolves.toCarries⟩
    | passes _ _ => exact fun serial g found => ⟨g, found, .refl g⟩
  have related : ∀ serial g, x.2.generation serial = some g → ∃ g', y.2.generation serial = some g' ∧ Carries g g' := by
    refine rely.relation ?_ ?_ moves
    · exact fun x serial g found => ⟨g, found, .refl g⟩
    · intro x y z first second serial g found
      obtain ⟨g₁, found₁, carries₁⟩ := first serial g found
      obtain ⟨g₂, found₂, carries₂⟩ := second serial g₁ found₁
      exact ⟨g₂, found₂, carries₁.trans carries₂⟩
  exact related serial g found

omit [DecidableEq Doc] in
/-- Every generation that was ever retained is latched. -/
theorem Sane.latched_generation (sane : Sane gone s) (found : s.generation serial = some g) : Latched g := by
  by_cases past : serial = s.retired.length
  · exact sane.latched g (by simpa [Plane.generation, past] using found)
  · exact (sane.before g (mem_retired_of_generation found past)).1

/-! ## Failures are latched -/

/-- A later state of a failed generation. -/
structure StaysFailed (g g' : GenerationState) : Prop where
  phase : g'.phase ∉ [.preparingJoin, .joining, .preparingExecution, .activating, .executable]
  invocationFailure : ∀ failure, g.invocationFailure = some failure → g'.invocationFailure = some failure
  ownerFailure : ∀ failure, g.ownerFailure = some failure → g'.ownerFailure = some failure
  controlFailure : ∀ failure, g.controlFailure = some failure → g'.controlFailure = some failure
  aborting : g.phase = .aborting → g'.phase = .aborting ∨ g'.phase = .stopped
  stopped : g.phase = .stopped → g'.phase = .stopped

theorem Carries.staysFailed {g' : GenerationState} (carries : Carries g g') (latched : Latched g) (failed : g.Failed) :
    StaysFailed g g' where
  phase := by
    have out := carries.retreats (latched failed)
    revert out
    cases g'.phase <;> decide
  invocationFailure := carries.invocationFailure
  ownerFailure := carries.ownerFailure
  controlFailure := carries.controlFailure
  aborting := carries.aborting
  stopped := fun stopped => (carries.stopped stopped).1

/-- No arena can be leased from the retained generation, and no section adds a
lease. -/
structure Unleasable (config : Config) (m : Monitor (ProcUniqId → Bool) (Plane Doc) Host Raised Nat) : Prop where
  refused : ∀ rank proc, requireExecutable m.shared.fabric rank proc ≠ .ok ()
  added : ∀ event after, (daemon Doc config).step m event after → ∀ rank lease,
    after.shared.broker.leases.lookup rank = some lease → m.shared.broker.leases.lookup rank = some lease

section Runs

variable {config : Config} {m after : Monitor (ProcUniqId → Bool) (Plane Doc) Host Raised Nat}

/-- A run with any answers is a run of the discipline that trusts none. -/
theorem freely_sound (reached : (daemon Doc config).Reachable m) :
    Discipline.Sound (anyHost.discipline config : Discipline _ (Plane Doc) Host) m := by
  refine Discipline.reachable (D := anyHost.discipline config) ?_ (fun request => tame_handler request) (reached.weaken ?_)
  · rintro w s rfl
    exact empty_sane _
  · intro m event _
    cases event <;> trivial

theorem freely_moves (reached : (daemon Doc config).Reachable m)
    {event : Monitor.Event (ProcUniqId → Bool) Host Nat (Request Doc)} (taken : (daemon Doc config).step m event after) :
    (anyHost.discipline config : Discipline _ (Plane Doc) Host).Moves (m.outside, m.shared) (after.outside, after.shared) := by
  refine ((freely_sound reached).step (fun request => tame_handler request) ?_ taken).2
  cases event <;> trivial

/-- A step is a section, or leaves the shared records alone. -/
theorem turns_of_moves {η : Type} {outside : Outside η} {w v : η}
    (move : (outside.discipline config : Discipline _ (Plane Doc) Host).Moves (w, s) (v, t)) :
    Turns config (outside.gone w) s t ∨ t = s := by
  generalize before : (w, s) = x at move
  generalize later : (v, t) = y at move
  cases move with
  | effect _ turns =>
    obtain ⟨rfl, rfl⟩ := Prod.mk.inj before
    obtain ⟨-, rfl⟩ := Prod.mk.inj later
    exact Or.inl turns
  | passes _ _ =>
    obtain ⟨-, rfl⟩ := Prod.mk.inj before
    exact Or.inr (Prod.mk.inj later).2

theorem freely_later (reached : (daemon Doc config).Reachable m) (later : (daemon Doc config).Later m after) :
    (anyHost.discipline config : Discipline _ (Plane Doc) Host).Rely (m.outside, m.shared) (after.outside, after.shared) := by
  induction later with
  | refl => exact .refl
  | tail before last ih =>
    obtain ⟨event, -, taken⟩ := last
    exact Relation.ReflTransGen.tail ih (freely_moves (System.LaterUnder.reachable reached before) taken)

/-- A generation out of service leases nothing. -/
theorem unleasable_of_out (reached : (daemon Doc config).Reachable m) (retained : m.shared.fabric = some g)
    (out : g.phase ∉ [.preparingJoin, .joining, .preparingExecution, .activating, .executable]) : Unleasable config m := by
  have unserving : g.phase ≠ .executable := fun executable => out (by simp [executable])
  constructor
  · intro rank proc passed
    obtain ⟨g', found, executable⟩ := executable_of_requireExecutable passed
    obtain rfl := Option.some.inj (found.symm.trans retained)
    exact unserving executable
  · intro event after taken rank lease found
    rcases turns_of_moves (freely_moves reached taken) with turns | same
    · cases turns with
      | quiet quiet => exact quiet.leases rank lease found
      | leases g' same executable =>
        obtain rfl := Option.some.inj (same.symm.trans retained)
        exact absurd executable unserving
      | retires _ _ _ _ dropped => rwa [dropped] at found
      | installs _ _ _ _ _ _ _ formed => rwa [formed] at found
    · rwa [same] at found

/-- Once any failure is recorded in a generation, in every later state its phase
is out of service, each recorded failure is still the recorded one, ABORTING was
left only to STOPPED and STOPPED never, and while it is retained no arena is
leased from it. -/
theorem failure_latched (config : Config) {m after : Monitor (ProcUniqId → Bool) (Plane Doc) Host Raised Nat}
    (reached : (daemon Doc config).Reachable m) {serial : Nat} {g : GenerationState}
    (found : m.shared.generation serial = some g) (failed : g.Failed) (later : (daemon Doc config).Later m after) :
    ∃ g', after.shared.generation serial = some g' ∧ StaysFailed g g' ∧
      (after.shared.retired.length = serial → Unleasable config after) := by
  have latched := (freely_sound reached).inv.latched_generation found
  obtain ⟨g', found', carries⟩ := Rely.carries (freely_later reached later) found
  have stays := carries.staysFailed latched failed
  refine ⟨g', found', stays, ?_⟩
  intro retained
  have fabric : after.shared.fabric = some g' := by
    rw [Plane.generation, if_pos retained.symm] at found'
    exact found'
  exact unleasable_of_out (System.LaterUnder.reachable reached later) fabric stays.phase

/-! ## Retirement and replacement -/

theorem truly_sound (reached : (daemon Doc config).ReachableUnder Truthful m) :
    Discipline.Sound (truthfulHost.discipline config : Discipline _ (Plane Doc) Host) m := by
  refine Discipline.reachable (D := truthfulHost.discipline config) ?_ (fun request => tame_handler request) reached
  rintro w s rfl
  exact empty_sane _

theorem truly_moves (reached : (daemon Doc config).ReachableUnder Truthful m)
    {event : Monitor.Event (ProcUniqId → Bool) Host Nat (Request Doc)} (truthful : Truthful m event)
    (taken : (daemon Doc config).step m event after) :
    (truthfulHost.discipline config : Discipline _ (Plane Doc) Host).Moves (m.outside, m.shared) (after.outside, after.shared) :=
  ((truly_sound reached).step (fun request => tame_handler request) truthful taken).2

/-- Every process that owns a PE or an Instance rank of a generation is dead. -/
def Departed (alive : ProcUniqId → Bool) (g : GenerationState) : Prop :=
  ∀ owner ∈ g.owners, alive owner = false

/-- Every generation before the retained one is stopped and departed. -/
theorem departed_of_past (reached : (daemon Doc config).ReachableUnder Truthful m)
    (found : m.shared.generation serial = some g) (past : serial ≠ m.shared.retired.length) :
    g.phase = .stopped ∧ Departed m.outside g := by
  have sane : Sane (fun owner => m.outside owner = false) m.shared := (truly_sound reached).inv
  have listed := mem_retired_of_generation found past
  exact ⟨sane.stopped g listed, sane.departed g listed⟩

theorem ended_of_stopped (reached : (daemon Doc config).ReachableUnder Truthful m)
    (found : m.shared.generation serial = some g) (stopped : g.phase = .stopped) :
    Covered g ∧ Ended (fun owner => m.outside owner = false) g := by
  have sane : Sane (fun owner => m.outside owner = false) m.shared := (truly_sound reached).inv
  by_cases past : serial = m.shared.retired.length
  · have retained : m.shared.fabric = some g := by simpa [Plane.generation, past] using found
    exact ⟨sane.covered g retained, sane.ended g retained stopped⟩
  · exact (sane.before g (mem_retired_of_generation found past)).2

/-- What one step may do about stopping and replacing generations. -/
structure TurnsOver (m after : Monitor (ProcUniqId → Bool) (Plane Doc) Host Raised Nat) : Prop where
  stops : ∀ serial g g', m.shared.generation serial = some g → after.shared.generation serial = some g' →
    g.phase ≠ .stopped → g'.phase = .stopped → Stops (fun owner => m.outside owner = false) g g'
  installs : ∀ serial g', m.shared.generation serial = none → after.shared.generation serial = some g' →
    ∀ earlier < serial, ∃ g, m.shared.generation earlier = some g ∧ g.phase = .stopped ∧ Departed m.outside g

omit [DecidableEq Doc] in
theorem generation_exists {s : Plane Doc} (small : serial < s.retired.length) : ∃ g, s.generation serial = some g := by
  have within : serial < s.retired.reverse.length := by simpa using small
  refine ⟨s.retired.reverse.get ⟨serial, within⟩, ?_⟩
  rw [Plane.generation, if_neg (by omega), List.getElem?_eq_getElem within]
  rfl

/-- A new generation takes the place after all those retired. -/
theorem Turns.newest {gone : ProcUniqId → Prop} {s t : Plane Doc} {g' : GenerationState} (turns : Turns config gone s t)
    (absent : s.generation serial = none) (found : t.generation serial = some g') : serial = s.retired.length := by
  have least : s.retired.length ≤ serial := by
    by_contra small
    obtain ⟨g, present⟩ := generation_exists (not_le.mp small)
    rw [absent] at present
    cases present
  have most : serial ≤ t.retired.length := by
    by_cases last : serial = t.retired.length
    · exact last.le
    · exact (generation_lt found last).le
  cases turns with
  | quiet quiet =>
    rw [quiet.retired] at most
    exact le_antisymm most least
  | leases _ _ _ _ same =>
    rw [same] at most
    exact le_antisymm most least
  | retires g _ _ _ dropped =>
    subst dropped
    simp only [List.length_cons] at most
    -- the place after the retired one is still empty
    by_contra apart
    have next : serial = (g :: s.retired).length := by
      rw [List.length_cons]
      omega
    rw [Plane.generation, if_pos next] at found
    cases found
  | installs _ _ _ _ _ _ _ formed =>
    subst formed
    exact le_antisymm most least

theorem turnsOver_of_step (reached : (daemon Doc config).ReachableUnder Truthful m)
    {event : Monitor.Event (ProcUniqId → Bool) Host Nat (Request Doc)} (truthful : Truthful m event)
    (taken : (daemon Doc config).step m event after) : TurnsOver m after := by
  rcases turns_of_moves (truly_moves reached truthful taken) with turns | same
  · constructor
    · intro serial g g' found found' live stopped
      obtain ⟨g'', same, evolves⟩ := Turns.evolves turns found
      obtain rfl := Option.some.inj (same.symm.trans found')
      exact evolves.stops live stopped
    · intro serial g' absent found' earlier less
      obtain rfl := Turns.newest turns absent found'
      obtain ⟨g, found⟩ := generation_exists less
      exact ⟨g, found, departed_of_past reached found (by omega)⟩
  · constructor
    · intro serial g g' found found' live stopped
      rw [same, found] at found'
      obtain rfl := Option.some.inj found'
      exact absurd stopped live
    · intro serial g' absent found'
      rw [same, absent] at found'
      cases found'

/-- In every run with true observations: a STOPPED generation has all PEs
FINALIZED, or no Instance owner alive and every Agent owner dead or drained, and
in the second case it was ABORTING when it was stopped; a new generation is
installed only after every one before it was stopped and all its owners were
dead; and two generations never have live owners at the same time. -/
theorem generation_turnover (config : Config) {m : Monitor (ProcUniqId → Bool) (Plane Doc) Host Raised Nat}
    (reached : (daemon Doc config).ReachableUnder Truthful m) :
    (∀ serial g, m.shared.generation serial = some g → g.phase = .stopped →
      Covered g ∧ Ended (fun owner => m.outside owner = false) g) ∧
    (∀ event after, Truthful m event → (daemon Doc config).step m event after → TurnsOver m after) ∧
    (∀ first second g g', first ≠ second → m.shared.generation first = some g → m.shared.generation second = some g' →
      Departed m.outside g ∨ Departed m.outside g') := by
  refine ⟨fun serial g found stopped => ended_of_stopped reached found stopped,
    fun event after truthful taken => turnsOver_of_step reached truthful taken, ?_⟩
  intro first second g g' apart found found'
  by_cases past : first = m.shared.retired.length
  · exact Or.inr (departed_of_past reached found' (fun last => apart (past.trans last.symm))).2
  · exact Or.inl (departed_of_past reached found past).2

end Runs

end Generations

/-! ## A small deployment -/

section Deployment

/-- One attention device, one FFN device and one Instance of one rank. -/
def smallConfig : Config :=
  ⟨[0], [1], ["m"], fun _ => none, fun _ => 1, 1⟩

/-- Instructions for the threads of the daemon and for the host. -/
inductive Errand (Doc : Type) where
  | call (i : Nat) (request : Request Doc)
  | run (i : Nat)
  | leave (i : Nat)
  | die (proc : ProcUniqId)

section Errands

variable (config : Config) {Doc : Type} [DecidableEq Doc]

/-- The host answers truthfully; a process's creation time is its pid. -/
def Errand.event (m : Monitor (ProcUniqId → Bool) (Plane Doc) Host Raised Nat) :
    Errand Doc → Monitor.Event (ProcUniqId → Bool) Host Nat (Request Doc)
  | call i request => .call i request
  | run i => .run i ⟨m.outside, 0, some, ⟨0, 1⟩⟩
  | leave i => .leave i
  | die proc => .outside (Function.update m.outside proc false)

def Errand.next (m : Monitor (ProcUniqId → Bool) (Plane Doc) Host Raised Nat) (errand : Errand Doc) :
    Option (Monitor (ProcUniqId → Bool) (Plane Doc) Host Raised Nat) :=
  m.next (Request.handler config) (errand.event m)

theorem Errand.agrees (m : Monitor (ProcUniqId → Bool) (Plane Doc) Host Raised Nat) (errand : Errand Doc)
    (after : Monitor (ProcUniqId → Bool) (Plane Doc) Host Raised Nat) (leads : errand.next config m = some after) :
    ∃ event, Truthful m event ∧ (daemon Doc config).step m event after := by
  refine ⟨errand.event m, ?_, Monitor.step_of_next ?_ leads⟩
  · cases errand with
    | run i => exact rfl
    | _ => trivial
  · cases errand with
    | die proc => rintro v ⟨⟩; exact ⟨proc, rfl⟩
    | _ => rintro v ⟨⟩

/-- One request and the number of its sections. -/
def serve (request : Request Doc) (sections : Nat) : List (Errand Doc) :=
  .call 0 request :: List.replicate sections (.run 0) ++ [.leave 0]

/-- The registration of the Instance rank with a given profile. -/
def registerRank (pid : Nat) (doc : Doc) : Request Doc :=
  .registerInstance ⟨"m", 0⟩ pid 1 ⟨⟨1, 1, 0, 1, 0, 1⟩, doc, doc, 0⟩

/-- Admission and registration of two Agents, with processes numbered from `pid`.
The numbers are those of the sections of each registration. -/
def deployAgents (doc : Doc) (pid atnagent ffnagent : Nat) : List (Errand Doc) :=
  serve (.admitAgentStartup .atnAgent 0 pid pid 1) 4 ++
  serve (.admitAgentStartup .ffnAgent 1 (pid + 1) (pid + 1) 1) 4 ++
  serve (.registerAtnagent 0 pid 1 ⟨none⟩) atnagent ++
  serve (.registerFfnagent 1 (pid + 1) 1 ⟨none, 0, 0, doc⟩ [doc]) ffnagent

/-- The same with one Instance rank, whose registration forms the plan. -/
def deploy (doc : Doc) (pid atnagent ffnagent instanceRank : Nat) : List (Errand Doc) :=
  deployAgents doc pid atnagent ffnagent ++ serve (registerRank (pid + 2) doc) instanceRank

/-- A daemon without registrations. -/
def idleDaemon (Doc : Type) : Monitor (ProcUniqId → Bool) (Plane Doc) Host Raised Nat :=
  ⟨fun _ => true, Plane.empty Doc, fun _ => none⟩

theorem idleDaemon_reached : (daemon Doc config).ReachableUnder Truthful (idleDaemon Doc) :=
  .start ⟨rfl, fun _ => rfl⟩

end Errands

/-- A deployed daemon whose FfnAgent then dies, as the watchdog notices. -/
def loseFfnAgent : List (Errand Unit) :=
  serve .start 1 ++ deploy () 10 5 5 13 ++ [.die ⟨11, 11⟩] ++ serve .watchdog 8

theorem failure_latched_loseFfnAgent :
    ∃ m g, (daemon Unit smallConfig).Reachable m ∧ m.shared.generation 0 = some g ∧ g.Failed ∧
      ∀ after, (daemon Unit smallConfig).Later m after →
        ∃ g', after.shared.generation 0 = some g' ∧ StaysFailed g g' ∧
          (after.shared.retired.length = 0 → Unleasable smallConfig after) := by
  obtain ⟨m, reached, holds⟩ := (idleDaemon_reached smallConfig).drive (Errand.next smallConfig) (Errand.agrees smallConfig) loseFfnAgent
    (fun m => (m.shared.generation 0).any fun g => g.ownerFailure.isSome) (by decide +kernel)
  obtain ⟨g, found, lost⟩ : ∃ g, m.shared.generation 0 = some g ∧ g.ownerFailure.isSome := by
    simpa [Option.any_eq_true] using holds
  have failed : g.Failed := Or.inr (Or.inl (Option.isSome_iff_ne_none.mp lost))
  exact ⟨m, g, reached.reachable, found, failed, fun after later => failure_latched smallConfig reached.reachable found failed later⟩

/-- All owners of the first generation die, the watchdog stops and retires it,
and new processes are deployed. -/
def redeploy : List (Errand Unit) :=
  serve .start 1 ++ deploy () 10 5 5 13 ++ [.die ⟨10, 10⟩, .die ⟨11, 11⟩, .die ⟨12, 12⟩] ++ serve .watchdog 12 ++
    deploy () 20 10 9 14

theorem generation_turnover_redeploy :
    ∃ m g g', (daemon Unit smallConfig).ReachableUnder Truthful m ∧ m.shared.generation 0 = some g ∧
      m.shared.generation 1 = some g' ∧ g.phase = .stopped ∧ Ended (fun owner => m.outside owner = false) g ∧
        (Departed m.outside g ∨ Departed m.outside g') := by
  obtain ⟨m, reached, holds⟩ := (idleDaemon_reached smallConfig).drive (Errand.next smallConfig) (Errand.agrees smallConfig) redeploy
    (fun m => ((m.shared.generation 0).any fun g => g.phase = .stopped) && (m.shared.generation 1).isSome) (by decide +kernel)
  rw [Bool.and_eq_true] at holds
  obtain ⟨g, found, stopped⟩ : ∃ g, m.shared.generation 0 = some g ∧ g.phase = .stopped := by
    simpa [Option.any_eq_true] using holds.1
  obtain ⟨g', found'⟩ := Option.isSome_iff_exists.mp holds.2
  obtain ⟨ended, -, departed⟩ := generation_turnover smallConfig reached
  exact ⟨m, g, g', reached, found, found', stopped, (ended 0 g found stopped).2, departed 0 1 g g' (by decide) found found'⟩

end Deployment

end CrossPool.Control
