import CrossPool.Fabric.Control

/-!
# Canonical failure

A failure is published by the PE that claims it first, travels to the Coordinator
PE and is broadcast from there once. So no PE ever sees a published failure with
anything but a failure code in it.
-/

namespace CrossPool.Fabric

open CrossPool.Control (ResultCode)
open CrossPool.Lib

/-- A payload with a code that `try_publish` admits. -/
def FailurePayload.canonical (payload : FailurePayload) : Prop :=
  payload.resultCode = .protocolMismatch ∨ payload.resultCode = .timeout

/-- The PEs the Coordinator has yet to broadcast to, once that is settled. -/
def CoordinatorPc.owes : CoordinatorPc → Option (List Nat)
  | broadcast rest => some rest
  | exited => some []
  | aborted => some []
  | _ => none

/-- What one event does to the failure slots and to the broadcast. -/
inductive SignalStep (T : Topology) (g : Signals) (pc : CoordinatorPc) : Signals → CoordinatorPc → Prop where
  | quiet (pc' : CoordinatorPc) (owes : pc'.owes = pc.owes ∨ pc'.owes = some []) : SignalStep T g pc g pc'
  | announce (published : g.published T.coordinatorPe) (loops : pc.owes = none) :
      SignalStep T g pc g (.broadcast ((List.range T.peCount).filter (· ≠ T.coordinatorPe)))
  | send (destination : Nat) (rest : List Nat) (stands : pc = .broadcast (destination :: rest)) :
      SignalStep T g pc
        (g.setFailure destination
          ((g.failures destination).send
            { payload := []
              record := (g.failures T.coordinatorPe).record
              landed := false }))
        (.broadcast rest)
  | claim (pe : Nat) (result : ResultCode) (key : InvocationKey) (layerOrdinal : Nat) (pc' : CoordinatorPc)
      (admissible : Signals.admissible result key) (owes : pc'.owes = pc.owes) :
      SignalStep T g pc (g.tryPublish T.coordinatorPe pe result key layerOrdinal) pc'
  | deliver (destination : Nat) (delivery : Delivery FailurePayload) (channel : Channel FailurePayload Empty)
      (written : Option Empty)
      (delivered : (g.failures destination).deliver (fun _ => 1) delivery = some (channel, written)) :
      SignalStep T g pc (g.setFailure destination channel) pc
  | shutdown (pe : Nat) :
      SignalStep T g pc { g with shutdown := Function.update g.shutdown pe true } pc

variable {T : Topology} {V : Type} {K : Kernels V} {s t : State V} {p ℓ i r : Nat}

/-! ## Every event is one of the cases -/

/-- The signals are left alone or claimed for a failure. -/
def ClaimsOnly (T : Topology) (g g' : Signals) : Prop :=
  g' = g ∨ ∃ pe result key layerOrdinal, Signals.admissible result key ∧
    g' = g.tryPublish T.coordinatorPe pe result key layerOrdinal

theorem terminateStep_signals {site : TerminateSite} {result : ResultCode} :
    ClaimsOnly T s.signals (T.terminateStep s p ℓ site result).signals := by
  simp only [Topology.terminateStep]
  split
  · split
    · next admissible => exact .inr ⟨p, result, _, _, admissible, rfl⟩
    · exact .inl rfl
  · exact .inl rfl

theorem observeStep_signals : (T.observeStep s p ℓ).signals = s.signals := by
  simp only [Topology.observeStep]
  split
  · rfl
  · split <;> rfl

theorem readInputStep_signals {done : LanePc} : (T.readInputStep s p ℓ done).signals = s.signals := by
  simp only [Topology.readInputStep]
  split <;> rfl

theorem publishRoutingStep_signals : (T.publishRoutingStep s p ℓ).signals = s.signals := by
  simp only [Topology.publishRoutingStep]
  split
  · rfl
  · split <;> rfl

theorem sendRoutingStep_signals {rest : List Nat} : (T.sendRoutingStep s p ℓ rest).signals = s.signals := by
  cases rest with
  | nil => rfl
  | cons destination rest =>
    simp only [Topology.sendRoutingStep]
    split
    · rfl
    · split <;> rfl

theorem prepareStep_signals : (T.prepareStep s p ℓ).signals = s.signals := by
  simp only [Topology.prepareStep]
  split
  · rfl
  · split <;> rfl

theorem publishPartialStep_signals {rest : List Nat} : (T.publishPartialStep s p ℓ rest).signals = s.signals := by
  cases rest with
  | nil => rfl
  | cons destination rest =>
    simp only [Topology.publishPartialStep]
    split <;> rfl

theorem completeBlockStart_signals {block : Nat} : (T.completeBlockStart s p ℓ block).signals = s.signals := by
  simp only [Topology.completeBlockStart]
  split
  · rfl
  split
  · rfl
  split
  · rfl
  split
  · rfl
  · split <;> rfl

/-- A lane leaves the signals alone but where it terminates. -/
theorem LaneTaken.quiet (taken : LaneTaken T K s p ℓ t) :
    t.signals = s.signals ∨
      ∃ site result, (s.control.lanes p ℓ).pc = .terminate site result ∧ t = T.terminateStep s p ℓ site result := by
  cases taken with
  | observe => exact .inl observeStep_signals
  | terminate site result stands => exact .inr ⟨site, result, stands, rfl⟩
  | routerRead => exact .inl readInputStep_signals
  | expertRead => exact .inl readInputStep_signals
  | publishRouting => exact .inl publishRoutingStep_signals
  | sendRouting => exact .inl sendRoutingStep_signals
  | prepare => exact .inl prepareStep_signals
  | publishPartial => exact .inl publishPartialStep_signals
  | completeBlock => exact .inl completeBlockStart_signals
  | routerWrite =>
    simp only [Topology.routerWriteStep]
    split <;> exact .inl rfl
  | expertReadRouting =>
    simp only [Topology.readRoutingStep]
    split <;> exact .inl rfl
  | expertWrite =>
    simp only [Topology.expertWriteStep]
    split <;> exact .inl rfl
  | directBlock =>
    simp only [Topology.directBlockStep]
    split
    · exact .inl rfl
    · split <;> exact .inl rfl
  | reduceBlock =>
    simp only [Topology.reduceStep]
    split
    · split <;> exact .inl rfl
    · exact .inl rfl
  | complete =>
    simp only [Topology.completeStep]
    split <;> exact .inl rfl
  | publishCompletion =>
    simp only [Topology.publishCompletionStep]
    split <;> exact .inl rfl
  | _ => exact .inl rfl

theorem LaneTaken.signals (taken : LaneTaken T K s p ℓ t) : ClaimsOnly T s.signals t.signals := by
  rcases taken.quiet with same | ⟨site, result, -, rfl⟩
  · exact .inl same
  · exact terminateStep_signals

/-- A rank leaves the signals alone but where it converges. -/
theorem AtnAgentTaken.quiet (taken : AtnAgentTaken T K s i r t) :
    t.signals = s.signals ∨
      ∃ candidate, (s.control.atnagents i r).pc = .converge candidate ∧ t = T.convergeStep s i r candidate := by
  cases taken with
  | request =>
    simp only [Topology.atnAgentRequest]
    split
    · exact .inl rfl
    · split <;> exact .inl rfl
  | submit =>
    simp only [Topology.submitStep]
    split <;> exact .inl rfl
  | admission =>
    simp only [Topology.admissionStep]
    split <;> exact .inl rfl
  | copyInput =>
    simp only [Topology.copyInputStep]
    split <;> exact .inl rfl
  | publishInput rest =>
    cases rest with
    | nil => exact .inl rfl
    | cons destination rest =>
      simp only [Topology.publishInputStep]
      split
      · exact .inl rfl
      · split <;> exact .inl rfl
  | commit =>
    simp only [Topology.commitStep]
    split <;> exact .inl rfl
  | materialize =>
    simp only [Topology.materializeStep]
    split
    · exact .inl rfl
    · split <;> exact .inl rfl
  | acknowledge =>
    simp only [Topology.acknowledgeStep]
    split <;> exact .inl rfl
  | cancelled =>
    simp only [Topology.atnAgentCancelled]
    split <;> exact .inl rfl
  | converge candidate stands => exact .inr ⟨candidate, stands, rfl⟩
  | _ => exact .inl rfl

theorem AtnAgentTaken.signals (taken : AtnAgentTaken T K s i r t) : ClaimsOnly T s.signals t.signals := by
  rcases taken.quiet with same | ⟨candidate, -, rfl⟩
  · exact .inl same
  · simp only [Topology.convergeStep]
    split
    · next admissible => exact .inr ⟨_, _, _, _, admissible, rfl⟩
    · exact .inl rfl

theorem discoverStep_signals {index : Nat} :
    (T.discoverStep s index).signals = s.signals ∧
      ((T.discoverStep s index).control.coordinator.owes = none ∨
        (T.discoverStep s index).control.coordinator.owes = some []) := by
  simp only [Topology.discoverStep]
  split
  · exact ⟨rfl, .inl rfl⟩
  split
  · exact ⟨rfl, .inl rfl⟩
  split
  · exact ⟨rfl, .inl rfl⟩
  · exact ⟨rfl, .inl rfl⟩
  · split
    · exact ⟨rfl, .inr rfl⟩
    · exact ⟨rfl, .inl rfl⟩

theorem progressStep_signals {index : Nat} :
    (T.progressStep s index).signals = s.signals ∧
      ((T.progressStep s index).control.coordinator.owes = none ∨
        (T.progressStep s index).control.coordinator.owes = some []) := by
  simp only [Topology.progressStep]
  split
  · exact ⟨rfl, .inl rfl⟩
  split
  · split
    · exact ⟨rfl, .inr rfl⟩
    · split <;> exact ⟨rfl, .inl rfl⟩
  · split
    · exact ⟨rfl, .inr rfl⟩
    split
    · exact ⟨rfl, .inl rfl⟩
    · exact ⟨rfl, .inl rfl⟩
    · split
      · exact ⟨rfl, .inr rfl⟩
      · exact ⟨rfl, .inl rfl⟩

theorem publishStep_signals {slot : Slot} {rest : List Nat} {resume : List Nat → CoordinatorPc} {done : CoordinatorPc}
    (resumes : ∀ tail, (resume tail).owes = none) (finishes : done.owes = none) :
    (T.publishStep s slot rest resume done).signals = s.signals ∧
      ((T.publishStep s slot rest resume done).control.coordinator.owes = none ∨
        (T.publishStep s slot rest resume done).control.coordinator.owes = some []) := by
  cases rest with
  | nil => exact ⟨rfl, .inl finishes⟩
  | cons destination tail =>
    simp only [Topology.publishStep]
    split
    · exact ⟨rfl, .inl (resumes tail)⟩
    · exact ⟨rfl, .inr rfl⟩

/-- The Coordinator is still in its loop before and after the step. -/
theorem SignalStep.loop {pc pc' : CoordinatorPc} {g g' : Signals} (loops : pc.owes = none)
    (stays : g' = g ∧ (pc'.owes = none ∨ pc'.owes = some [])) : SignalStep T g pc g' pc' := by
  obtain ⟨rfl, owes⟩ := stays
  exact .quiet pc' (by rwa [loops])

theorem coordinatorStep_signals (taken : T.coordinatorStep s = some t) :
    SignalStep T s.signals s.control.coordinator t.signals t.control.coordinator := by
  unfold Topology.coordinatorStep at taken
  split at taken
  · next stands =>
    split at taken
    · next published =>
      cases taken
      exact .announce published (by simp [stands, CoordinatorPc.owes])
    · cases taken
      exact .loop (by simp [stands, CoordinatorPc.owes]) ⟨rfl, .inl rfl⟩
  · next stands =>
    cases taken
    refine .loop (by simp [stands, CoordinatorPc.owes]) ⟨rfl, ?_⟩
    by_cases down : s.signals.shutdown T.coordinatorPe
    · simp [Topology.coordinatorGoto, down, CoordinatorPc.owes]
    · simp [Topology.coordinatorGoto, down, CoordinatorPc.owes]
  · next stands =>
    split at taken
    · cases taken
      exact .loop (by simp [stands, CoordinatorPc.owes]) discoverStep_signals
    · cases taken
      exact .loop (by simp [stands, CoordinatorPc.owes]) ⟨rfl, .inl rfl⟩
  · next stands =>
    split at taken
    · next admissible =>
      cases taken
      exact .claim _ _ _ _ _ admissible (by simp [stands, CoordinatorPc.owes, Topology.coordinatorGoto])
    · cases taken
      exact .loop (by simp [stands, CoordinatorPc.owes]) ⟨rfl, .inr rfl⟩
  · next stands =>
    split at taken
    · cases taken
      exact .loop (by simp [stands, CoordinatorPc.owes]) ⟨rfl, .inl rfl⟩
    · split at taken
      · cases taken
        exact .loop (by simp [stands, CoordinatorPc.owes]) ⟨rfl, .inl rfl⟩
      · cases taken
        exact .loop (by simp [stands, CoordinatorPc.owes]) ⟨rfl, .inl rfl⟩
  · next stands =>
    split at taken
    · cases taken
      exact .loop (by simp [stands, CoordinatorPc.owes]) progressStep_signals
    · cases taken
      exact .loop (by simp [stands, CoordinatorPc.owes]) ⟨rfl, .inl rfl⟩
  · next stands =>
    split at taken
    · cases taken
      exact .loop (by simp [stands, CoordinatorPc.owes]) ⟨rfl, .inl rfl⟩
    · cases taken
      exact .loop (by simp [stands, CoordinatorPc.owes]) ⟨rfl, .inl rfl⟩
  · next stands =>
    cases taken
    exact .loop (by simp [stands, CoordinatorPc.owes]) ⟨rfl, .inl rfl⟩
  · next stands =>
    cases taken
    exact .loop (by simp [stands, CoordinatorPc.owes]) (publishStep_signals (fun _ => rfl) rfl)
  · next stands =>
    split at taken
    · cases taken
      exact .loop (by simp [stands, CoordinatorPc.owes]) ⟨rfl, .inr rfl⟩
    · cases taken
      exact .loop (by simp [stands, CoordinatorPc.owes]) ⟨rfl, .inl rfl⟩
    · cases taken
      exact .loop (by simp [stands, CoordinatorPc.owes]) ⟨rfl, .inl rfl⟩
  · next stands =>
    dsimp only at taken
    split at taken
    · cases taken
      exact .loop (by simp [stands, CoordinatorPc.owes]) ⟨rfl, .inr rfl⟩
    · cases taken
      exact .loop (by simp [stands, CoordinatorPc.owes]) ⟨rfl, .inl rfl⟩
  · next stands =>
    cases taken
    exact .loop (by simp [stands, CoordinatorPc.owes]) (publishStep_signals (fun _ => rfl) rfl)
  · next stands =>
    cases taken
    exact .loop (by simp [stands, CoordinatorPc.owes]) ⟨rfl, .inl rfl⟩
  · next stands =>
    cases taken
    exact .loop (by simp [stands, CoordinatorPc.owes]) (publishStep_signals (fun _ => rfl) rfl)
  · next stands =>
    cases taken
    exact .quiet _ (.inr rfl)
  · next destination rest stands =>
    cases taken
    exact .send destination rest stands
  · cases taken
  · cases taken

theorem AtnAgentControl.coordinator {k k' : Control} (effect : AtnAgentControl T k i r k') :
    k'.coordinator = k.coordinator := by
  cases effect <;> rfl

theorem LaneControl.coordinator {k k' : Control} (effect : LaneControl T k p ℓ k') :
    k'.coordinator = k.coordinator := by
  cases effect <;> rfl

theorem SignalStep.party {g g' : Signals} {pc pc' : CoordinatorPc} (claims : ClaimsOnly T g g') (same : pc' = pc) :
    SignalStep T g pc g' pc' := by
  subst same
  obtain rfl | ⟨pe, result, key, layerOrdinal, admissible, rfl⟩ := claims
  · exact .quiet _ (.inl rfl)
  · exact .claim pe result key layerOrdinal _ admissible rfl

/-- What any event does to the failure slots. -/
theorem next_signals {event : Event V} (taken : T.next K s event = some t) :
    SignalStep T s.signals s.control.coordinator t.signals t.control.coordinator := by
  cases event with
  | coordinator => exact coordinatorStep_signals taken
  | atnagent i r move =>
    simp only [Topology.next] at taken
    split at taken
    · exact .party (atnAgentMove_taken taken).signals (atnAgentMove_taken taken).control.coordinator
    · cases taken
  | lane p ℓ move =>
    simp only [Topology.next] at taken
    split at taken
    · exact .party (laneMove_taken taken).signals (laneMove_taken taken).control.coordinator
    · cases taken
  | publication destination slot delivery =>
    obtain ⟨⟨channel, written⟩, delivered, rfl⟩ := Option.map_eq_some_iff.mp taken
    exact .quiet _ (.inl rfl)
  | payload destination slot delivery =>
    obtain ⟨⟨channel, written⟩, delivered, rfl⟩ := Option.map_eq_some_iff.mp taken
    cases written with
    | none => exact .quiet _ (.inl rfl)
    | some element => exact .quiet _ (.inl rfl)
  | failure destination delivery =>
    obtain ⟨⟨channel, written⟩, delivered, rfl⟩ := Option.map_eq_some_iff.mp taken
    exact .deliver destination delivery channel written delivered
  | put pe lane index move =>
    simp only [Topology.next, Topology.putStep] at taken
    split at taken
    · split at taken
      · cases taken
        exact .quiet _ (.inl rfl)
      · cases taken
    · obtain ⟨value, -, rfl⟩ := Option.map_eq_some_iff.mp taken
      exact .quiet _ (.inl rfl)
    · cases taken
  | shutdown pe =>
    cases taken
    exact .shutdown pe

/-! ## One canonical failure -/

/-- Failure slots and the broadcast: nothing is on its way before the claim, each
PE but the Coordinator's is sent to at most once, and what a PE sees published is
a failure. -/
structure Canonical (T : Topology) (g : Signals) (pc : CoordinatorPc) : Prop where
  tracks : ∀ pe, (g.failures pe).Tracks (fun _ => 1) FailurePayload.canonical 0
  unclaimed : g.claim = false → ∀ pe, (g.failures pe).flight = [] ∧ (g.failures pe).sequence = 0
  unsent :
    ∀ pe ≠ T.coordinatorPe, (∀ rest, pc.owes = some rest → pe ∈ rest) →
      (g.failures pe).flight = [] ∧ (g.failures pe).sequence = 0
  once : ∀ rest, pc.owes = some rest → T.coordinatorPe ∉ rest ∧ rest.Nodup
  announced : ∀ rest, pc.owes = some rest → rest ≠ [] → g.published T.coordinatorPe

section Canonical

variable {g g' : Signals} {pc pc' : CoordinatorPc}

@[simp] theorem setFailure_same (pe : Nat) (channel : Channel FailurePayload Empty) :
    (g.setFailure pe channel).failures pe = channel := by
  simp [Signals.setFailure]

theorem setFailure_of_ne {pe other : Nat} (channel : Channel FailurePayload Empty) (ne : other ≠ pe) :
    (g.setFailure pe channel).failures other = g.failures other := by
  simp [Signals.setFailure, ne]

theorem Signals.published_iff {pe : Nat} : g.published pe ↔ (g.failures pe).sequence = 1 := by
  simp [Signals.published]

/-- A published failure is canonical and nothing more is on its way. -/
theorem Canonical.settled (canonical : Canonical T g pc) {pe : Nat} (published : g.published pe) :
    (g.failures pe).flight = [] ∧ (g.failures pe).record.canonical := by
  have sequence := Signals.published_iff.mp published
  obtain ⟨empty, legit, -⟩ := (canonical.tracks pe).fresh (by omega)
  exact ⟨empty, legit⟩

theorem Canonical.quiet (canonical : Canonical T g pc) (owes : pc'.owes = pc.owes ∨ pc'.owes = some []) :
    Canonical T g pc' := by
  refine ⟨canonical.tracks, canonical.unclaimed, ?_, ?_, ?_⟩
  · intro pe ne sends
    rcases owes with same | settled
    · exact canonical.unsent pe ne (same ▸ sends)
    · exact absurd (sends [] settled) List.not_mem_nil
  · intro rest settles
    rcases owes with same | settled
    · exact canonical.once rest (same ▸ settles)
    · obtain rfl : [] = rest := Option.some.inj (settled.symm.trans settles)
      exact ⟨List.not_mem_nil, List.nodup_nil⟩
  · intro rest settles nonempty
    rcases owes with same | settled
    · exact canonical.announced rest (same ▸ settles) nonempty
    · exact absurd (Option.some.inj (settles.symm.trans settled)) nonempty

theorem Canonical.send (canonical : Canonical T g pc) {destination : Nat} {rest : List Nat}
    (stands : pc = .broadcast (destination :: rest)) :
    Canonical T
      (g.setFailure destination
        ((g.failures destination).send
          { payload := []
            record := (g.failures T.coordinatorPe).record
            landed := false }))
      (.broadcast rest) := by
  have owes : pc.owes = some (destination :: rest) := by rw [stands]; rfl
  have published := canonical.announced _ owes (by simp)
  obtain ⟨others, nodup⟩ := canonical.once _ owes
  have ne : destination ≠ T.coordinatorPe := by
    rintro rfl
    exact others List.mem_cons_self
  obtain ⟨empty, zero⟩ := canonical.unsent destination ne fun sent settles => by
    obtain rfl := Option.some.inj (owes.symm.trans settles)
    exact List.mem_cons_self
  have claimed : g.claim = true := by
    by_contra unclaimed
    have := (canonical.unclaimed (by simpa using unclaimed) T.coordinatorPe).2
    have := Signals.published_iff.mp published
    omega
  refine ⟨?_, ?_, ?_, ?_, ?_⟩
  · intro pe
    by_cases same : pe = destination
    · subst same
      rw [setFailure_same]
      exact .send empty (by omega) (canonical.settled published).2 (by simp) (by simp)
    · rw [setFailure_of_ne _ same]
      exact canonical.tracks pe
  · intro unclaimed
    simp [Signals.setFailure, claimed] at unclaimed
  · intro pe notHome sends
    have later : pe ∈ rest := sends rest rfl
    have other : pe ≠ destination := by
      rintro rfl
      exact (List.nodup_cons.mp nodup).1 later
    rw [setFailure_of_ne _ other]
    refine canonical.unsent pe notHome fun sent settles => ?_
    obtain rfl := Option.some.inj (owes.symm.trans settles)
    exact List.mem_cons_of_mem _ later
  · rintro rest' settles
    obtain rfl : rest = rest' := Option.some.inj settles
    exact ⟨fun member => others (List.mem_cons_of_mem _ member), (List.nodup_cons.mp nodup).2⟩
  · intro _ _ _
    rw [Signals.published_iff, setFailure_of_ne _ ne.symm]
    exact Signals.published_iff.mp published

theorem Canonical.claim (canonical : Canonical T g pc) {pe : Nat} {result : ResultCode} {key : InvocationKey}
    {layerOrdinal : Nat} (admissible : Signals.admissible result key) :
    Canonical T (g.tryPublish T.coordinatorPe pe result key layerOrdinal) pc := by
  simp only [Signals.tryPublish]
  split
  · exact canonical
  next unclaimed =>
  have idle := canonical.unclaimed (by simpa using unclaimed)
  have legit : FailurePayload.canonical ⟨result, pe, key, layerOrdinal⟩ := by
    simp only [Signals.admissible, Bool.and_eq_true, Bool.or_eq_true, decide_eq_true_eq] at admissible
    exact admissible.2
  generalize payload_eq : (⟨result, pe, key, layerOrdinal⟩ : FailurePayload) = payload at legit
  -- the claimant's own copy first, then the put to the Coordinator
  have stored : ∀ q, ((g.setFailure pe ((g.failures pe).store payload)).failures q).flight = [] ∧
      ((g.setFailure pe ((g.failures pe).store payload)).failures q).sequence = 0 ∧
      (q = pe → ((g.setFailure pe ((g.failures pe).store payload)).failures q).record = payload) := by
    intro q
    by_cases same : q = pe
    · subst same
      rw [setFailure_same]
      exact ⟨(idle q).1, (idle q).2, fun _ => rfl⟩
    · rw [setFailure_of_ne _ same]
      exact ⟨(idle q).1, (idle q).2, fun eq => absurd eq same⟩
  refine ⟨?_, by simp [Signals.setFailure], ?_, canonical.once, ?_⟩
  · intro q
    by_cases home : q = T.coordinatorPe
    · subst home
      rw [setFailure_same]
      refine .send (stored _).1 (by simp [(stored _).2.1]) legit (by simp) ?_
      intro landed
      exact (stored _).2.2 (by simpa using (of_decide_eq_true landed).symm)
    · rw [setFailure_of_ne _ home]
      refine ⟨by simp [(stored q).1], by simp [(stored q).1], by simp [(stored q).1], ?_⟩
      intro fresh
      simp [(stored q).2.1] at fresh
  · intro q notHome _
    rw [setFailure_of_ne _ notHome]
    exact ⟨(stored q).1, (stored q).2.1⟩
  · intro rest settles nonempty
    have published := Signals.published_iff.mp (canonical.announced rest settles nonempty)
    have := (idle T.coordinatorPe).2
    omega

theorem Canonical.deliver (canonical : Canonical T g pc) {destination : Nat} {delivery : Delivery FailurePayload}
    {channel : Channel FailurePayload Empty} {written : Option Empty}
    (delivered : (g.failures destination).deliver (fun _ => 1) delivery = some (channel, written)) :
    Canonical T (g.setFailure destination channel) pc := by
  -- something was on its way, so nothing that says otherwise holds there
  have busy : (g.failures destination).flight ≠ [] := by
    obtain ⟨put, p, found, -⟩ := Channel.deliver_cases delivered
    rintro empty
    simp [empty] at found
  refine ⟨?_, ?_, ?_, canonical.once, ?_⟩
  · intro pe
    by_cases same : pe = destination
    · subst same
      rw [setFailure_same]
      exact (canonical.tracks pe).deliver delivered
    · rw [setFailure_of_ne _ same]
      exact canonical.tracks pe
  · intro unclaimed
    exact absurd (canonical.unclaimed unclaimed destination).1 busy
  · intro pe ne sends
    by_cases same : pe = destination
    · subst same
      exact absurd (canonical.unsent pe ne sends).1 busy
    · rw [setFailure_of_ne _ same]
      exact canonical.unsent pe ne sends
  · intro rest settles nonempty
    have published := canonical.announced rest settles nonempty
    have other : T.coordinatorPe ≠ destination := by
      rintro rfl
      exact busy (canonical.settled published).1
    rw [Signals.published_iff, setFailure_of_ne _ other]
    exact Signals.published_iff.mp published

theorem SignalStep.canonical (step : SignalStep T g pc g' pc') (canonical : Canonical T g pc) : Canonical T g' pc' := by
  cases step with
  | quiet _ owes => exact canonical.quiet owes
  | announce published loops =>
    refine ⟨canonical.tracks, canonical.unclaimed, ?_, ?_, fun _ _ _ => published⟩
    · intro pe ne _
      exact canonical.unsent pe ne fun rest settles => by simp [loops] at settles
    · intro rest settles
      obtain rfl := Option.some.inj settles
      exact ⟨by simp, List.nodup_range.filter _⟩
  | send destination rest stands => exact canonical.send stands
  | claim pe result key layerOrdinal _ admissible owes => exact (canonical.claim admissible).quiet (.inl owes)
  | deliver destination delivery channel written delivered => exact canonical.deliver delivered
  | shutdown pe =>
    exact ⟨canonical.tracks, canonical.unclaimed, canonical.unsent, canonical.once, canonical.announced⟩

end Canonical

theorem reachable_canonical {policy : PolicyState} (reached : (T.fabric K policy).Reachable s) :
    Canonical T s.signals s.control.coordinator := by
  apply System.ReachableUnder.invariant ?_ ?_ reached
  · rintro s ⟨memory, rfl⟩
    refine ⟨fun pe => .create _, fun _ pe => ⟨rfl, rfl⟩, fun pe _ _ => ⟨rfl, rfl⟩, ?_, ?_⟩
    · intro rest settles
      simp [Topology.create, CoordinatorPc.owes] at settles
    · intro rest settles
      simp [Topology.create, CoordinatorPc.owes] at settles
  · intro s event t _ canonical _ taken
    exact (next_signals taken).canonical canonical

end CrossPool.Fabric
