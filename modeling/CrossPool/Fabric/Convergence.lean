import CrossPool.Fabric.Coordination

/-!
# Failure convergence

A rank that fails waits in `converge_failure` until the failure is published at its
PE, and aborts the device if that does not happen. The wait does not look at
shutdown, while the Coordinator, which alone broadcasts, leaves its loop on
shutdown. So a rank is stranded exactly if the Coordinator leaves on shutdown while
the rank waits, or the rank starts to wait after that.
-/

namespace CrossPool.Fabric

open CrossPool.Lib

/-- The Coordinator is in its loop, or still broadcasting. -/
def CoordinatorPc.loops : CoordinatorPc → Bool
  | exited => false
  | aborted => false
  | _ => true

namespace Topology

variable (T : Topology) {V : Type}

/-- The rank waits inside `converge_failure`, and no failure is published at its PE. -/
def converging (s : State V) (instanceIndex rank : Nat) : Bool :=
  T.isRank instanceIndex rank && decide ((s.control.atnagents instanceIndex rank).pc = .awaitFailure) &&
    !s.signals.published (T.atnagentPe instanceIndex rank)

/-- The broadcast to the PE is on its way. -/
def broadcastSent (s : State V) (pe : Nat) : Bool :=
  !(s.signals.failures pe).flight.isEmpty

/-- The steps that strand nobody: the Coordinator does not leave on shutdown while a
rank converges, and no rank starts to converge at a PE that a Coordinator which has
left did not broadcast to. -/
def Accompanied (s : State V) : Event V → Prop
  | .coordinator =>
    s.control.coordinator = .readShutdown → s.signals.shutdown T.coordinatorPe →
      ∀ i r, T.converging s i r = false
  | .atnagent i r _ =>
    (∃ candidate, (s.control.atnagents i r).pc = .converge candidate) → s.control.coordinator = .exited →
      s.signals.published (T.atnagentPe i r) ∨ broadcastSent s (T.atnagentPe i r)
  | _ => True

end Topology

section Convergence

variable {T : Topology} {V : Type} {K : Kernels V} {policy : PolicyState} {s t : State V} {i r pe : Nat}

/-- The failure is on its way to the PE or there. -/
abbrev Signals.Told (g : Signals) (pe : Nat) : Prop :=
  (g.failures pe).Underway 1

theorem Signals.told_iff {g : Signals} {pc : CoordinatorPc} (canonical : Canonical T g pc) :
    g.Told pe ↔ (g.failures pe).flight ≠ [] ∨ g.published pe := by
  have tracks := canonical.tracks pe
  rw [Signals.published_iff]
  constructor
  · rintro (flight | reached)
    · exact .inl flight
    · obtain ⟨-, -, sequence⟩ := tracks.fresh (by omega)
      exact .inr sequence.symm
  · rintro (flight | published)
    · exact .inl flight
    · exact .inr (by omega)

/-- A PE that the failure is on its way to gets it. -/
theorem SignalStep.told {g g' : Signals} {pc pc' : CoordinatorPc} (step : SignalStep T g pc g' pc')
    (canonical : Canonical T g pc) (told : g.Told pe) : g'.Told pe := by
  cases step with
  | quiet => exact told
  | announce => exact told
  | shutdown => exact told
  | send destination rest =>
    by_cases same : pe = destination
    · subst same
      left
      simp [Channel.send]
    · rw [Signals.Told, setFailure_of_ne _ same]
      exact told
  | claim =>
    simp only [Signals.tryPublish]
    split
    · exact told
    · next unclaimed =>
      -- before the claim nobody is told anything
      obtain ⟨flight, sequence⟩ := canonical.unclaimed (by simpa using unclaimed) pe
      rcases told with flies | reached
      · exact absurd flight flies
      · omega
  | deliver destination delivery channel written delivered =>
    by_cases same : pe = destination
    · subst same
      rw [Signals.Told, setFailure_same]
      exact (canonical.tracks pe).underway told (fun _ _ _ => Nat.le_refl 1) delivered
    · rw [Signals.Told, setFailure_of_ne _ same]
      exact told

/-- The broadcast leaves nobody out. -/
def Broadcasting (T : Topology) (s : State V) : Prop :=
  ∀ rest, s.control.coordinator = .broadcast rest →
    ∀ pe < T.peCount, pe ≠ T.coordinatorPe → pe ∈ rest ∨ s.signals.Told pe

/-- The Coordinator broadcasts or has left. -/
def CoordinatorPc.departs : CoordinatorPc → Bool
  | broadcast _ => true
  | exited => true
  | _ => false

theorem discoverStep_stays {index : Nat} : (T.discoverStep s index).control.coordinator.departs = false := by
  simp only [Topology.discoverStep]
  split
  · rfl
  split
  · rfl
  split
  · rfl
  · rfl
  · split <;> rfl

theorem progressStep_stays {index : Nat} : (T.progressStep s index).control.coordinator.departs = false := by
  simp only [Topology.progressStep]
  split
  · rfl
  split
  · split
    · rfl
    · split <;> rfl
  split
  · rfl
  split
  · rfl
  · rfl
  · split <;> rfl

theorem publishStep_stays {slot : Slot} {rest : List Nat} {resume : List Nat → CoordinatorPc} {done : CoordinatorPc}
    (resumes : ∀ rest, (resume rest).departs = false) (ends : done.departs = false) :
    (T.publishStep s slot rest resume done).control.coordinator.departs = false := by
  cases rest with
  | nil => exact ends
  | cons destination rest =>
    simp only [Topology.publishStep]
    split
    · exact resumes rest
    · rfl

/-- How the Coordinator comes to broadcast, and how it leaves. -/
theorem coordinatorStep_departs (taken : T.coordinatorStep s = some t) :
    t.control.coordinator.departs = false ∨
      t.control.coordinator = .broadcast ((List.range T.peCount).filter (· ≠ T.coordinatorPe)) ∨
      (∃ destination rest, s.control.coordinator = .broadcast (destination :: rest) ∧
        t.control.coordinator = .broadcast rest ∧ (t.signals.failures destination).flight ≠ []) ∨
      (t.control.coordinator = .exited ∧
        ((s.control.coordinator = .readShutdown ∧ s.signals.shutdown T.coordinatorPe) ∨
          s.control.coordinator = .broadcast [])) := by
  unfold Topology.coordinatorStep at taken
  split at taken
  · split at taken
    · obtain rfl := Option.some.inj taken
      exact .inr (.inl rfl)
    · obtain rfl := Option.some.inj taken
      exact .inl rfl
  · next stands =>
    obtain rfl := Option.some.inj taken
    by_cases asked : s.signals.shutdown T.coordinatorPe
    · simp [Topology.coordinatorGoto, asked, stands]
    · left
      simp [Topology.coordinatorGoto, asked, CoordinatorPc.departs]
  · split at taken
    · obtain rfl := Option.some.inj taken
      exact .inl discoverStep_stays
    · obtain rfl := Option.some.inj taken
      exact .inl rfl
  · split at taken
    · obtain rfl := Option.some.inj taken
      exact .inl rfl
    · obtain rfl := Option.some.inj taken
      exact .inl rfl
  · split at taken
    · obtain rfl := Option.some.inj taken
      exact .inl rfl
    · split at taken
      · obtain rfl := Option.some.inj taken
        exact .inl rfl
      · obtain rfl := Option.some.inj taken
        exact .inl rfl
  · split at taken
    · obtain rfl := Option.some.inj taken
      exact .inl progressStep_stays
    · obtain rfl := Option.some.inj taken
      exact .inl rfl
  · split at taken
    · obtain rfl := Option.some.inj taken
      exact .inl rfl
    · obtain rfl := Option.some.inj taken
      exact .inl rfl
  · obtain rfl := Option.some.inj taken
    exact .inl rfl
  · obtain rfl := Option.some.inj taken
    exact .inl (publishStep_stays (fun _ => rfl) rfl)
  · split at taken
    · obtain rfl := Option.some.inj taken
      exact .inl rfl
    · obtain rfl := Option.some.inj taken
      exact .inl rfl
    · obtain rfl := Option.some.inj taken
      exact .inl rfl
  · dsimp only at taken
    split at taken
    · obtain rfl := Option.some.inj taken
      exact .inl rfl
    · obtain rfl := Option.some.inj taken
      exact .inl rfl
  · obtain rfl := Option.some.inj taken
    exact .inl (publishStep_stays (fun _ => rfl) rfl)
  · obtain rfl := Option.some.inj taken
    exact .inl rfl
  · obtain rfl := Option.some.inj taken
    exact .inl (publishStep_stays (fun _ => rfl) rfl)
  · next stands =>
    obtain rfl := Option.some.inj taken
    exact .inr (.inr (.inr ⟨rfl, .inr stands⟩))
  · next destination rest stands =>
    obtain rfl := Option.some.inj taken
    refine .inr (.inr (.inl ⟨destination, rest, stands, rfl, ?_⟩))
    rw [setFailure_same]
    simp [Channel.send]
  · cases taken
  · cases taken

/-- A rank waits in `converge_failure` since it called it. -/
theorem AtnAgentTaken.waits (taken : AtnAgentTaken T K s i r t) (waits : (t.control.atnagents i r).pc = .awaitFailure) :
    (∃ candidate, (s.control.atnagents i r).pc = .converge candidate) ∨
      (s.control.atnagents i r).pc = .awaitFailure := by
  have goto {pc : AtnAgentPc} (other : pc ≠ .awaitFailure)
      (stands : ((Topology.atnAgentGoto s i r pc).control.atnagents i r).pc = .awaitFailure) : False := by
    simp only [Topology.atnAgentGoto, Control.setAtnAgent, update₂_same] at stands
    exact other stands
  cases taken with
  | converge candidate stands => exact .inl ⟨candidate, stands⟩
  | converged stands => exact .inr stands
  | unconverged stands => exact .inr stands
  | request context input resting =>
    simp only [Topology.atnAgentRequest] at waits
    split at waits
    · exact (goto (by simp) waits).elim
    split at waits
    · simp [Control.setAtnAgent] at waits
    · exact (goto (by simp) waits).elim
  | submit stands =>
    simp only [Topology.submitStep] at waits
    split at waits
    · simp at waits
    · exact (goto (by simp) waits).elim
  | admission stands =>
    simp only [Topology.admissionStep] at waits
    split at waits
    · simp only [Control.setAtnAgent, update₂_same] at waits
      split at waits <;> cases waits
    · exact (goto (by simp) waits).elim
  | copyInput stands =>
    simp only [Topology.copyInputStep] at waits
    split at waits
    · exact .inr waits
    · exact (goto (by simp) waits).elim
  | publishInput rest stands =>
    cases rest with
    | nil => exact (goto (by simp) waits).elim
    | cons destination rest =>
      simp only [Topology.publishInputStep] at waits
      split at waits
      · exact .inr waits
      split at waits
      · exact (goto (by simp) waits).elim
      · exact (goto (by simp) waits).elim
  | commit stands =>
    simp only [Topology.commitStep] at waits
    split at waits
    · exact (goto (by simp) waits).elim
    · exact (goto (by simp) waits).elim
  | materialize stands =>
    simp only [Topology.materializeStep] at waits
    split at waits
    · exact (goto (by simp) waits).elim
    split at waits
    · exact .inr waits
    · exact (goto (by simp) waits).elim
  | acknowledge stands =>
    simp only [Topology.acknowledgeStep] at waits
    split at waits
    · simp at waits
    · exact (goto (by simp) waits).elim
  | cancel => exact (goto (by simp) waits).elim
  | expire => exact (goto (by simp) waits).elim
  | cancelled stands =>
    simp only [Topology.atnAgentCancelled] at waits
    split at waits
    · exact (goto (by simp) waits).elim
    · exact (goto (by simp) waits).elim

/-- Once the Coordinator has left, everyone who waits for the failure is told. -/
structure Escorted (T : Topology) (s : State V) : Prop where
  broadcasting : Broadcasting T s
  exited :
    s.control.coordinator = .exited →
      ∀ i r, T.isRank i r → (s.control.atnagents i r).pc = .awaitFailure → s.signals.Told (T.atnagentPe i r)

/-- The Coordinator and the ranks stand where they did. -/
theorem Escorted.bystander (escorted : Escorted T s) (told : ∀ pe, s.signals.Told pe → t.signals.Told pe)
    (coordinator : t.control.coordinator = s.control.coordinator) (atnagents : t.control.atnagents = s.control.atnagents) :
    Escorted T t := by
  constructor
  · intro rest stands pe bound other
    rw [coordinator] at stands
    exact (escorted.broadcasting rest stands pe bound other).imp_right (told pe)
  · intro left i r rank waits
    rw [coordinator] at left
    rw [atnagents] at waits
    exact told _ (escorted.exited left i r rank waits)

/-- A step of the Coordinator. -/
theorem Escorted.coordinator (escorted : Escorted T s) (canonical : Canonical T s.signals s.control.coordinator)
    (taken : T.coordinatorStep s = some t) (accompanied : T.Accompanied s (.coordinator : Event V)) : Escorted T t := by
  have told (pe : Nat) : s.signals.Told pe → t.signals.Told pe := (coordinatorStep_signals taken).told canonical
  have ranks := (coordinatorStep_control taken).frame.atnagents
  rcases coordinatorStep_departs taken with stays | starts | ⟨destination, rest, stood, stands, sent⟩ | ⟨left, cause⟩
  · constructor
    · intro rest stands
      rw [stands] at stays
      cases stays
    · intro left
      rw [left] at stays
      cases stays
  · constructor
    · intro rest stands pe bound other
      rw [starts] at stands
      obtain rfl := CoordinatorPc.broadcast.inj stands
      left
      simp [bound, other]
    · intro left
      rw [starts] at left
      cases left
  · constructor
    · intro rest' stands' pe bound other
      rw [stands] at stands'
      obtain rfl := CoordinatorPc.broadcast.inj stands'
      rcases escorted.broadcasting _ stood pe bound other with listed | before
      · rcases List.mem_cons.mp listed with rfl | later
        · exact .inr (.inl sent)
        · exact .inl later
      · exact .inr (told pe before)
    · intro left
      rw [stands] at left
      cases left
  · constructor
    · intro rest stands
      rw [left] at stands
      cases stands
    · intro _ i r rank waits
      rw [ranks] at waits
      apply told
      rcases cause with ⟨stands, asked⟩ | finished
      · have free := accompanied stands asked i r
        simp only [Topology.converging, rank, waits, decide_true, Bool.and_self, Bool.true_and, Bool.not_eq_false'] at free
        exact (Signals.told_iff canonical).mpr (.inr free)
      · have member := Topology.atnagentPe_mem rank
        have low := Topology.atnagentPes_lt member
        have bound : T.atnagentPe i r < T.peCount := by
          have : T.peCount = T.atnagentCount + T.ffnagentCount := rfl
          omega
        refine (escorted.broadcasting [] finished _ bound ?_).resolve_left (by simp)
        intro same
        exact Topology.coordinatorPe_not_mem (same ▸ member)

theorem Escorted.next {event : Event V} (escorted : Escorted T s) (canonical : Canonical T s.signals s.control.coordinator)
    (taken : T.next K s event = some t) (accompanied : T.Accompanied s event) : Escorted T t := by
  have told (pe : Nat) : s.signals.Told pe → t.signals.Told pe := (next_signals taken).told canonical
  cases event with
  | coordinator => exact escorted.coordinator canonical taken accompanied
  | atnagent i r move =>
    simp only [Topology.next] at taken
    split at taken
    · next rank =>
      have step := atnAgentMove_taken taken
      have frame := step.control.frame
      constructor
      · intro rest stands pe bound other
        rw [frame.coordinator] at stands
        exact (escorted.broadcasting rest stands pe bound other).imp_right (told pe)
      · intro left i' r' rank' waits
        rw [frame.coordinator] at left
        apply told
        by_cases same : i' = i ∧ r' = r
        · obtain ⟨rfl, rfl⟩ := same
          rcases step.waits waits with calls | waited
          · rw [Signals.told_iff canonical]
            refine (accompanied calls left).symm.imp_left ?_
            simp [Topology.broadcastSent]
          · exact escorted.exited left i' r' rank' waited
        · rw [frame.atnagents _ _ same] at waits
          exact escorted.exited left i' r' rank' waits
    · cases taken
  | lane p ℓ move =>
    simp only [Topology.next] at taken
    split at taken
    · have frame := (laneMove_taken taken).control.frame
      exact escorted.bystander told frame.coordinator frame.atnagents
    · cases taken
  | publication destination slot delivery =>
    obtain ⟨⟨channel, written⟩, -, rfl⟩ := Option.map_eq_some_iff.mp taken
    exact escorted.bystander told rfl rfl
  | payload destination slot delivery =>
    obtain ⟨⟨channel, written⟩, -, rfl⟩ := Option.map_eq_some_iff.mp taken
    apply escorted.bystander told
    · cases written <;> rfl
    · cases written <;> rfl
  | failure destination delivery =>
    obtain ⟨⟨channel, written⟩, -, rfl⟩ := Option.map_eq_some_iff.mp taken
    exact escorted.bystander told rfl rfl
  | put pe lane index move =>
    simp only [Topology.next, Topology.putStep] at taken
    split at taken
    · split at taken
      · obtain rfl := Option.some.inj taken
        exact escorted.bystander told rfl rfl
      · cases taken
    · obtain ⟨value, -, rfl⟩ := Option.map_eq_some_iff.mp taken
      exact escorted.bystander told rfl rfl
    · cases taken
  | shutdown pe =>
    obtain rfl := Option.some.inj taken
    exact escorted.bystander told rfl rfl

theorem reachable_escorted (reached : (T.fabric K policy).ReachableUnder T.Accompanied s) : Escorted T s := by
  apply System.ReachableUnder.invariant ?_ ?_ reached
  · rintro s ⟨memory, rfl⟩
    constructor
    · intro rest stands
      simp [Topology.create] at stands
    · intro left
      simp [Topology.create] at left
  · intro s event t reached escorted accompanied taken
    exact escorted.next (reachable_canonical reached.reachable) taken accompanied

/-- In a run of such steps, whoever waits in `converge_failure` waits for a
Coordinator that is in its loop or has broadcast to its PE. -/
theorem convergence_accompanied (fresh : policy.fresh) (reached : (T.fabric K policy).ReachableUnder T.Accompanied s)
    (below : s.control.enqueuedTotal T < maxSequence) (converging : T.converging s i r) :
    s.control.coordinator.loops ∨ Topology.broadcastSent s (T.atnagentPe i r) := by
  have running := reachable_running fresh reached.reachable below
  have canonical := reachable_canonical reached.reachable
  simp only [Topology.converging, Bool.and_eq_true, decide_eq_true_eq, Bool.not_eq_true'] at converging
  obtain ⟨⟨rank, waits⟩, unpublished⟩ := converging
  cases stands : s.control.coordinator with
  | aborted => exact absurd stands running.unaborted
  | exited =>
    right
    have told := (reachable_escorted reached).exited stands i r rank waits
    rcases (Signals.told_iff canonical).mp told with flight | published
    · simpa [Topology.broadcastSent] using flight
    · rw [published] at unpublished
      cases unpublished
  | _ => exact .inl rfl

end Convergence

/-- The rank converges under a Coordinator that is in its loop. -/
theorem convergence_accompanied_timeout :
    ∃ s : State Nat, (solo.fabric soloKernels (.fifo 0)).ReachableUnder solo.Accompanied s ∧ solo.converging s 0 0 ∧
      (s.control.coordinator.loops ∨ Topology.broadcastSent s (solo.atnagentPe 0 0)) := by
  let next (s : State Nat) (event : Event Nat) : Option (State Nat) :=
    if s.signals.shutdown solo.coordinatorPe ∨ s.control.coordinator = .exited then none
    else solo.next soloKernels s event
  have agrees : ∀ s event t, next s event = some t →
      solo.Accompanied s event ∧ (solo.fabric soloKernels (.fifo 0)).step s event t := by
    intro s event t taken
    simp only [next] at taken
    split at taken
    · cases taken
    next calm =>
    rw [not_or] at calm
    refine ⟨?_, taken⟩
    cases event with
    | coordinator => exact fun _ asked => absurd asked calm.1
    | atnagent i r move => exact fun _ left => absurd left calm.2
    | _ => trivial
  have starts : (solo.fabric soloKernels (.fifo 0)).ReachableUnder solo.Accompanied
      (solo.create soloKernels (.fifo 0) fun _ _ _ _ => 0) := .start ⟨_, rfl⟩
  obtain ⟨s, reached, ends⟩ :=
    System.ReachableUnder.run next agrees starts
      (soloSubmits ++ [.coordinator, .coordinator, .atnagent 0 0 .expire, .atnagent 0 0 .step])
      (fun s => solo.converging s 0 0 && decide (s.control.enqueuedTotal solo = 0)) (by decide +kernel)
  obtain ⟨converging, none⟩ : solo.converging s 0 0 ∧ s.control.enqueuedTotal solo = 0 := by simpa using ends
  have below : s.control.enqueuedTotal solo < maxSequence := by
    rw [none]
    decide
  exact ⟨s, reached, converging, convergence_accompanied (by decide) reached below converging⟩

/-- The Coordinator leaves on shutdown, and the deadline of the rank expires only
after that: the rank waits for a broadcast that never comes. -/
theorem late_convergence_stranded :
    ∃ s : State Nat, (solo.fabric soloKernels (.fifo 0)).Reachable s ∧ solo.converging s 0 0 ∧
      ¬(s.control.coordinator.loops ∨ Topology.broadcastSent s (solo.atnagentPe 0 0)) := by
  obtain ⟨s, reached, stranded⟩ :=
    solo.run_reaches soloKernels (.fifo 0) (fun _ _ _ _ => 0)
      (soloSubmits ++ [.shutdown 1, .coordinator, .coordinator, .atnagent 0 0 .expire, .atnagent 0 0 .step])
      (fun s => solo.converging s 0 0 && !(s.control.coordinator.loops || Topology.broadcastSent s (solo.atnagentPe 0 0)))
      (by decide +kernel)
  refine ⟨s, reached, ?_⟩
  simpa using stranded

end CrossPool.Fabric
