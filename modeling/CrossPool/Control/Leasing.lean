import CrossPool.Control.Generations
import CrossPool.Control.Registry

/-!
# The daemon's use of the transport registry

Whatever handlers run at once, what they do to the broker is a trace of the registry: each section makes at
most one validated call under the lock, and all others leave the broker alone.
-/

namespace CrossPool.Control

open CrossPool.Lib

namespace Leasing

variable {Doc : Type}

/-- What a section may do with the broker. -/
def Calls (config : Config) (s t : Plane Doc) : Prop :=
  ∃ log, (registry config).Trace s.broker log t.broker

/-- Sections make calls of the registry. -/
def discipline (Doc : Type) (config : Config) : Discipline (ProcUniqId → Bool) (Plane Doc) Host where
  inv _ _ := True
  effect _ s t := Calls config s t
  passes := Dies
  admits _ _ := True
  refl _ _ := ⟨[], .nil⟩
  keeps _ _ := trivial
  ages _ _ := trivial

/-- The broker is left alone. -/
def Keeps (s t : Plane Doc) : Prop :=
  t.broker = s.broker

theorem Keeps.refl (s : Plane Doc) : Keeps s s :=
  rfl

section Sections

variable {α β : Type}

theorem keeps_pure (a : α) : Within Keeps (pure a : Act Doc α) :=
  within_pure Keeps.refl a

theorem keeps_throw (e : Raised) : Within Keeps (throw e : Act Doc α) :=
  within_throw Keeps.refl e

theorem keeps_refuse (kind : DaemonErrorKind) (message : String) : Within Keeps (refuse kind message : Act Doc α) :=
  keeps_throw _

theorem keeps_get : Within Keeps (get : Act Doc (Plane Doc)) :=
  within_get Keeps.refl

theorem keeps_bind {m : Act Doc β} {f : β → Act Doc α} (first : Within Keeps m) (second : ∀ b, Within Keeps (f b)) :
    Within Keeps (m >>= f) :=
  within_bind (fun s t u (before : Keeps s t) (after : Keeps t u) => Eq.trans after before) first second

theorem keeps_modify {f : Plane Doc → Plane Doc} (same : ∀ s, (f s).broker = s.broker) :
    Within Keeps (modify f : Act Doc PUnit) :=
  within_modify same

theorem keeps_check (result : Except DaemonError α) : Within Keeps (check result : Act Doc α) := by
  unfold check
  split
  · exact keeps_pure _
  · exact keeps_throw _

theorem keeps_onFabric (operation : GenerationState → Outcome) : Within Keeps (onFabric operation : Act Doc Unit) := by
  refine keeps_bind keeps_get fun s => ?_
  split
  · exact keeps_pure _
  · refine keeps_bind (keeps_modify fun s => rfl) fun _ => ?_
    split
    · exact keeps_pure _
    · exact keeps_throw _

theorem keeps_requireStartup (role : FabricRole) (device : Nat) (proc : ProcUniqId) (message : String) :
    Within Keeps (requireStartup role device proc message : Act Doc Unit) := by
  refine keeps_bind keeps_get fun s => ?_
  split
  · split
    · exact keeps_refuse _ _
    · exact keeps_refuse _ _
  · exact keeps_pure _

theorem keeps_refuseReplacement (role : FabricRole) (device : Nat) (proc : ProcUniqId) (now : Nat) (message : String) :
    Within Keeps (refuseReplacement role device proc now message : Act Doc Unit) := by
  refine keeps_bind keeps_get fun s => ?_
  split
  · exact keeps_pure _
  split
  · exact keeps_throw _
  split
  · exact keeps_bind (keeps_onFabric _) fun _ => keeps_refuse _ _
  · exact keeps_pure _

end Sections

section Handlers

variable {α : Type} {config : Config} {s : Plane Doc}

theorem Calls.refl (s : Plane Doc) : Calls config s s :=
  ⟨[], .nil⟩

theorem Calls.of_step {t : Plane Doc} (call : BrokerCall) (validated : call.Validated config)
    (ran : call.run s.broker = .ok t.broker) : Calls config s t :=
  ⟨_, .single ⟨validated, ran⟩⟩

/-- A section that makes no call. -/
theorem tame_keeps {body : Host → Act Doc α} (keeps : ∀ host, Within Keeps (body host)) :
    (discipline Doc config).Tame (.locked body) := by
  have silent (t u : Plane Doc) (same : Keeps t u) : Calls config t u := by
    rw [Calls, show u.broker = t.broker from same]
    exact ⟨[], .nil⟩
  apply Discipline.tame_locked
  intro v t host _ _
  exact wp_mono (keeps host t) (fun _ u => silent t u) fun u => silent t u

theorem tame_look {look : Plane Doc → α} :
    (discipline Doc config).Tame (.locked fun _ => do pure (look (← get)) : Task Doc α) :=
  tame_keeps fun _ => keeps_bind keeps_get fun _ => keeps_pure _

theorem tame_checked (result : Except DaemonError α) : (discipline Doc config).Tame (checked result : Task Doc α) := by
  unfold checked
  split
  · exact Discipline.tame_pure
  · exact Discipline.tame_raise

theorem tame_existingAlive {κ C : Type} (existing : Option (Registration κ C)) :
    (discipline Doc config).Tame (existingAlive existing : Task Doc Bool) := by
  cases existing with
  | none => exact Discipline.tame_pure
  | some registration => exact Discipline.tame_observe

variable [DecidableEq Doc]

omit [DecidableEq Doc] in
theorem tame_newRegistration {κ C : Type} (key : κ) (pid abiVersion : Nat) (contract : C) :
    (discipline Doc config).Tame (newRegistration key pid abiVersion contract : Task Doc (Registration κ C)) := by
  refine tame_keeps fun host => ?_
  split
  · exact keeps_refuse _ _
  · exact keeps_bind keeps_get fun s => keeps_bind (keeps_modify fun s => rfl) fun _ => keeps_pure _

omit [DecidableEq Doc] in
theorem tame_retireTerminalGeneration : (discipline Doc config).Tame (retireTerminalGeneration : Task Doc Unit) := by
  refine Discipline.tame_bind (tame_keeps fun host => keeps_bind keeps_get fun s => ?_) fun stopped => ?_
  · split
    · exact keeps_pure _
    split
    · exact keeps_pure _
    · exact keeps_pure _
  split
  · exact Discipline.tame_pure
  · refine Discipline.tame_bind (Discipline.tame_observeAny _) fun anyAlive => ?_
    refine tame_keeps fun host => keeps_bind keeps_get fun s => ?_
    split
    · exact keeps_pure _
    split
    · exact keeps_modify fun s => rfl
    · exact keeps_pure _

theorem tame_ensureFabricPlan : (discipline Doc config).Tame (ensureFabricPlan config : Task Doc Unit) := by
  refine Discipline.tame_bind (tame_keeps fun host => keeps_bind keeps_get fun s => ?_) fun membership => ?_
  · split
    · exact keeps_pure _
    split
    · exact keeps_pure _
    · exact keeps_check _
  split
  · exact Discipline.tame_pure
  refine Discipline.tame_bind (Discipline.tame_observeAny _) fun someDead => ?_
  split
  · exact Discipline.tame_pure
  refine Discipline.tame_bind (Discipline.tame_observeAny _) fun someDead => ?_
  split
  · exact Discipline.tame_pure
  refine Discipline.tame_bind Discipline.tame_observe fun generation => ?_
  refine tame_keeps fun host => keeps_bind (keeps_modify fun s => rfl) fun _ => keeps_bind keeps_get fun s => ?_
  split
  · exact keeps_modify fun s => rfl
  split
  · exact keeps_modify fun s => rfl
  · exact keeps_modify fun s => rfl

omit [DecidableEq Doc] in
theorem tame_admitAgentStartup (role : FabricRole) (device pid createTime abiVersion : Nat) :
    (discipline Doc config).Tame (admitAgentStartup config role device pid createTime abiVersion : Task Doc Unit) := by
  refine Discipline.tame_bind (tame_keeps fun host => keeps_bind keeps_get fun s => ?_) fun serial => ?_
  · split
    · exact keeps_refuse _ _
    split
    · exact keeps_refuse _ _
    split
    · exact keeps_refuse _ _
    split
    · exact keeps_pure _
    split
    · exact keeps_pure _
    · exact keeps_refuse _ _
  refine Discipline.tame_bind Discipline.tame_observe fun identity => ?_
  cases identity with
  | none => exact Discipline.tame_raise
  | some actual =>
    refine Discipline.tame_bind Discipline.tame_observe fun live => ?_
    split
    · exact Discipline.tame_raise
    refine tame_keeps fun host => keeps_bind keeps_get fun s => ?_
    split
    · exact keeps_refuse _ _
    split
    · split
      · exact keeps_refuse _ _
      · exact keeps_modify fun s => rfl
    · exact keeps_modify fun s => rfl

omit [DecidableEq Doc] in
theorem tame_awaitArenaUsers (device : Nat) (proc : ProcUniqId) (existing : Option (Registration Nat (AtnAgentContract Doc)))
    (alive : Bool) : (discipline Doc config).Tame (awaitArenaUsers device proc existing alive : Task Doc Unit) := by
  unfold awaitArenaUsers
  split
  · exact Discipline.tame_pure
  split
  · refine Discipline.tame_bind tame_look fun owners => ?_
    refine Discipline.tame_bind (Discipline.tame_observeAny _) fun anyAlive => ?_
    split
    · exact Discipline.tame_raise
    · refine tame_keeps fun host => keeps_bind keeps_get fun s => ?_
      split
      · exact keeps_pure _
      · exact keeps_refuse _ _
  · exact Discipline.tame_pure

/-! ## Sections with a call -/

theorem commitAtnagent_calls (device : Nat) (registration : Registration Nat (AtnAgentContract Doc))
    (existing : Option (Registration Nat (AtnAgentContract Doc))) (alive : Bool) :
    wp (commitAtnagent device registration existing alive) (fun _ t => Calls config s t) (fun t => Calls config s t) s := by
  simp only [commitAtnagent, wp_bind, wp_get]
  split
  · exact .refl s
  rw [wp_bind]
  refine wp_check (fun result installed => ?_) (.refl s)
  simp only [wp_bind, wp_modify]
  split
  · exact .refl s
  · rename_i entry found
    have step : (BrokerCall.installAtnagent device entry.proc).run s.broker = .ok _ := rfl
    split
    · exact Calls.of_step (.installAtnagent device entry.proc) trivial step
    · exact Calls.of_step (.installAtnagent device entry.proc) trivial step

theorem commitInstance_calls (rank : InstanceRankId) (contract : InstanceContract Doc)
    (registration : Registration InstanceRankId (InstanceContract Doc))
    (existing : Option (Registration InstanceRankId (InstanceContract Doc))) (alive : Bool) :
    wp (commitInstance rank contract registration existing alive) (fun _ t => Calls config s t) (fun t => Calls config s t)
      s := by
  simp only [commitInstance, wp_bind, wp_get]
  split
  · exact .refl s
  split
  · exact .refl s
  split
  · exact .refl s
  split
  · exact .refl s
  rw [wp_bind]
  refine wp_check (fun result installed => ?_) (.refl s)
  simp only [wp_bind, wp_modify]
  split
  · exact Calls.of_step (.removeInstance rank) trivial rfl
  · exact .refl s

omit [DecidableEq Doc] in
/-- What the control plane hands to `publish` was checked: all arenas differ and belong to ranks of the device. -/
theorem validate_ok {device : Nat} {bindings : List ArenaBinding} (publications : List TransportArenaPublication)
    {result : List TransportArenaPublication}
    (handles : (publications.map (·.handle)).Nodup)
    (served : ∀ publication ∈ publications, config.deviceOf publication.instanceRank = device)
    (returned : validateAtnagentTransportArenas config s device bindings publications = .ok result) :
    (result.map (·.handle)).Nodup ∧ ∀ publication ∈ result, config.deviceOf publication.instanceRank = device := by
  induction bindings generalizing publications with
  | nil =>
    cases returned
    refine ⟨?_, fun publication member => served publication (List.mem_reverse.mp member)⟩
    rw [List.map_reverse, List.nodup_reverse]
    exact handles
  | cons binding rest ih =>
    obtain ⟨modelId, rank, handle⟩ := binding
    unfold validateAtnagentTransportArenas at returned
    dsimp only at returned
    by_cases fresh : publications.any (·.handle = handle)
    · rw [if_pos fresh] at returned
      obtain ⟨_, thrown, _⟩ := bind_eq_ok.mp returned
      cases thrown
    rw [if_neg fresh] at returned
    by_cases known : modelId ∉ config.instances
    · rw [if_pos known] at returned
      obtain ⟨_, thrown, _⟩ := bind_eq_ok.mp returned
      cases thrown
    rw [if_neg known] at returned
    obtain ⟨_, _, returned⟩ := bind_eq_ok.mp returned
    by_cases expected : config.atnDevices.getD rank 0 ≠ device
    · rw [if_pos expected] at returned
      obtain ⟨_, thrown, _⟩ := bind_eq_ok.mp returned
      cases thrown
    rw [if_neg expected] at returned
    by_cases again : publications.any (·.instanceRank = ⟨modelId, rank⟩)
    · rw [if_pos again] at returned
      obtain ⟨_, thrown, _⟩ := bind_eq_ok.mp returned
      cases thrown
    rw [if_neg again] at returned
    split at returned
    · cases returned
    · apply ih _ ?_ ?_ returned
      · rw [List.map_cons, List.nodup_cons]
        refine ⟨?_, handles⟩
        intro member
        obtain ⟨publication, listed, same⟩ := List.mem_map.mp member
        apply fresh
        rw [List.any_eq_true]
        exact ⟨publication, listed, by simpa using same⟩
      · intro publication member
        rcases List.mem_cons.mp member with rfl | later
        · exact not_not.mp expected
        · exact served publication later

theorem tame_upsertAtnagentTransportArenas (device : Nat) (bindings : List ArenaBinding) (publisher : ProcessRef) :
    (discipline Doc config).Tame (upsertAtnagentTransportArenas config device bindings publisher : Task Doc Unit) := by
  refine Discipline.tame_bind Discipline.tame_observe fun now => ?_
  split
  · exact Discipline.tame_raise
  refine Discipline.tame_bind tame_look fun registration => ?_
  cases registration with
  | none => exact Discipline.tame_raise
  | some registration =>
    refine Discipline.tame_bind Discipline.tame_observe fun valid => ?_
    refine Discipline.tame_bind (tame_checked _) fun _ => Discipline.tame_bind (tame_checked _) fun _ => ?_
    apply Discipline.tame_locked
    intro v s host _ _
    simp only [wp_bind, wp_get]
    split
    · exact Calls.refl s
    rw [wp_bind]
    refine wp_check (fun publications validated => ?_) (Calls.refl s)
    rw [wp_bind]
    refine wp_check (fun broker returned => ?_) (Calls.refl s)
    obtain ⟨handles, served⟩ := validate_ok [] List.nodup_nil (by simp) validated
    exact Calls.of_step (.publish device registration.proc publications) ⟨handles, served⟩ returned

theorem tame_quiesceAtnagentTransportLeases (device : Nat) (publisher : ProcessRef) :
    (discipline Doc config).Tame (quiesceAtnagentTransportLeases config device publisher : Task Doc Unit) := by
  refine Discipline.tame_bind Discipline.tame_observe fun now => ?_
  split
  · exact Discipline.tame_raise
  refine Discipline.tame_bind tame_look fun registration => ?_
  cases registration with
  | none => exact Discipline.tame_raise
  | some registration =>
    refine Discipline.tame_bind Discipline.tame_observe fun valid => ?_
    refine Discipline.tame_bind (tame_checked _) fun _ => ?_
    split
    · exact Discipline.tame_raise
    apply Discipline.tame_locked
    intro v s host _ _
    simp only [wp_bind, wp_get]
    split
    · exact Calls.refl s
    rw [wp_bind]
    exact wp_check (fun broker returned => .of_step (.quiesce device registration.proc) trivial returned) (Calls.refl s)

theorem leaseArena_calls {C : Type} (rank : InstanceRankId)
    (registration : Registration InstanceRankId (InstanceContract Doc)) (atnagent : Registration Nat C) (now : Nat) :
    wp (leaseArena (config.deviceOf rank) rank registration atnagent now) (fun _ t => Calls config s t)
      (fun t => Calls config s t) s := by
  have still : Calls config s s := .refl s
  simp only [leaseArena, wp_bind, wp_get]
  split
  · rename_i current agent _ _
    split
    · exact still
    split
    · exact still
    simp only [wp_bind]
    refine wp_check (fun _ _ => wp_check (fun _ _ => wp_check (fun _ _ => wp_check (fun publication found => ?_)
      still) still) still) still
    split
    · exact still
    · rw [wp_bind]
      refine wp_check (fun broker acquired => ?_) still
      apply Calls.of_step (.acquire (config.deviceOf rank) agent.proc rank) rfl
      exact bind_eq_ok.mpr ⟨publication, found, acquired⟩
  · exact still
  · exact still

theorem tame_acquireInstanceTransportArena (rank : InstanceRankId) (owner : ProcessRef) :
    (discipline Doc config).Tame (acquireInstanceTransportArena config rank owner : Task Doc Unit) := by
  refine Discipline.tame_bind (tame_checked _) fun _ => ?_
  refine Discipline.tame_bind Discipline.tame_observe fun now => ?_
  refine Discipline.tame_bind tame_look fun registration => ?_
  cases registration with
  | none => exact Discipline.tame_raise
  | some registration =>
    refine Discipline.tame_bind Discipline.tame_observe fun valid => ?_
    refine Discipline.tame_bind (tame_checked _) fun _ => ?_
    refine Discipline.tame_bind tame_look fun atnagent => ?_
    cases atnagent with
    | none => exact Discipline.tame_raise
    | some atnagent => exact Discipline.tame_locked fun v s host _ _ => leaseArena_calls _ _ _ _

theorem tame_registerAtnagent (device pid abiVersion : Nat) (contract : AtnAgentContract Doc) :
    (discipline Doc config).Tame (registerAtnagent config device pid abiVersion contract) := by
  refine Discipline.tame_bind (tame_newRegistration _ _ _ _) fun registration => ?_
  refine Discipline.tame_bind tame_retireTerminalGeneration fun _ => ?_
  split
  · exact Discipline.tame_raise
  split
  · exact Discipline.tame_raise
  refine Discipline.tame_bind (tame_keeps fun host => ?_) fun existing => ?_
  · refine keeps_bind (keeps_requireStartup _ _ _ _) fun _ => ?_
    exact keeps_bind (keeps_refuseReplacement _ _ _ _ _) fun _ => keeps_bind keeps_get fun s => keeps_pure _
  refine Discipline.tame_bind (tame_existingAlive _) fun alive => ?_
  refine Discipline.tame_bind (tame_awaitArenaUsers _ _ _ _) fun _ => ?_
  exact Discipline.tame_bind (Discipline.tame_locked fun v s host _ _ => commitAtnagent_calls _ _ _ _)
    fun _ => tame_ensureFabricPlan

theorem tame_registerFfnagent (device pid abiVersion : Nat) (contract : FfnAgentContract Doc) (modelSpecs : List Doc) :
    (discipline Doc config).Tame (registerFfnagent config device pid abiVersion contract modelSpecs) := by
  refine Discipline.tame_bind (tame_newRegistration _ _ _ _) fun registration => ?_
  refine Discipline.tame_bind tame_retireTerminalGeneration fun _ => ?_
  split
  · exact Discipline.tame_raise
  split
  · exact Discipline.tame_raise
  refine Discipline.tame_bind (tame_keeps fun host => ?_) fun existing => ?_
  · refine keeps_bind (keeps_requireStartup _ _ _ _) fun _ => ?_
    exact keeps_bind (keeps_refuseReplacement _ _ _ _ _) fun _ => keeps_bind keeps_get fun s => keeps_pure _
  refine Discipline.tame_bind (tame_existingAlive _) fun alive => ?_
  refine Discipline.tame_bind (tame_keeps fun host => keeps_bind keeps_get fun s => ?_) fun _ => tame_ensureFabricPlan
  split
  · exact keeps_refuse _ _
  split
  · exact keeps_refuse _ _
  refine keeps_bind (keeps_check _) fun result => keeps_bind (keeps_modify fun s => rfl) fun _ => ?_
  split
  · exact keeps_modify fun s => rfl
  · exact keeps_pure _

theorem tame_registerInstance (rank : InstanceRankId) (pid abiVersion : Nat) (contract : InstanceContract Doc) :
    (discipline Doc config).Tame (registerInstance config rank pid abiVersion contract) := by
  refine Discipline.tame_bind (tame_newRegistration _ _ _ _) fun registration => ?_
  refine Discipline.tame_bind tame_retireTerminalGeneration fun _ => ?_
  split
  · exact Discipline.tame_raise
  refine Discipline.tame_bind (tame_checked _) fun _ => ?_
  dsimp only
  split
  · exact Discipline.tame_raise
  split
  · exact Discipline.tame_raise
  refine Discipline.tame_bind (tame_keeps fun host => keeps_bind keeps_get fun s => ?_) fun existing => ?_
  · split
    · exact keeps_refuse _ _
    split
    · exact keeps_pure _
    split
    · exact keeps_bind (keeps_onFabric _) fun _ => keeps_refuse _ _
    · exact keeps_pure _
  refine Discipline.tame_bind (tame_existingAlive _) fun alive => ?_
  exact Discipline.tame_bind (Discipline.tame_locked fun v s host _ _ => commitInstance_calls _ _ _ _ _)
    fun _ => tame_ensureFabricPlan

theorem tame_deregisterInstance (rank : InstanceRankId) (owner : ProcessRef) :
    (discipline Doc config).Tame (deregisterInstance config rank owner : Task Doc Unit) := by
  refine Discipline.tame_bind (tame_checked _) fun _ => Discipline.tame_bind tame_look fun registration => ?_
  cases registration with
  | none => exact Discipline.tame_raise
  | some registration =>
    refine Discipline.tame_bind Discipline.tame_observe fun valid => Discipline.tame_bind (tame_checked _) fun _ => ?_
    apply Discipline.tame_locked
    intro v s host _ _
    simp only [wp_bind, wp_get]
    refine wp_check (fun table removed => ?_) (Calls.refl s)
    simp only [wp_modify]
    have removes (t : Plane Doc) (same : t.broker = s.broker.removeInstance rank) : Calls config s t :=
      Calls.of_step (.removeInstance rank) trivial (congrArg Except.ok same.symm)
    exact wp_mono (keeps_onFabric _ _) (fun _ t same => removes t same) fun t same => removes t same

/-! ## Requests without a call -/

omit [DecidableEq Doc] in
theorem tame_recordFabricParticipant (report : ParticipantReport) :
    (discipline Doc config).Tame (recordFabricParticipant report : Task Doc Unit) := by
  refine tame_keeps fun host => keeps_bind keeps_get fun s => ?_
  split
  · exact keeps_refuse _ _
  split
  · exact keeps_onFabric _
  split
  · exact keeps_onFabric _
  · exact keeps_onFabric _

omit [DecidableEq Doc] in
theorem tame_requestFabricQuiesce (owner : ProcessRef) (generation : GenerationId) :
    (discipline Doc config).Tame (requestFabricQuiesce owner generation : Task Doc Unit) := by
  refine tame_keeps fun host => keeps_bind keeps_get fun s => ?_
  split
  · exact keeps_refuse _ _
  split
  · exact keeps_refuse _ _
  dsimp only
  split
  · exact keeps_refuse _ _
  · exact keeps_onFabric _

theorem tame_publishInstanceInitialized (rank : InstanceRankId) (owner : ProcessRef) (generation : GenerationId)
    (listener : Doc) :
    (discipline Doc config).Tame (publishInstanceInitialized config rank owner generation listener : Task Doc Unit) := by
  refine Discipline.tame_bind (tame_checked _) fun _ => Discipline.tame_bind tame_look fun registration => ?_
  cases registration with
  | none => exact Discipline.tame_raise
  | some registration =>
    refine Discipline.tame_bind Discipline.tame_observe fun valid => Discipline.tame_bind (tame_checked _) fun _ => ?_
    refine tame_keeps fun host => keeps_bind keeps_get fun s => ?_
    split
    · exact keeps_refuse _ _
    split
    · exact keeps_refuse _ _
    split
    · split
      · exact keeps_refuse _ _
      · exact keeps_onFabric _
    · exact keeps_bind (keeps_onFabric _) fun _ => keeps_modify fun s => rfl

omit [DecidableEq Doc] in
theorem tame_stepContextStateCapacity (error : Option String) :
    (discipline Doc config).Tame (stepContextStateCapacity error : Task Doc Unit) := by
  refine tame_keeps fun host => keeps_bind keeps_get fun s => ?_
  split
  · exact keeps_pure _
  split
  · exact keeps_pure _
  split
  · exact keeps_pure _
  split
  · exact keeps_pure _
  · exact keeps_bind (keeps_onFabric _) fun _ => keeps_throw _

omit [DecidableEq Doc] in
theorem tame_heartbeat {κ C : Type} (key : κ) (process : ProcessRef) (query : Plane Doc → κ → Option (Registration κ C))
    (commit : Plane Doc → Registration κ C → Nat → Except DaemonError (Plane Doc)) :
    (discipline Doc config).Tame (heartbeat key process query commit) := by
  refine Discipline.tame_bind Discipline.tame_observe fun now => Discipline.tame_bind tame_look fun registration => ?_
  cases registration with
  | none => exact Discipline.tame_raise
  | some registration =>
    refine Discipline.tame_bind Discipline.tame_observe fun valid => Discipline.tame_bind (tame_checked _) fun _ => ?_
    refine tame_keeps fun host => keeps_bind keeps_get fun s => ?_
    exact keeps_bind (keeps_check _) fun after => keeps_modify fun s => rfl

omit [DecidableEq Doc] in
theorem tame_watchdog : (discipline Doc config).Tame (watchdog config : Task Doc Unit) := by
  refine Discipline.tame_bind Discipline.tame_observe fun now => ?_
  refine Discipline.tame_bind tame_look fun captured => ?_
  refine Discipline.tame_bind (Discipline.tame_observeAll _) fun liveness => ?_
  refine Discipline.tame_bind (Discipline.tame_observeAll _) fun rest => ?_
  refine Discipline.tame_bind (tame_keeps fun host => keeps_modify fun s => rfl) fun _ => ?_
  refine Discipline.tame_bind (tame_keeps fun host => keeps_bind keeps_get fun s => ?_) fun current => ?_
  · split
    · exact keeps_pure _
    split
    · exact keeps_bind (keeps_onFabric _) fun _ => keeps_pure _
    · exact keeps_pure _
  cases current with
  | true => exact tame_retireTerminalGeneration
  | false => exact Discipline.tame_pure

omit [DecidableEq Doc] in
theorem tame_start : (discipline Doc config).Tame (start : Task Doc Unit) := by
  refine tame_keeps fun host => keeps_bind keeps_get fun s => ?_
  split
  · exact keeps_pure _
  · exact keeps_modify fun s => rfl

omit [DecidableEq Doc] in
theorem tame_close (deadline : Nat) : (discipline Doc config).Tame (close deadline : Task Doc Unit) := by
  refine Discipline.tame_bind (tame_keeps fun host => ?_) fun deadline => ?_
  · exact keeps_bind (keeps_modify fun s => rfl) fun _ => keeps_bind keeps_get fun s => keeps_pure _
  refine Discipline.tame_bind Discipline.tame_observe fun now => ?_
  refine Discipline.tame_bind tame_look fun captured => ?_
  refine Discipline.tame_bind (Discipline.tame_observeAny _) fun instanceAlive => ?_
  split
  · exact Discipline.tame_pure
  refine Discipline.tame_bind (tame_keeps fun host => keeps_bind keeps_get fun s => ?_) fun _ => ?_
  · split
    · exact keeps_pure _
    split
    · exact keeps_onFabric _
    · exact keeps_pure _
  refine Discipline.tame_bind (Discipline.tame_observeAny _) fun anyAlive => ?_
  split
  · exact Discipline.tame_pure
  · exact tame_keeps fun host => keeps_modify fun s => rfl

/-- Every handler of the daemon only makes calls of the registry. -/
theorem tame_request (request : Request Doc) : (discipline Doc config).Tame (request.handler config) := by
  cases request with
  | start => exact tame_start
  | admitAgentStartup role device pid createTime abiVersion => exact tame_admitAgentStartup _ _ _ _ _
  | registerAtnagent device pid abiVersion contract => exact tame_registerAtnagent _ _ _ _
  | registerFfnagent device pid abiVersion contract modelSpecs => exact tame_registerFfnagent _ _ _ _ _
  | registerInstance rank pid abiVersion contract => exact tame_registerInstance _ _ _ _
  | deregisterInstance rank owner => exact tame_deregisterInstance _ _
  | recordFabricParticipant report => exact tame_recordFabricParticipant report
  | requestFabricQuiesce owner generation => exact tame_requestFabricQuiesce _ _
  | publishInstanceInitialized rank owner generation listener => exact tame_publishInstanceInitialized _ _ _ _
  | stepContextStateCapacity error => exact tame_stepContextStateCapacity error
  | heartbeatAtnagent device process =>
    unfold Request.handler heartbeatAtnagent
    exact tame_heartbeat _ _ _ _
  | heartbeatFfnagent device process =>
    unfold Request.handler heartbeatFfnagent
    exact tame_heartbeat _ _ _ _
  | heartbeatInstance rank process =>
    unfold Request.handler heartbeatInstance
    exact tame_heartbeat _ _ _ _
  | watchdog => exact tame_watchdog
  | upsertAtnagentTransportArenas device bindings publisher => exact tame_upsertAtnagentTransportArenas _ _ _
  | quiesceAtnagentTransportLeases device publisher => exact tame_quiesceAtnagentTransportLeases _ _
  | acquireInstanceTransportArena rank owner => exact tame_acquireInstanceTransportArena _ _
  | close deadline => exact tame_close deadline

end Handlers

/-! ## Runs of the daemon -/

section Runs

variable {config : Config} {m after : Monitor (ProcUniqId → Bool) (Plane Doc) Host Raised Nat}

theorem trace_of_rely {x y : (ProcUniqId → Bool) × Plane Doc} (rely : (discipline Doc config).Rely x y) :
    ∃ log, (registry config).Trace x.2.broker log y.2.broker := by
  apply rely.relation (R := fun x y => ∃ log, (registry config).Trace x.2.broker log y.2.broker)
  · intro x
    exact ⟨[], .nil⟩
  · rintro x y z ⟨log, first⟩ ⟨log', second⟩
    exact ⟨log ++ log', first.append second⟩
  · intro x y move
    cases move with
    | effect _ effect => exact effect
    | passes _ _ => exact ⟨[], .nil⟩

variable [DecidableEq Doc]

theorem rely_of_later (reached : (daemon Doc config).Reachable m) (later : (daemon Doc config).Later m after) :
    (discipline Doc config).Rely (m.outside, m.shared) (after.outside, after.shared) := by
  have free (n : Monitor (ProcUniqId → Bool) (Plane Doc) Host Raised Nat)
      (event : Monitor.Event (ProcUniqId → Bool) Host Nat (Request Doc)) :
      Monitor.Admitted (discipline Doc config).admits n event := by
    cases event <;> trivial
  exact Discipline.later (D := discipline Doc config) (fun _ _ _ => trivial) (fun request => tame_request request)
    (reached.weaken fun n event _ => free n event) (later.weaken fun n event _ => free n event)

theorem exists_trace (reached : (daemon Doc config).Reachable m) :
    ∃ log, (registry config).Trace ⟨∅, ∅⟩ log m.shared.broker := by
  apply System.ReachableUnder.invariant ?_ ?_ reached
  · rintro m ⟨start, -⟩
    rw [start]
    exact ⟨[], .nil⟩
  · rintro m event after before ⟨log, trace⟩ _ taken
    obtain ⟨log', more⟩ := trace_of_rely (rely_of_later before (.step (.refl m) trivial taken))
    exact ⟨log ++ log', trace.append more⟩

/-- Over every interleaving of the daemon's handlers the registry is used by its rules: at any moment its
publications and leases come from validated calls, arenas of one owner are each published for one rank only, no two
ranks lease the same one, and any later moment continues the earlier. -/
theorem daemon_leases (config : Config) (m after : Monitor (ProcUniqId → Bool) (Plane Doc) Host Raised Nat)
    (reached : (daemon Doc config).Reachable m) (later : (daemon Doc config).Later m after) :
    ∃ log more, (registry config).Trace ⟨∅, ∅⟩ log m.shared.broker ∧
      (registry config).Trace m.shared.broker more after.shared.broker ∧
      Registered config log m.shared.broker ∧ Registered config (log ++ more) after.shared.broker ∧
      Continues m.shared.broker more after.shared.broker ∧
      ∀ rank rank' lease lease', m.shared.broker.leases.lookup rank = some lease →
        m.shared.broker.leases.lookup rank' = some lease' → lease = lease' → Sole log lease.device lease.publisher →
          rank = rank' := by
  obtain ⟨log, trace⟩ := exists_trace reached
  obtain ⟨more, trace'⟩ := trace_of_rely (rely_of_later reached later)
  have registered := registered_of_trace trace
  refine ⟨log, more, trace, trace', registered, ?_, continues_of_trace trace', ?_⟩
  · exact registered_of_trace (trace.append trace')
  rintro rank rank' lease lease' held held' rfl sole
  exact registered.exclusive held held' rfl rfl rfl sole

end Runs

/-- Two Instances of one rank each on one attention device. -/
def pairConfig : Config :=
  { smallConfig with instances := ["m", "n"] }

/-- The reports of both Agents up to `ACTIVE`. -/
def activate : List (Errand Unit) :=
  [ParticipantPhase.joinReady, .joining, .joined, .executionReady, .active].flatMap fun phase =>
    serve (.recordFabricParticipant ⟨⟨10, 1⟩, ⟨0, 1⟩, 0, phase, none, none⟩) 1 ++
      serve (.recordFabricParticipant ⟨⟨11, 1⟩, ⟨0, 1⟩, 1, phase, none, none⟩) 1

/-- The AtnAgent of an executable generation publishes an arena for each of the two ranks,
and both acquire theirs. -/
def leaseArenas : List (Errand Unit) :=
  serve .start 1 ++ deployAgents () 10 5 5 ++ serve (registerRank 12 ()) 5 ++
    serve (.registerInstance ⟨"n", 0⟩ 13 1 ⟨⟨1, 1, 0, 1, 0, 1⟩, (), (), 0⟩) 15 ++ activate ++
    serve (.upsertAtnagentTransportArenas 0 [("m", 0, "left"), ("n", 0, "right")] ⟨10, 1⟩) 4 ++
    serve (.acquireInstanceTransportArena ⟨"m", 0⟩ ⟨12, 1⟩) 5 ++
    serve (.acquireInstanceTransportArena ⟨"n", 0⟩ ⟨13, 1⟩) 5

theorem daemon_leases_pair :
    ∃ m log, (daemon Unit pairConfig).Reachable m ∧
      m.shared.broker.leases.lookup ⟨"m", 0⟩ = some ⟨0, "left", ⟨10, 10⟩⟩ ∧
      m.shared.broker.leases.lookup ⟨"n", 0⟩ = some ⟨0, "right", ⟨10, 10⟩⟩ ∧
      Registered pairConfig log m.shared.broker ∧
      (∃ publication, Published log 0 ⟨10, 10⟩ publication ∧ publication.instanceRank = ⟨"m", 0⟩ ∧ publication.handle = "left") ∧
      ∃ publication, Published log 0 ⟨10, 10⟩ publication ∧ publication.instanceRank = ⟨"n", 0⟩ ∧
        publication.handle = "right" := by
  obtain ⟨m, reached, holds⟩ := (idleDaemon_reached pairConfig).drive (Errand.next pairConfig) (Errand.agrees pairConfig)
    leaseArenas
    (fun m => m.shared.broker.leases.lookup ⟨"m", 0⟩ = some ⟨0, "left", ⟨10, 10⟩⟩ ∧
      m.shared.broker.leases.lookup ⟨"n", 0⟩ = some ⟨0, "right", ⟨10, 10⟩⟩)
    (by decide +kernel)
  obtain ⟨left, right⟩ := of_decide_eq_true holds
  obtain ⟨log, -, -, -, registered, -⟩ := daemon_leases pairConfig m m reached.reachable (.refl m)
  exact ⟨m, log, reached.reachable, left, right, registered, (registered.leased _ _ left).2, (registered.leased _ _ right).2⟩

end Leasing

end CrossPool.Control
