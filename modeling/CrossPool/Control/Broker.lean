import CrossPool.Control.Registry

/-!
# The transport broker call by call

The methods of the broker as they run, each check in its place and each write where the method makes it;
what was written before a raise would stay. Whatever the control plane calls, raising calls among it, the broker is
the registry of the calls that returned.
-/

namespace CrossPool.Control

open CrossPool.Lib

namespace Broker

/-! ## Methods -/

/-- A method of `TransportBroker`. -/
abbrev Method (α : Type) :=
  EStateM DaemonError TransportBroker α

def requireOwner (device : Nat) (owner : ProcUniqId) : Method AtnAgentTransportState := do
  match (← get).atnagents.lookup device with
  | none => throw ⟨.notReady, "atnagent registration changed during transport operation"⟩
  | some state =>
    if state.owner = owner then pure state
    else throw ⟨.notReady, "atnagent registration changed during transport operation"⟩

def writeState (device : Nat) (state : AtnAgentTransportState) : Method Unit :=
  modify fun broker => { broker with atnagents := broker.atnagents.insert device state }

def installAtnagent (device : Nat) (owner : ProcUniqId) : Method Unit := do
  match (← get).atnagents.lookup device with
  | none => writeState device ⟨owner, ∅, true⟩
  | some current => if current.owner = owner then pure () else writeState device ⟨owner, ∅, true⟩

/-- The dictionary `by_handle`; entries are newest first. -/
def byHandle (state : AtnAgentTransportState) : AList fun _ : String => InstanceRankId :=
  state.publications.entries.foldr (fun entry table => table.insert entry.2.handle entry.1) ∅

/-- The checks of one publication. -/
def checkPublication (state : AtnAgentTransportState) (publication : TransportArenaPublication) : Method Unit := do
  if (state.publications.lookup publication.instanceRank).any (· ≠ publication) then
    throw ⟨.conflict, "published transport arena cannot be replaced in place"⟩
  if ((byHandle state).lookup publication.handle).any (· ≠ publication.instanceRank) then
    throw ⟨.conflict, "atnagent transport arenas contain duplicate arena handle"⟩

def publish (device : Nat) (owner : ProcUniqId) (publications : List TransportArenaPublication) : Method Unit := do
  if publications = [] then throw ⟨.conflict, "atnagent transport arena upsert must not be empty"⟩
  let state ← requireOwner device owner
  if state.acceptingLeases = false then throw ⟨.notReady, "atnagent transport leases are quiescing"⟩
  publications.forM (checkPublication state)
  writeState device { state with publications := entered state.publications publications }

def quiesce (device : Nat) (owner : ProcUniqId) : Method Unit := do
  let state ← requireOwner device owner
  writeState device { state with acceptingLeases := false }

def publication (device : Nat) (instanceRank : InstanceRankId) (owner : ProcUniqId) : Method TransportArenaPublication := do
  let state ← requireOwner device owner
  if state.acceptingLeases = false then
    throw ⟨.notReady, "local attention atnagent transport leases are quiescing"⟩
  match state.publications.lookup instanceRank with
  | none => throw ⟨.notReady, "local attention atnagent has no transport arena handle for instance rank"⟩
  | some publication => pure publication

def acquire (instanceRank : InstanceRankId) (lease : TransportArenaLease) : Method Unit := do
  match (← get).leases.lookup instanceRank with
  | some existing =>
    if existing = lease then pure ()
    else throw ⟨.conflict, "instance rank already holds different transport arena handle"⟩
  | none => modify fun broker => { broker with leases := broker.leases.insert instanceRank lease }

def removeInstance (instanceRank : InstanceRankId) : Method (Option TransportArenaLease) := do
  let lease := (← get).leases.lookup instanceRank
  modify fun broker => { broker with leases := broker.leases.erase instanceRank }
  return lease

/-- A call as it runs. -/
def perform : BrokerCall → Method Unit
  | .installAtnagent device owner => installAtnagent device owner
  | .publish device owner publications => publish device owner publications
  | .quiesce device owner => quiesce device owner
  | .acquire device owner instanceRank => do
    let publication ← publication device instanceRank owner
    acquire instanceRank ⟨device, publication.handle, owner⟩
  | .removeInstance instanceRank => do
    let _ ← removeInstance instanceRank

/-- What a call raises, if it does, and the broker that it leaves. -/
def ended {α : Type} : EStateM.Result DaemonError TransportBroker α → Option DaemonError × TransportBroker
  | .ok _ broker => (none, broker)
  | .error error broker => (some error, broker)

/-- All calls of the control plane, each with what it raises. -/
def calls (config : Config) : System TransportBroker (BrokerCall × Option DaemonError) where
  init broker := broker = ⟨∅, ∅⟩
  step broker call after := call.1.Validated config ∧ ended (perform call.1 broker) = (call.2, after)

/-- The calls that returned. -/
def returned (log : List (BrokerCall × Option DaemonError)) : List BrokerCall :=
  (log.filter (·.2.isNone)).map (·.1)

/-! ## A raise leaves the broker as it was -/

section Methods

variable {broker after : TransportBroker} {device : Nat} {owner : ProcUniqId} {rank : InstanceRankId}
  {state : AtnAgentTransportState} {publications : List TransportArenaPublication}

/-- No handle is published twice in the state of a device. -/
def Distinct (broker : TransportBroker) : Prop :=
  ∀ device state, broker.atnagents.lookup device = some state → ∀ rank rank' publication publication',
    state.publications.lookup rank = some publication → state.publications.lookup rank' = some publication' →
      publication.handle = publication'.handle → rank = rank'

/-- Handles of entries and their ranks. -/
abbrev handles (entries : List (Sigma fun _ : InstanceRankId => TransportArenaPublication)) :
    AList fun _ : String => InstanceRankId :=
  entries.foldr (fun entry table => table.insert entry.2.handle entry.1) ∅

theorem handles_lookup {entries : List (Sigma fun _ : InstanceRankId => TransportArenaPublication)} {handle : String}
    (found : (handles entries).lookup handle = some rank) : ∃ entry ∈ entries, entry.2.handle = handle ∧ entry.1 = rank := by
  induction entries with
  | nil => cases found
  | cons entry rest ih =>
    rw [handles, List.foldr_cons] at found
    by_cases here : handle = entry.2.handle
    · subst here
      rw [AList.lookup_insert] at found
      exact ⟨entry, List.mem_cons_self, rfl, Option.some.inj found⟩
    · rw [AList.lookup_insert_ne here] at found
      obtain ⟨entry', member, same⟩ := ih found
      exact ⟨entry', List.mem_cons_of_mem _ member, same⟩

theorem handles_of_mem {entries : List (Sigma fun _ : InstanceRankId => TransportArenaPublication)}
    {entry : Sigma fun _ : InstanceRankId => TransportArenaPublication} (member : entry ∈ entries) :
    ∃ rank, (handles entries).lookup entry.2.handle = some rank := by
  induction entries with
  | nil => cases member
  | cons first rest ih =>
    rw [handles, List.foldr_cons]
    by_cases here : entry.2.handle = first.2.handle
    · exact ⟨first.1, by rw [here, AList.lookup_insert]⟩
    · rw [AList.lookup_insert_ne here]
      rcases List.mem_cons.mp member with rfl | later
      · exact absurd rfl here
      · exact ih later

/-- The dictionary finds another rank just if the state has one with the handle. -/
theorem byHandle_any
    (distinct : ∀ rank rank' publication publication', state.publications.lookup rank = some publication →
      state.publications.lookup rank' = some publication' → publication.handle = publication'.handle → rank = rank')
    (publication : TransportArenaPublication) :
    ((byHandle state).lookup publication.handle).any (· ≠ publication.instanceRank) =
      state.publications.entries.any fun entry => entry.2.handle = publication.handle ∧ entry.1 ≠ publication.instanceRank := by
  rw [Bool.eq_iff_iff, List.any_eq_true, Option.any_eq_true]
  simp only [decide_eq_true_eq]
  constructor
  · rintro ⟨rank, found, other⟩
    obtain ⟨entry, member, same, rfl⟩ := handles_lookup found
    exact ⟨entry, member, same, other⟩
  · rintro ⟨entry, member, same, other⟩
    obtain ⟨rank, found⟩ := handles_of_mem member
    obtain ⟨entry', member', same', rfl⟩ := handles_lookup found
    have ranks := distinct entry'.1 entry.1 entry'.2 entry.2 (AList.mem_lookup_iff.mpr member')
      (AList.mem_lookup_iff.mpr member) same'
    exact ⟨entry'.1, same ▸ found, ranks ▸ other⟩

theorem wp_requireOwner {post : AtnAgentTransportState → TransportBroker → Prop} {raised : TransportBroker → Prop}
    (returns : ∀ state, broker.requireOwner device owner = .ok state → post state broker) (raises : raised broker) :
    wp (requireOwner device owner) post raised broker := by
  simp only [requireOwner, wp_bind, wp_get]
  unfold TransportBroker.requireOwner at returns
  cases found : broker.atnagents.lookup device with
  | none => exact raises
  | some state =>
    rw [found] at returns
    dsimp only at returns ⊢
    split
    · rename_i same
      rw [if_pos same] at returns
      exact returns state rfl
    · exact raises

theorem wp_checkPublications
    (distinct : ∀ rank rank' publication publication', state.publications.lookup rank = some publication →
      state.publications.lookup rank' = some publication' → publication.handle = publication'.handle → rank = rank') :
    wp (publications.forM (checkPublication state))
      (fun _ t => t = broker ∧ publications.findSome? (TransportBroker.publishConflict state) = none) (fun t => t = broker)
      broker := by
  have one (publication : TransportArenaPublication) :
      wp (checkPublication state publication)
        (fun _ t => t = broker ∧ TransportBroker.publishConflict state publication = none) (fun t => t = broker) broker := by
    unfold checkPublication TransportBroker.publishConflict
    rw [byHandle_any distinct publication]
    cases state.publications.lookup publication.instanceRank with
    | none =>
      simp only [Option.any_none]
      split
      · contradiction
      · split
        · rfl
        · exact ⟨rfl, rfl⟩
    | some existing =>
      simp only [Option.any_some, decide_eq_true_eq]
      split
      · rfl
      · split
        · rfl
        · exact ⟨rfl, rfl⟩
  induction publications with
  | nil => exact ⟨rfl, rfl⟩
  | cons publication rest ih =>
    change wp (checkPublication state publication >>= fun _ => rest.forM (checkPublication state)) _ _ broker
    rw [wp_bind]
    refine wp_mono (one publication) ?_ fun _ same => same
    rintro - t ⟨rfl, free⟩
    rw [List.findSome?_cons, free]
    exact ih

theorem wp_publish (distinct : Distinct broker) :
    wp (publish device owner publications) (fun _ t => broker.publish device owner publications = .ok t)
      (fun t => t = broker) broker := by
  unfold publish TransportBroker.publish
  split
  · rfl
  · simp only [wp_bind]
    refine wp_requireOwner (fun state required => ?_) rfl
    obtain ⟨found, -⟩ := requireOwner_ok required
    rw [required]
    split
    · rfl
    · rename_i accepting
      simp only [wp_bind]
      refine wp_mono (wp_checkPublications (distinct device state found)) ?_ fun _ same => same
      rintro - t ⟨rfl, free⟩
      change (if state.acceptingLeases = false then _ else _) = _
      rw [if_neg accepting, free]
      rfl

theorem wp_quiesce :
    wp (quiesce device owner) (fun _ t => broker.quiesce device owner = .ok t) (fun t => t = broker) broker := by
  unfold quiesce TransportBroker.quiesce
  rw [wp_bind]
  refine wp_requireOwner (fun state required => ?_) rfl
  rw [writeState, wp_modify, required]
  rfl

theorem wp_publication {post : TransportArenaPublication → TransportBroker → Prop} {raised : TransportBroker → Prop}
    (returns : ∀ publication, broker.publication device rank owner = .ok publication → post publication broker)
    (raises : raised broker) : wp (publication device rank owner) post raised broker := by
  unfold publication
  unfold TransportBroker.publication at returns
  rw [wp_bind]
  refine wp_requireOwner (fun state required => ?_) raises
  rw [required] at returns
  change ∀ publication, (if state.acceptingLeases = false then _ else _) = _ → _ at returns
  by_cases accepting : state.acceptingLeases = false
  · rw [if_pos accepting]
    exact raises
  · rw [if_neg accepting] at returns ⊢
    cases found : state.publications.lookup rank with
    | none => exact raises
    | some publication =>
      rw [found] at returns
      exact returns publication rfl

theorem wp_acquire {lease : TransportArenaLease} :
    wp (acquire rank lease) (fun _ t => broker.acquire rank lease = .ok t) (fun t => t = broker) broker := by
  unfold acquire TransportBroker.acquire
  rw [wp_bind, wp_get]
  cases broker.leases.lookup rank with
  | none => rfl
  | some existing =>
    dsimp only
    split
    · rfl
    · rfl

theorem wp_installAtnagent :
    wp (installAtnagent device owner) (fun _ t => t = broker.installAtnagent device owner) (fun _ => False) broker := by
  unfold installAtnagent TransportBroker.installAtnagent
  rw [wp_bind, wp_get]
  cases broker.atnagents.lookup device with
  | none => rfl
  | some current =>
    dsimp only
    split
    · rfl
    · rfl

/-- A call that returns leaves what the registry computes, and one that raises leaves the broker as it was. -/
theorem wp_perform (distinct : Distinct broker) (call : BrokerCall) :
    wp (perform call) (fun _ t => call.run broker = .ok t) (fun t => t = broker) broker := by
  cases call with
  | installAtnagent device owner =>
    refine wp_mono wp_installAtnagent ?_ fun _ never => never.elim
    rintro - t rfl
    rfl
  | publish device owner publications => exact wp_publish distinct
  | quiesce device owner => exact wp_quiesce
  | acquire device owner rank =>
    simp only [perform, BrokerCall.run, wp_bind]
    refine wp_publication (fun publication found => ?_) rfl
    rw [found]
    exact wp_acquire
  | removeInstance rank => rfl

end Methods

/-! ## Runs -/

section Runs

variable {config : Config} {s t u : TransportBroker} {log log' : List (BrokerCall × Option DaemonError)}

theorem ended_ok {α : Type} {result : EStateM.Result DaemonError TransportBroker α} {after : TransportBroker}
    (same : ended result = (none, after)) : ∃ a, result = .ok a after := by
  cases result with
  | ok a broker => exact ⟨a, by rw [(Prod.mk.inj same).2]⟩
  | error error broker => cases (Prod.mk.inj same).1

theorem returned_snoc (call : BrokerCall × Option DaemonError) :
    returned (log ++ [call]) = returned log ++ if call.2.isNone then [call.1] else [] := by
  rw [returned, List.filter_append, List.map_append, ← returned]
  congr 1
  rw [List.filter_singleton]
  cases call.2.isNone <;> rfl

/-- One call is a step of the registry if it returns, and nothing if it raises. -/
theorem step_calls (distinct : Distinct s) {call : BrokerCall × Option DaemonError} (step : (calls config).step s call t) :
    (call.2 = none ∧ (registry config).step s call.1 t) ∨ ((∃ error, call.2 = some error) ∧ t = s) := by
  obtain ⟨validated, is⟩ := step
  have spec := wp_perform distinct call.1
  unfold wp at spec
  cases ran : perform call.1 s with
  | ok a u =>
    rw [ran] at spec is
    obtain ⟨raised, rfl⟩ := Prod.mk.inj is
    exact .inl ⟨raised.symm, validated, spec⟩
  | error error u =>
    rw [ran] at spec is
    obtain ⟨raised, rfl⟩ := Prod.mk.inj is
    exact .inr ⟨⟨error, raised.symm⟩, spec⟩

/-- The calls that returned are a trace of the registry. -/
theorem trace_returned {entries : List BrokerCall} (before : (registry config).Trace ⟨∅, ∅⟩ entries s)
    (trace : (calls config).Trace s log t) : (registry config).Trace s (returned log) t := by
  induction trace with
  | nil => exact .nil
  | snoc _ step ih =>
    have distinct : Distinct _ := (registered_of_trace (before.append ih)).distinct
    rw [returned_snoc]
    rcases step_calls distinct step with ⟨none, taken⟩ | ⟨⟨error, some'⟩, rfl⟩
    · rw [none]
      exact .snoc ih taken
    · rw [some']
      simpa using ih

/-- The owner is installed again after another one was. -/
def Returns (entries : List BrokerCall) (device : Nat) (owner : ProcUniqId) : Prop :=
  ∃ early other late, entries = early ++ .installAtnagent device other :: late ∧ other ≠ owner ∧
    .installAtnagent device owner ∈ late

theorem Returns.snoc {entries : List BrokerCall} {device : Nat} {owner : ProcUniqId} (returns : Returns entries device owner)
    (call : BrokerCall) : Returns (entries ++ [call]) device owner := by
  obtain ⟨early, other, late, rfl, apart, again⟩ := returns
  exact ⟨early, other, late ++ [call], by simp, apart, List.mem_append_left _ again⟩

theorem returns_of_install {entries : List BrokerCall} {device : Nat} {owner other : ProcUniqId}
    (replaced : .installAtnagent device other ∈ entries) (apart : other ≠ owner) :
    Returns (entries ++ [.installAtnagent device owner]) device owner := by
  obtain ⟨early, late, rfl⟩ := List.append_of_mem replaced
  exact ⟨early, other, late ++ [.installAtnagent device owner], by simp, apart, List.mem_append_right _ List.mem_cons_self⟩

/-- What a quiescing owner leaves: its state as it is, or another owner in its place. -/
structure Quiesced (broker : TransportBroker) (device : Nat) (state : AtnAgentTransportState) (entries : List BrokerCall)
    (after : TransportBroker) : Prop where
  stays : after.atnagents.lookup device = some state ∨
    ∃ state' other, after.atnagents.lookup device = some state' ∧ state'.owner ≠ state.owner ∧ other ≠ state.owner ∧
      .installAtnagent device other ∈ entries
  leases : ∀ rank lease, after.leases.lookup rank = some lease → lease.device = device → lease.publisher = state.owner →
    broker.leases.lookup rank = some lease

section Quiesced

variable {device : Nat} {state : AtnAgentTransportState} {entries : List BrokerCall} {after : TransportBroker}

/-- Nobody else is accepting in its place. -/
theorem Quiesced.apart (quiesced : Quiesced s device state entries t) (closed : state.acceptingLeases = false)
    {current : AtnAgentTransportState} (found : t.atnagents.lookup device = some current)
    (accepting : current.acceptingLeases = true) : current.owner ≠ state.owner := by
  rcases quiesced.stays with same | ⟨state', other, found', apart, -⟩
  · obtain rfl := Option.some.inj (found.symm.trans same)
    rw [closed] at accepting
    cases accepting
  · obtain rfl := Option.some.inj (found.symm.trans found')
    exact apart

/-- Calls that write only one device's state, and keep its owner. -/
theorem Quiesced.write (quiesced : Quiesced s device state entries t) (call : BrokerCall) {device' : Nat}
    {current written : AtnAgentTransportState} (found : t.atnagents.lookup device' = some current)
    (after : u = { t with atnagents := t.atnagents.insert device' written }) (owner : written.owner = current.owner)
    (kept : current = state → written = state) : Quiesced s device state (entries ++ [call]) u := by
  subst after
  refine ⟨?_, quiesced.leases⟩
  by_cases here : device = device'
  · subst here
    rcases quiesced.stays with same | ⟨state', other, found', apart, other', installed⟩
    · obtain rfl := Option.some.inj (found.symm.trans same)
      exact .inl (by rw [AList.lookup_insert, kept rfl])
    · obtain rfl := Option.some.inj (found.symm.trans found')
      exact .inr ⟨written, other, AList.lookup_insert _, owner ▸ apart, other', List.mem_append_left _ installed⟩
  · rcases quiesced.stays with same | ⟨state', other, found', apart, other', installed⟩
    · exact .inl ((AList.lookup_insert_ne here).trans same)
    · exact .inr ⟨state', other, (AList.lookup_insert_ne here).trans found', apart, other', List.mem_append_left _ installed⟩

theorem Quiesced.step (quiesced : Quiesced s device state entries t) (closed : state.acceptingLeases = false)
    {call : BrokerCall} (never : ¬Returns (entries ++ [call]) device state.owner) (step : (registry config).step t call u) :
    Quiesced s device state (entries ++ [call]) u := by
  obtain ⟨-, ran⟩ := step
  cases call with
  | installAtnagent device' owner =>
    cases ran
    obtain ⟨others, ⟨current, found, -, same⟩ | ⟨differs, found⟩⟩ := installAtnagent_lookup t device' owner
    · rw [same]
      refine ⟨?_, quiesced.leases⟩
      rcases quiesced.stays with stays | ⟨state', other, found', apart, other', installed⟩
      · exact .inl stays
      · exact .inr ⟨state', other, found', apart, other', List.mem_append_left _ installed⟩
    · refine ⟨?_, ?_⟩
      · by_cases here : device = device'
        · subst here
          refine .inr ⟨_, owner, found, ?_, ?_, List.mem_append_right _ List.mem_cons_self⟩
          all_goals
            rintro rfl
            rcases quiesced.stays with stays | ⟨state', other, found', apart, other', installed⟩
            · exact differs _ stays rfl
            · exact never (returns_of_install installed other')
        · rcases quiesced.stays with stays | ⟨state', other, found', apart, other', installed⟩
          · exact .inl ((others device here).trans stays)
          · exact .inr ⟨state', other, (others device here).trans found', apart, other', List.mem_append_left _ installed⟩
      · rw [installAtnagent_leases]
        exact quiesced.leases
  | publish device' owner publications =>
    obtain ⟨current, found, rfl, accepting, -, rfl⟩ := publish_ok ran
    refine quiesced.write _ found rfl rfl ?_
    rintro rfl
    rw [closed] at accepting
    cases accepting
  | quiesce device' owner =>
    obtain ⟨current, found, rfl, rfl⟩ := quiesce_ok ran
    refine quiesced.write _ found rfl rfl ?_
    rintro rfl
    rw [← closed]
  | acquire device' owner rank =>
    obtain ⟨publication, returned, acquired⟩ := bind_eq_ok.mp ran
    obtain ⟨current, found, rfl, accepting, -⟩ := publication_ok returned
    have stays : t.atnagents.lookup device = some state ∨ ∃ state' other, t.atnagents.lookup device = some state' ∧
        state'.owner ≠ state.owner ∧ other ≠ state.owner ∧
          .installAtnagent device other ∈ entries ++ [.acquire device' current.owner rank] := by
      rcases quiesced.stays with stays | ⟨state', other, found', apart, other', installed⟩
      · exact .inl stays
      · exact .inr ⟨state', other, found', apart, other', List.mem_append_left _ installed⟩
    rcases acquire_ok acquired with ⟨-, rfl⟩ | ⟨-, rfl⟩
    · exact ⟨stays, quiesced.leases⟩
    · refine ⟨stays, ?_⟩
      intro rank' lease held here published
      by_cases same : rank' = rank
      · subst same
        rw [AList.lookup_insert] at held
        cases held
        subst here
        exact absurd published (quiesced.apart closed found accepting)
      · rw [AList.lookup_insert_ne same] at held
        exact quiesced.leases rank' lease held here published
  | removeInstance rank =>
    cases ran
    refine ⟨?_, ?_⟩
    · rcases quiesced.stays with stays | ⟨state', other, found', apart, other', installed⟩
      · exact .inl stays
      · exact .inr ⟨state', other, found', apart, other', List.mem_append_left _ installed⟩
    · intro rank' lease held here published
      exact quiesced.leases rank' lease (removeInstance_leases _ _ _ _ held) here published

/-- Over any calls after its quiescing, while the owner is not installed again after another one. -/
theorem quiesced_of_trace (trace : (registry config).Trace s entries t) (found : s.atnagents.lookup device = some state)
    (closed : state.acceptingLeases = false) (never : ¬Returns entries device state.owner) :
    Quiesced s device state entries t := by
  induction trace with
  | nil => exact ⟨.inl found, fun _ _ held _ _ => held⟩
  | snoc _ step ih => exact (ih fun returns => never (returns.snoc _)).step closed never step

end Quiesced

/-- What the broker keeps between two moments: no handle is published twice within the state of an owner, a raise
leaves all as it was, publications of an owner stay until another one is installed, a quiescing owner gets
no publication and no lease, and each lease names an arena that was published for its rank and stays
until the rank is removed. -/
structure Lawful (log log' : List (BrokerCall × Option DaemonError)) (s t : TransportBroker) : Prop where
  distinct : Distinct s ∧ Distinct t
  unchanged : ∀ call error u, ended (perform call s) = (some error, u) → u = s
  kept : ∀ device state, s.atnagents.lookup device = some state → Sole (returned log') device state.owner →
    ∃ state', t.atnagents.lookup device = some state' ∧ state'.owner = state.owner ∧
      ∀ rank publication, state.publications.lookup rank = some publication →
        state'.publications.lookup rank = some publication
  quiesced : ∀ device state, s.atnagents.lookup device = some state → state.acceptingLeases = false →
    ¬Returns (returned log') device state.owner →
      (∀ state', t.atnagents.lookup device = some state' → state'.owner = state.owner → state' = state) ∧
        ∀ rank lease, t.leases.lookup rank = some lease → lease.device = device → lease.publisher = state.owner →
          s.leases.lookup rank = some lease
  leased : ∀ rank lease, s.leases.lookup rank = some lease → ∃ publications publication,
    (.publish lease.device lease.publisher publications, none) ∈ log ∧ publication ∈ publications ∧
      publication.instanceRank = rank ∧ publication.handle = lease.handle
  held : ∀ rank lease, s.leases.lookup rank = some lease → .removeInstance rank ∉ returned log' →
    t.leases.lookup rank = some lease

theorem mem_returned {call : BrokerCall} (member : call ∈ returned log) : (call, none) ∈ log := by
  obtain ⟨⟨call', raised⟩, listed, rfl⟩ := List.mem_map.mp member
  obtain ⟨listed, none⟩ := List.mem_filter.mp listed
  obtain rfl := Option.isNone_iff_eq_none.mp none
  exact listed

/-- The broker's laws, over every sequence of the control plane's calls, raising ones among them. -/
theorem broker_lawful (trace : (calls config).Trace ⟨∅, ∅⟩ log s) (more : (calls config).Trace s log' t) :
    Lawful log log' s t := by
  have before := trace_returned .nil trace
  have after := trace_returned before more
  have registered := registered_of_trace before
  have continues := continues_of_trace after
  have distinct : Distinct s := registered.distinct
  refine ⟨⟨distinct, (registered_of_trace (before.append after)).distinct⟩, ?_, ?_, ?_, ?_, continues.held⟩
  · intro call error u ran
    have spec := wp_perform distinct call
    unfold wp at spec
    cases result : perform call s with
    | ok a u' =>
      rw [result] at ran
      cases (Prod.mk.inj ran).1
    | error error' u' =>
      rw [result] at spec ran
      exact (Prod.mk.inj ran).2.symm.trans spec
  · intro device state found sole
    obtain ⟨state', found', owner, kept, -⟩ := continues.kept device state found sole
    exact ⟨state', found', owner, kept⟩
  · intro device state found closed never
    have quiesced := quiesced_of_trace after found closed never
    refine ⟨?_, quiesced.leases⟩
    intro state' found' owner
    rcases quiesced.stays with stays | ⟨other, -, found'', apart, -⟩
    · exact Option.some.inj (found'.symm.trans stays)
    · obtain rfl := Option.some.inj (found'.symm.trans found'')
      exact absurd owner apart
  · intro rank lease held
    obtain ⟨-, publication, ⟨publications, called, listed⟩, own, handle⟩ := registered.leased rank lease held
    exact ⟨publications, publication, mem_returned called, listed, own, handle⟩

end Runs

/-- Two Instances on one attention device. -/
def twoInstances : Config where
  atnDevices := [0]
  ffnDevices := [1]
  instances := ["m", "n"]
  declaredTpSize _ := none
  atnDpSize _ := 1
  abiVersion := 1

def arena (modelId handle : String) : TransportArenaPublication :=
  ⟨⟨modelId, 0⟩, handle, ⟨1, 1, 0, 1, 0, 1⟩⟩

/-- Two arenas are published, and one is leased. -/
def leasedBroker : TransportBroker where
  atnagents := AList.insert 0 ⟨⟨10, 1⟩, entered ∅ [arena "m" "left", arena "n" "right"], true⟩ ∅
  leases := AList.insert ⟨"m", 0⟩ ⟨0, "left", ⟨10, 1⟩⟩ ∅

/-- An owner publishes two arenas, of which one is leased; replacing the other is refused,
and so is every publication after the quiescing. -/
theorem broker_lawful_quiescing :
    ∃ log log' s t, (calls twoInstances).Trace ⟨∅, ∅⟩ log s ∧ (calls twoInstances).Trace s log' t ∧ Lawful log log' s t ∧
      s.leases.lookup ⟨"m", 0⟩ = some ⟨0, "left", ⟨10, 1⟩⟩ ∧ (log'.map fun call => call.2.isSome) = [true, false, true] := by
  have installed : (calls twoInstances).Trace ⟨∅, ∅⟩ [(.installAtnagent 0 ⟨10, 1⟩, none)] _ := .single ⟨trivial, rfl⟩
  have published : (calls twoInstances).Trace _
      (_ ++ [(.publish 0 ⟨10, 1⟩ [arena "m" "left", arena "n" "right"], none)]) _ :=
    installed.snoc ⟨⟨by decide, by decide⟩, rfl⟩
  have acquired : (calls twoInstances).Trace _ (_ ++ [(.acquire 0 ⟨10, 1⟩ ⟨"m", 0⟩, none)]) leasedBroker :=
    published.snoc ⟨rfl, rfl⟩
  have refused : (calls twoInstances).Trace leasedBroker
      [(.publish 0 ⟨10, 1⟩ [arena "n" "left"], some ⟨.conflict, "published transport arena cannot be replaced in place"⟩)]
      leasedBroker := .single ⟨⟨by decide, by decide⟩, rfl⟩
  have quiesced : (calls twoInstances).Trace _ (_ ++ [(.quiesce 0 ⟨10, 1⟩, none)]) _ := refused.snoc ⟨trivial, rfl⟩
  have late : (calls twoInstances).Trace _ (_ ++ [(.publish 0 ⟨10, 1⟩ [arena "n" "right"], some _)]) _ :=
    quiesced.snoc ⟨⟨by decide, by decide⟩, rfl⟩
  exact ⟨_, _, _, _, acquired, late, broker_lawful acquired late, by decide, rfl⟩

end Broker

end CrossPool.Control
