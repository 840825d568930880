import CrossPool.Control.Turnover

/-!
# Calls of the transport registry

What the control plane does with its `TransportBroker` is a trace of calls. Over any trace an AtnAgent
publishes an arena once and for one Instance rank, publications of one owner stay and end with its
quiescing, and a lease names an arena that was published for its rank.
-/

namespace CrossPool.Control

open CrossPool.Lib

/-! ## Calls -/

/-- The calls that change the broker. `acquire` is `publication` and then `acquire` of what it returned. -/
inductive BrokerCall where
  | installAtnagent (device : Nat) (owner : ProcUniqId)
  | publish (device : Nat) (owner : ProcUniqId) (publications : List TransportArenaPublication)
  | quiesce (device : Nat) (owner : ProcUniqId)
  | acquire (device : Nat) (owner : ProcUniqId) (instanceRank : InstanceRankId)
  | removeInstance (instanceRank : InstanceRankId)

/-- The device that serves an Instance rank. -/
def Config.deviceOf (config : Config) (instanceRank : InstanceRankId) : Nat :=
  config.atnDevices.getD instanceRank.rank 0

namespace BrokerCall

def run (broker : TransportBroker) : BrokerCall → Except DaemonError TransportBroker
  | installAtnagent device owner => .ok (broker.installAtnagent device owner)
  | publish device owner publications => broker.publish device owner publications
  | quiesce device owner => broker.quiesce device owner
  | acquire device owner instanceRank => do
    let publication ← broker.publication device instanceRank owner
    broker.acquire instanceRank ⟨device, publication.handle, owner⟩
  | removeInstance instanceRank => .ok (broker.removeInstance instanceRank)

/-- What the control plane has checked before the call. -/
def Validated (config : Config) : BrokerCall → Prop
  | publish device _ publications => (publications.map (·.handle)).Nodup ∧
      ∀ publication ∈ publications, config.deviceOf publication.instanceRank = device
  | acquire device _ instanceRank => config.deviceOf instanceRank = device
  | _ => True

end BrokerCall

/-- The registry as a transition system. -/
def registry (config : Config) : System TransportBroker BrokerCall where
  init broker := broker = ⟨∅, ∅⟩
  step broker call after := call.Validated config ∧ call.run broker = .ok after

/-! ## What each call does -/

section Calls

variable {broker after : TransportBroker} {device other : Nat} {owner : ProcUniqId} {rank : InstanceRankId}
  {state : AtnAgentTransportState} {publication : TransportArenaPublication}

theorem requireOwner_ok (required : broker.requireOwner device owner = .ok state) :
    broker.atnagents.lookup device = some state ∧ state.owner = owner := by
  unfold TransportBroker.requireOwner at required
  split at required
  · rename_i current found
    split at required
    · rename_i same
      cases required
      exact ⟨found, same⟩
    · cases required
  · cases required

/-- An installed owner keeps its state or starts with an empty one. -/
theorem installAtnagent_lookup (broker : TransportBroker) (device : Nat) (owner : ProcUniqId) :
    (∀ other, other ≠ device →
        (broker.installAtnagent device owner).atnagents.lookup other = broker.atnagents.lookup other) ∧
      ((∃ current, broker.atnagents.lookup device = some current ∧ current.owner = owner ∧
          broker.installAtnagent device owner = broker) ∨
        (∀ current, broker.atnagents.lookup device = some current → current.owner ≠ owner) ∧
          (broker.installAtnagent device owner).atnagents.lookup device = some ⟨owner, ∅, true⟩) := by
  unfold TransportBroker.installAtnagent
  split
  · rename_i current found
    split
    · rename_i same
      exact ⟨fun _ _ => rfl, .inl ⟨current, found, same, rfl⟩⟩
    · rename_i differs
      refine ⟨fun other apart => AList.lookup_insert_ne apart, .inr ⟨?_, AList.lookup_insert _⟩⟩
      intro current' found'
      rw [found, Option.some.injEq] at found'
      exact found' ▸ differs
  · rename_i none
    refine ⟨fun other apart => AList.lookup_insert_ne apart, .inr ⟨?_, AList.lookup_insert _⟩⟩
    intro current found
    rw [none] at found
    cases found

theorem publishConflict_eq_none (accepted : TransportBroker.publishConflict state publication = none) :
    (∀ existing, state.publications.lookup publication.instanceRank = some existing → existing = publication) ∧
      ∀ rank known, state.publications.lookup rank = some known → known.handle = publication.handle →
        rank = publication.instanceRank := by
  have unique (fresh : ¬(state.publications.entries.any fun entry =>
      entry.2.handle = publication.handle ∧ entry.1 ≠ publication.instanceRank)) (rank : InstanceRankId)
      (known : TransportArenaPublication) (found : state.publications.lookup rank = some known)
      (same : known.handle = publication.handle) : rank = publication.instanceRank := by
    by_contra apart
    apply fresh
    rw [List.any_eq_true]
    exact ⟨⟨rank, known⟩, AList.mem_lookup_iff.mp found, by simp [same, apart]⟩
  unfold TransportBroker.publishConflict at accepted
  split at accepted
  · rename_i existing found
    split at accepted
    · cases accepted
    · rename_i same
      split at accepted
      · cases accepted
      · rename_i fresh
        refine ⟨?_, unique fresh⟩
        intro existing' found'
        rw [found, Option.some.injEq] at found'
        exact found' ▸ not_not.mp same
  · rename_i none
    split at accepted
    · cases accepted
    · rename_i fresh
      refine ⟨?_, unique fresh⟩
      intro existing found
      rw [none] at found
      cases found

/-- The table after a whole list was written to it. -/
abbrev entered (table : AList fun _ : InstanceRankId => TransportArenaPublication)
    (publications : List TransportArenaPublication) : AList fun _ : InstanceRankId => TransportArenaPublication :=
  publications.foldl (fun table publication => table.insert publication.instanceRank publication) table

theorem entered_lookup {table : AList fun _ : InstanceRankId => TransportArenaPublication}
    {publications : List TransportArenaPublication} (found : (entered table publications).lookup rank = some publication) :
    publication ∈ publications ∧ publication.instanceRank = rank ∨ table.lookup rank = some publication := by
  induction publications generalizing table with
  | nil => exact .inr found
  | cons first rest ih =>
    rcases ih found with ⟨member, same⟩ | earlier
    · exact .inl ⟨List.mem_cons_of_mem _ member, same⟩
    · by_cases here : rank = first.instanceRank
      · subst here
        rw [AList.lookup_insert] at earlier
        cases earlier
        exact .inl ⟨List.mem_cons_self, rfl⟩
      · rw [AList.lookup_insert_ne here] at earlier
        exact .inr earlier

/-- What was published stays if it is only published again. -/
theorem entered_kept {table : AList fun _ : InstanceRankId => TransportArenaPublication}
    {publications : List TransportArenaPublication} (found : table.lookup rank = some publication)
    (again : ∀ other ∈ publications, other.instanceRank = rank → other = publication) :
    (entered table publications).lookup rank = some publication := by
  induction publications generalizing table with
  | nil => exact found
  | cons first rest ih =>
    apply ih
    · by_cases here : rank = first.instanceRank
      · subst here
        rw [AList.lookup_insert, again first List.mem_cons_self rfl]
      · rw [AList.lookup_insert_ne here]
        exact found
    · intro other member
      exact again other (List.mem_cons_of_mem _ member)

theorem publish_ok {publications : List TransportArenaPublication}
    (returned : broker.publish device owner publications = .ok after) :
    ∃ state, broker.atnagents.lookup device = some state ∧ state.owner = owner ∧ state.acceptingLeases = true ∧
      (∀ publication ∈ publications, TransportBroker.publishConflict state publication = none) ∧
      after =
        { broker with
          atnagents := broker.atnagents.insert device
            ({ state with publications := entered state.publications publications } : AtnAgentTransportState) } := by
  unfold TransportBroker.publish at returned
  split at returned
  · cases returned
  · obtain ⟨-, -, returned⟩ := bind_eq_ok.mp returned
    obtain ⟨state, required, returned⟩ := bind_eq_ok.mp returned
    obtain ⟨found, same⟩ := requireOwner_ok required
    dsimp only at returned
    cases accepting : state.acceptingLeases with
    | false =>
      rw [accepting, if_pos rfl] at returned
      obtain ⟨_, thrown, _⟩ := bind_eq_ok.mp returned
      cases thrown
    | true =>
      rw [accepting, if_neg (by decide)] at returned
      split at returned
      · cases returned
      · rename_i accepted
        cases returned
        exact ⟨state, found, same, accepting, List.findSome?_eq_none_iff.mp accepted, by rw [accepting]⟩

theorem quiesce_ok (returned : broker.quiesce device owner = .ok after) :
    ∃ state, broker.atnagents.lookup device = some state ∧ state.owner = owner ∧
      after = { broker with atnagents := broker.atnagents.insert device { state with acceptingLeases := false } } := by
  obtain ⟨state, required, returned⟩ := bind_eq_ok.mp returned
  obtain ⟨found, same⟩ := requireOwner_ok required
  cases returned
  exact ⟨state, found, same, rfl⟩

theorem publication_ok (returned : broker.publication device rank owner = .ok publication) :
    ∃ state, broker.atnagents.lookup device = some state ∧ state.owner = owner ∧ state.acceptingLeases = true ∧
      state.publications.lookup rank = some publication := by
  unfold TransportBroker.publication at returned
  obtain ⟨state, required, returned⟩ := bind_eq_ok.mp returned
  obtain ⟨found, same⟩ := requireOwner_ok required
  dsimp only at returned
  cases accepting : state.acceptingLeases with
  | false =>
    rw [accepting, if_pos rfl] at returned
    obtain ⟨_, thrown, _⟩ := bind_eq_ok.mp returned
    cases thrown
  | true =>
    rw [accepting, if_neg (by decide)] at returned
    split at returned
    · rename_i known
      cases returned
      exact ⟨state, found, same, accepting, known⟩
    · cases returned

/-- A lease is the one that the rank has, or the rank had none. -/
theorem acquire_ok {lease : TransportArenaLease} (returned : broker.acquire rank lease = .ok after) :
    broker.leases.lookup rank = some lease ∧ after = broker ∨
      broker.leases.lookup rank = none ∧ after = { broker with leases := broker.leases.insert rank lease } := by
  unfold TransportBroker.acquire at returned
  split at returned
  · rename_i existing found
    split at returned
    · rename_i same
      cases returned
      exact .inl ⟨same ▸ found, rfl⟩
    · cases returned
  · rename_i none
    cases returned
    exact .inr ⟨none, rfl⟩

end Calls

/-! ## What the registry holds -/

/-- The owner published the arena on the device. -/
def Published (log : List BrokerCall) (device : Nat) (owner : ProcUniqId) (publication : TransportArenaPublication) : Prop :=
  ∃ publications, .publish device owner publications ∈ log ∧ publication ∈ publications

/-- No other owner was installed on the device. -/
def Sole (log : List BrokerCall) (device : Nat) (owner : ProcUniqId) : Prop :=
  ∀ other, .installAtnagent device other ∈ log → other = owner

/-- What a trace from the empty registry leaves. -/
structure Registered (config : Config) (log : List BrokerCall) (broker : TransportBroker) : Prop where
  published : ∀ device state, broker.atnagents.lookup device = some state →
    ∀ rank publication, state.publications.lookup rank = some publication →
      publication.instanceRank = rank ∧ config.deviceOf rank = device ∧ Published log device state.owner publication
  distinct : ∀ device state, broker.atnagents.lookup device = some state →
    ∀ rank rank' publication publication', state.publications.lookup rank = some publication →
      state.publications.lookup rank' = some publication' → publication.handle = publication'.handle → rank = rank'
  leased : ∀ rank lease, broker.leases.lookup rank = some lease → config.deviceOf rank = lease.device ∧
    ∃ publication, Published log lease.device lease.publisher publication ∧ publication.instanceRank = rank ∧
      publication.handle = lease.handle
  current : ∀ rank lease, broker.leases.lookup rank = some lease → Sole log lease.device lease.publisher →
    ∃ state publication, broker.atnagents.lookup lease.device = some state ∧ state.owner = lease.publisher ∧
      state.publications.lookup rank = some publication ∧ publication.handle = lease.handle

section Registered

variable {config : Config} {log : List BrokerCall} {broker after : TransportBroker} {call : BrokerCall}

theorem Published.snoc {device : Nat} {owner : ProcUniqId} {publication : TransportArenaPublication}
    (published : Published log device owner publication) (call : BrokerCall) :
    Published (log ++ [call]) device owner publication := by
  obtain ⟨publications, member, listed⟩ := published
  exact ⟨publications, List.mem_append_left _ member, listed⟩

theorem Sole.of_snoc {device : Nat} {owner : ProcUniqId} (sole : Sole (log ++ [call]) device owner) : Sole log device owner :=
  fun other member => sole other (List.mem_append_left _ member)

/-- States of single devices are replaced, the leases stay. -/
theorem Registered.replace (before : Registered config log broker) (call : BrokerCall) {device : Nat}
    {state : AtnAgentTransportState} (found : after.atnagents.lookup device = some state)
    (others : ∀ other, other ≠ device → after.atnagents.lookup other = broker.atnagents.lookup other)
    (leases : after.leases = broker.leases)
    (published : ∀ rank publication, state.publications.lookup rank = some publication → publication.instanceRank = rank ∧
      config.deviceOf rank = device ∧ Published (log ++ [call]) device state.owner publication)
    (distinct : ∀ rank rank' publication publication', state.publications.lookup rank = some publication →
      state.publications.lookup rank' = some publication' → publication.handle = publication'.handle → rank = rank')
    (grows : ∀ old, broker.atnagents.lookup device = some old → Sole (log ++ [call]) device old.owner →
      state.owner = old.owner ∧ ∀ rank publication, old.publications.lookup rank = some publication →
        state.publications.lookup rank = some publication) :
    Registered config (log ++ [call]) after where
  published := by
    intro other state' found' rank publication listed
    by_cases same : other = device
    · subst same
      rw [found] at found'
      cases found'
      exact published rank publication listed
    · rw [others other same] at found'
      obtain ⟨own, served, known⟩ := before.published other state' found' rank publication listed
      exact ⟨own, served, known.snoc call⟩
  distinct := by
    intro other state' found'
    by_cases same : other = device
    · subst same
      rw [found] at found'
      cases found'
      exact distinct
    · rw [others other same] at found'
      exact before.distinct other state' found'
  leased := by
    intro rank lease held
    rw [leases] at held
    obtain ⟨served, publication, known, own⟩ := before.leased rank lease held
    exact ⟨served, publication, known.snoc call, own⟩
  current := by
    intro rank lease held sole
    rw [leases] at held
    obtain ⟨old, publication, found', same, listed, handle⟩ := before.current rank lease held sole.of_snoc
    by_cases here : lease.device = device
    · subst here
      obtain ⟨owner, kept⟩ := grows old found' (same ▸ sole)
      exact ⟨state, publication, found, owner.trans same, kept rank publication listed, handle⟩
    · exact ⟨old, publication, (others _ here).trans found', same, listed, handle⟩

theorem Registered.empty (config : Config) : Registered config [] ⟨∅, ∅⟩ where
  published := by simp
  distinct := by simp
  leased := by simp
  current := by simp

theorem Registered.step (before : Registered config log broker) (step : (registry config).step broker call after) :
    Registered config (log ++ [call]) after := by
  obtain ⟨validated, ran⟩ := step
  cases call with
  | installAtnagent device owner =>
    cases ran
    obtain ⟨others, ⟨current, found, -, same⟩ | ⟨differs, found⟩⟩ := installAtnagent_lookup broker device owner
    · rw [same]
      refine before.replace _ found (fun _ _ => rfl) rfl ?_ (before.distinct device current found) ?_
      · intro rank publication listed
        obtain ⟨own, served, known⟩ := before.published device current found rank publication listed
        exact ⟨own, served, known.snoc _⟩
      · intro old found' _
        rw [found] at found'
        cases found'
        exact ⟨rfl, fun _ _ listed => listed⟩
    · refine before.replace _ found others (installAtnagent_leases _ _ _) ?_ ?_ ?_
      · intro rank publication listed
        cases listed
      · intro rank rank' publication publication' listed
        cases listed
      · intro old found' sole
        have same := sole owner (List.mem_append_right _ List.mem_cons_self)
        exact absurd same.symm (differs old found')
  | publish device owner publications =>
    obtain ⟨state, found, rfl, -, accepted, rfl⟩ := publish_ok ran
    obtain ⟨handles, served⟩ := validated
    refine before.replace _ (AList.lookup_insert _) (fun _ differs => AList.lookup_insert_ne differs) rfl ?_ ?_ ?_
    · intro rank publication listed
      rcases entered_lookup listed with ⟨member, rfl⟩ | earlier
      · exact ⟨rfl, served publication member, publications, List.mem_append_right _ List.mem_cons_self, member⟩
      · obtain ⟨own, served, known⟩ := before.published device state found rank publication earlier
        exact ⟨own, served, known.snoc _⟩
    · intro rank rank' publication publication' listed listed' same
      rcases entered_lookup listed with ⟨member, rfl⟩ | earlier
      · rcases entered_lookup listed' with ⟨member', rfl⟩ | earlier'
        · rw [List.inj_on_of_nodup_map handles member member' same]
        · exact ((publishConflict_eq_none (accepted publication member)).2 rank' publication' earlier' same.symm).symm
      · rcases entered_lookup listed' with ⟨member', rfl⟩ | earlier'
        · exact (publishConflict_eq_none (accepted publication' member')).2 rank publication earlier same
        · exact before.distinct device state found rank rank' publication publication' earlier earlier' same
    · intro old found' _
      rw [found] at found'
      cases found'
      refine ⟨rfl, ?_⟩
      intro rank publication listed
      apply entered_kept listed
      intro other member own
      subst own
      exact ((publishConflict_eq_none (accepted other member)).1 publication listed).symm
  | quiesce device owner =>
    obtain ⟨state, found, rfl, rfl⟩ := quiesce_ok ran
    refine before.replace _ (AList.lookup_insert _) (fun _ differs => AList.lookup_insert_ne differs) rfl ?_ ?_ ?_
    · intro rank publication listed
      obtain ⟨own, served, known⟩ := before.published device state found rank publication listed
      exact ⟨own, served, known.snoc _⟩
    · exact before.distinct device state found
    · intro old found' _
      rw [found] at found'
      cases found'
      exact ⟨rfl, fun _ _ listed => listed⟩
  | acquire device owner rank =>
    obtain ⟨publication, returned, acquired⟩ := bind_eq_ok.mp ran
    obtain ⟨state, found, rfl, -, listed⟩ := publication_ok returned
    have known := before.published device state found rank publication listed
    have lasts : Registered config (log ++ [.acquire device state.owner rank]) broker := by
      refine before.replace _ found (fun _ _ => rfl) rfl ?_ (before.distinct device state found) ?_
      · intro rank' publication' listed'
        obtain ⟨own, served, known⟩ := before.published device state found rank' publication' listed'
        exact ⟨own, served, known.snoc _⟩
      · intro old found' _
        rw [found] at found'
        cases found'
        exact ⟨rfl, fun _ _ listed => listed⟩
    rcases acquire_ok acquired with ⟨-, rfl⟩ | ⟨-, rfl⟩
    · exact lasts
    · refine ⟨lasts.published, lasts.distinct, ?_, ?_⟩
      · intro rank' lease held
        by_cases same : rank' = rank
        · subst same
          rw [AList.lookup_insert] at held
          cases held
          exact ⟨validated, publication, known.2.2.snoc _, known.1, rfl⟩
        · rw [AList.lookup_insert_ne same] at held
          exact lasts.leased rank' lease held
      · intro rank' lease held sole
        by_cases same : rank' = rank
        · subst same
          rw [AList.lookup_insert] at held
          cases held
          exact ⟨state, publication, found, rfl, listed, rfl⟩
        · rw [AList.lookup_insert_ne same] at held
          exact lasts.current rank' lease held sole
  | removeInstance rank =>
    cases ran
    refine ⟨?_, before.distinct, ?_, ?_⟩
    · intro device state found rank' publication listed
      obtain ⟨own, served, known⟩ := before.published device state found rank' publication listed
      exact ⟨own, served, known.snoc _⟩
    · intro rank' lease held
      obtain ⟨served, publication, known, own⟩ := before.leased rank' lease (removeInstance_leases _ _ _ _ held)
      exact ⟨served, publication, known.snoc _, own⟩
    · intro rank' lease held sole
      exact before.current rank' lease (removeInstance_leases _ _ _ _ held) sole.of_snoc

/-- No two ranks lease one arena of an owner that was the only one of its device. -/
theorem Registered.exclusive (registered : Registered config log broker) {rank rank' : InstanceRankId}
    {lease lease' : TransportArenaLease} (held : broker.leases.lookup rank = some lease)
    (held' : broker.leases.lookup rank' = some lease') (device : lease.device = lease'.device)
    (publisher : lease.publisher = lease'.publisher) (handle : lease.handle = lease'.handle)
    (sole : Sole log lease.device lease.publisher) : rank = rank' := by
  obtain ⟨state, publication, found, -, listed, own⟩ := registered.current rank lease held sole
  obtain ⟨state', publication', found', -, listed', own'⟩ :=
    registered.current rank' lease' held' (device ▸ publisher ▸ sole)
  rw [← device, found] at found'
  cases found'
  exact registered.distinct _ state found rank rank' publication publication' listed listed'
    (own.trans (handle.trans own'.symm))

end Registered

/-! ## What stays -/

/-- What a trace keeps of an earlier registry: publications of an owner that is not replaced, all that belongs to a
quiescing one, and leases of ranks that are not removed. -/
structure Continues (before : TransportBroker) (log : List BrokerCall) (after : TransportBroker) : Prop where
  kept : ∀ device state, before.atnagents.lookup device = some state → Sole log device state.owner →
    ∃ state', after.atnagents.lookup device = some state' ∧ state'.owner = state.owner ∧
      (∀ rank publication, state.publications.lookup rank = some publication →
        state'.publications.lookup rank = some publication) ∧
      (state.acceptingLeases = false → state'.acceptingLeases = false ∧
        (∀ rank, state'.publications.lookup rank = state.publications.lookup rank) ∧
        ∀ rank lease, after.leases.lookup rank = some lease → lease.device = device → lease.publisher = state.owner →
          before.leases.lookup rank = some lease)
  held : ∀ rank lease, before.leases.lookup rank = some lease → .removeInstance rank ∉ log →
    after.leases.lookup rank = some lease

section Continues

variable {config : Config} {log log' : List BrokerCall} {broker middle after : TransportBroker} {call : BrokerCall}

theorem Continues.same (broker : TransportBroker) (log : List BrokerCall) : Continues broker log broker where
  kept := by
    intro device state found _
    refine ⟨state, found, rfl, fun _ _ listed => listed, ?_⟩
    intro quiesced
    exact ⟨quiesced, fun _ => rfl, fun _ _ held _ _ => held⟩
  held := fun _ _ held _ => held

theorem Continues.trans (first : Continues broker log middle) (second : Continues middle log' after) :
    Continues broker (log ++ log') after where
  kept := by
    intro device state found sole
    obtain ⟨state', found', owner, grows, quiesces⟩ :=
      first.kept device state found fun other member => sole other (List.mem_append_left _ member)
    have sole' : Sole log' device state'.owner := by
      intro other member
      rw [owner]
      exact sole other (List.mem_append_right _ member)
    obtain ⟨state'', found'', owner', grows', quiesces'⟩ := second.kept device state' found' sole'
    refine ⟨state'', found'', owner'.trans owner, ?_, ?_⟩
    · intro rank publication listed
      exact grows' rank publication (grows rank publication listed)
    · intro quiesced
      obtain ⟨closed, same, leases⟩ := quiesces quiesced
      obtain ⟨closed', same', leases'⟩ := quiesces' closed
      refine ⟨closed', fun rank => (same' rank).trans (same rank), ?_⟩
      intro rank lease held here published
      exact leases rank lease (leases' rank lease held here (published.trans owner.symm)) here published
  held := by
    intro rank lease held kept
    rw [List.mem_append, not_or] at kept
    exact second.held rank lease (first.held rank lease held kept.1) kept.2

/-- One device's state changes, and no lease does. -/
theorem Continues.replace (call : BrokerCall) {device : Nat} {state : AtnAgentTransportState}
    (found : after.atnagents.lookup device = some state)
    (others : ∀ other, other ≠ device → after.atnagents.lookup other = broker.atnagents.lookup other)
    (leases : after.leases = broker.leases)
    (grows : ∀ old, broker.atnagents.lookup device = some old → Sole [call] device old.owner → state.owner = old.owner ∧
      (∀ rank publication, old.publications.lookup rank = some publication →
        state.publications.lookup rank = some publication) ∧
      (old.acceptingLeases = false → state.acceptingLeases = false ∧
        ∀ rank, state.publications.lookup rank = old.publications.lookup rank)) :
    Continues broker [call] after where
  kept := by
    intro other old found' sole
    by_cases same : other = device
    · subst same
      obtain ⟨owner, kept, quiesces⟩ := grows old found' sole
      refine ⟨state, found, owner, kept, fun quiesced => ⟨(quiesces quiesced).1, (quiesces quiesced).2, ?_⟩⟩
      intro rank lease held _ _
      rwa [leases] at held
    · refine ⟨old, (others other same).trans found', rfl, fun _ _ listed => listed, ?_⟩
      intro quiesced
      refine ⟨quiesced, fun _ => rfl, ?_⟩
      intro rank lease held _ _
      rwa [leases] at held
  held := by
    intro rank lease held _
    rwa [leases]

theorem Continues.of_step (step : (registry config).step broker call after) : Continues broker [call] after := by
  obtain ⟨validated, ran⟩ := step
  cases call with
  | installAtnagent device owner =>
    cases ran
    obtain ⟨others, ⟨current, found, -, same⟩ | ⟨differs, found⟩⟩ := installAtnagent_lookup broker device owner
    · rw [same]
      exact .same _ _
    · apply Continues.replace _ found others (installAtnagent_leases _ _ _)
      intro old found' sole
      exact absurd (sole owner List.mem_cons_self).symm (differs old found')
  | publish device owner publications =>
    obtain ⟨state, found, rfl, accepting, accepted, rfl⟩ := publish_ok ran
    refine Continues.replace _ (AList.lookup_insert _) (fun _ differs => AList.lookup_insert_ne differs) ?_ ?_
    · rfl
    intro old found' _
    rw [found] at found'
    cases found'
    refine ⟨rfl, ?_, ?_⟩
    · intro rank publication listed
      apply entered_kept listed
      intro other member own
      subst own
      exact ((publishConflict_eq_none (accepted other member)).1 publication listed).symm
    · intro quiesced
      rw [accepting] at quiesced
      cases quiesced
  | quiesce device owner =>
    obtain ⟨state, found, rfl, rfl⟩ := quiesce_ok ran
    refine Continues.replace _ (AList.lookup_insert _) (fun _ differs => AList.lookup_insert_ne differs) ?_ ?_
    · rfl
    intro old found' _
    rw [found] at found'
    cases found'
    exact ⟨rfl, fun _ _ listed => listed, fun _ => ⟨rfl, fun _ => rfl⟩⟩
  | acquire device owner rank =>
    obtain ⟨publication, returned, acquired⟩ := bind_eq_ok.mp ran
    obtain ⟨state, found, rfl, accepting, listed⟩ := publication_ok returned
    rcases acquire_ok acquired with ⟨-, rfl⟩ | ⟨none, rfl⟩
    · exact .same _ _
    · refine ⟨?_, ?_⟩
      · intro other old found' _
        refine ⟨old, found', rfl, fun _ _ listed => listed, fun quiesced => ⟨quiesced, fun _ => rfl, ?_⟩⟩
        intro rank' lease held here published
        by_cases same : rank' = rank
        · subst same
          rw [AList.lookup_insert] at held
          cases held
          subst here
          rw [found] at found'
          cases found'
          rw [accepting] at quiesced
          cases quiesced
        · rwa [AList.lookup_insert_ne same] at held
      · intro rank' lease held _
        have apart : rank' ≠ rank := by
          rintro rfl
          rw [none] at held
          cases held
        rwa [AList.lookup_insert_ne apart]
  | removeInstance rank =>
    cases ran
    refine ⟨?_, ?_⟩
    · intro device state found _
      refine ⟨state, found, rfl, fun _ _ listed => listed, fun quiesced => ⟨quiesced, fun _ => rfl, ?_⟩⟩
      intro rank' lease held _ _
      exact removeInstance_leases _ _ _ _ held
    · intro rank' lease held kept
      have apart : rank' ≠ rank := by
        rintro rfl
        exact kept List.mem_cons_self
      change (broker.leases.erase rank).lookup rank' = some lease
      rwa [AList.lookup_erase_ne apart]

end Continues

/-! ## Traces -/

section Traces

variable {config : Config} {log : List BrokerCall} {broker after : TransportBroker}

theorem registered_of_trace (trace : (registry config).Trace ⟨∅, ∅⟩ log broker) : Registered config log broker := by
  induction trace with
  | nil => exact .empty config
  | snoc _ step ih => exact ih.step step

theorem continues_of_trace (trace : (registry config).Trace broker log after) : Continues broker log after := by
  induction trace with
  | nil => exact .same _ _
  | snoc _ step ih => exact ih.trans (.of_step step)

end Traces

end CrossPool.Control
