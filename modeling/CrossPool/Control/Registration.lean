import CrossPool.Control.Generation

/-!
# The daemon's registration tables and transport registry

Registrations are Python objects: the daemon compares them by identity to see
whether a table changed while it was not holding the lock. `object` is that
identity, and what the daemon writes to a registration it writes to the table
entry of the same identity. Documents that the daemon only compares (profiles,
specifications, contracts, environments) are of an arbitrary type `Doc`.

`FabricMembership.capture` freezes one complete membership, and `TransportBroker`
keeps the published arenas and their leases.
-/

namespace CrossPool.Control

/-- Times are counted in milliseconds. -/
def second : Nat := 1000

/-- Heartbeats older than this make a registration stale. -/
def heartbeatWarningWatermark : Nat := 15 * second

/-- Cached readiness of one registration. -/
inductive ReadinessStatus where
  | online | stale | offline
  deriving DecidableEq, Repr

/-- Transport capacity and topology declared by one Instance rank. -/
structure TransportProfile where
  hiddenSize : Nat
  payloadRowCapacity : Nat
  atnTpRank : Nat
  atnTpSize : Nat
  atnDpRank : Nat
  atnDpSize : Nat
  deriving DecidableEq, Repr

/-- What an AtnAgent declares. -/
structure AtnAgentContract (Doc : Type) where
  calibrationEnvironment : Option Doc
  deriving DecidableEq

/-- What an FfnAgent declares. -/
structure FfnAgentContract (Doc : Type) where
  calibrationEnvironment : Option Doc
  deviceFreeMemoryBytes : Nat
  deviceTotalMemoryBytes : Nat
  executionContract : Doc
  deriving DecidableEq

/-- What an Instance rank declares. -/
structure InstanceContract (Doc : Type) where
  transport : TransportProfile
  ffnProfile : Doc
  contextStateProfile : Doc
  atnRuntimeHeadroomBytes : Nat
  deriving DecidableEq

/-- One live registration under key `κ` with declared contract `C`. -/
structure Registration (κ C : Type) where
  object : Nat
  key : κ
  proc : ProcUniqId
  abiVersion : Nat
  alive : Bool
  lastSeenAt : Nat
  contract : C
  deriving DecidableEq

namespace Registration

variable {κ C : Type}

/-- The cached liveness and heartbeat status. -/
def readinessStatus (registration : Registration κ C) (now : Nat) : ReadinessStatus :=
  if registration.alive = false then .offline
  else if heartbeatWarningWatermark < now - registration.lastSeenAt then .stale
  else .online

/-- Require cached process liveness and a fresh heartbeat. -/
def requireOnline (registration : Registration κ C) (now : Nat) (context : String) : Except DaemonError Unit :=
  match registration.readinessStatus now with
  | .online => .ok ()
  | .offline => .error ⟨.notReady, s!"{context} process is not live"⟩
  | .stale => .error ⟨.notReady, s!"{context} heartbeat is stale"⟩

/-- Validate ABI, pid and live process identity. -/
def validateProcessRef (registration : Registration κ C) (alive : ProcUniqId → Bool) (process : ProcessRef)
    (context : String) : Except DaemonError Unit :=
  if process.abiVersion ≠ registration.abiVersion then
    .error ⟨.conflict, s!"{context} ABI version does not match registration ABI"⟩
  else if process.pid ≠ registration.proc.pid then
    .error ⟨.conflict, s!"{context} pid does not match registration pid"⟩
  else if alive registration.proc = false then
    .error ⟨.conflict, s!"{context} process identity no longer matches registration"⟩
  else .ok ()

/-- Whether owner or declared contracts differ. -/
def conflictsWith [DecidableEq κ] [DecidableEq C] (self candidate : Registration κ C) : Bool :=
  self.proc ≠ candidate.proc ∨ self.key ≠ candidate.key ∨ self.abiVersion ≠ candidate.abiVersion ∨
    self.contract ≠ candidate.contract

end Registration

/-- A keyed registration table. -/
abbrev RegistrationTable (κ C : Type) := AList fun _ : κ => Registration κ C

namespace RegistrationTable

variable {κ C : Type} [DecidableEq κ]

/-- Every registration of the table. -/
def registrations (table : RegistrationTable κ C) : List (Registration κ C) :=
  table.entries.map (·.2)

/-- Whether `key` still holds the very object looked up before. -/
def holds (table : RegistrationTable κ C) (key : κ) (existing : Option (Registration κ C)) : Bool :=
  (table.lookup key).map (·.object) = existing.map (·.object)

/-- Write to the entry of `key`, if it is there. -/
def write (table : RegistrationTable κ C) (key : κ) (f : Registration κ C → Registration κ C) : RegistrationTable κ C :=
  match table.lookup key with
  | some registration => table.insert key (f registration)
  | none => table

/-- Commit a candidate after its prior owner's liveness was probed; returns
whether the process identity installed for the key changed. `existing` is the
very object of the table, so its fields are read there. -/
def installSnapshot [DecidableEq C] (table : RegistrationTable κ C) (registration : Registration κ C)
    (existing : Option (Registration κ C)) (existingAlive : Bool) :
    Except DaemonError (Bool × RegistrationTable κ C) :=
  if ¬ table.holds registration.key existing then
    .error ⟨.notReady, "registration changed during liveness validation"⟩
  else
    match table.lookup registration.key with
    | none => .ok (true, table.insert registration.key registration)
    | some old =>
      if existingAlive = false then
        .ok (old.proc ≠ registration.proc, table.insert registration.key registration)
      else if old.conflictsWith registration then
        .error ⟨.conflict, "registration is already owned by another live process"⟩
      else .ok (false, table.write registration.key fun entry => { entry with lastSeenAt := registration.lastSeenAt })

/-- Whether a candidate takes the place of a registration that the same process,
probed dead since, made with other contents. -/
def redeclares [DecidableEq C] (table : RegistrationTable κ C) (registration : Registration κ C) (existingAlive : Bool) :
    Bool :=
  match table.lookup registration.key with
  | none => false
  | some old => existingAlive = false ∧ old.proc = registration.proc ∧ old.contract ≠ registration.contract

/-- Commit a validated heartbeat if the registration is unchanged. -/
def commitHeartbeat (table : RegistrationTable κ C) (key : κ) (registration : Registration κ C) (now : Nat) :
    Except DaemonError (RegistrationTable κ C) :=
  if ¬ table.holds key (some registration) then .error ⟨.notReady, "registration changed during heartbeat"⟩
  else .ok (table.write key fun entry => { entry with lastSeenAt := now })

/-- Remove a validated owner if the registration is unchanged. -/
def removeSnapshot (table : RegistrationTable κ C) (key : κ) (registration : Registration κ C) :
    Except DaemonError (RegistrationTable κ C) :=
  if ¬ table.holds key (some registration) then .error ⟨.notReady, "registration changed during deregistration"⟩
  else .ok (table.erase key)

/-- The watchdog's write of an observed liveness to one snapshotted object. -/
def observe (table : RegistrationTable κ C) (seen : List (Nat × Bool)) : RegistrationTable κ C :=
  table.keys.foldl (fun table key => table.write key fun entry =>
    match seen.lookup entry.object with
    | some alive => { entry with alive := alive }
    | none => entry) table

end RegistrationTable

/-- All process registrations. -/
structure RegistrationBook (Doc : Type) where
  instances : RegistrationTable InstanceRankId (InstanceContract Doc)
  atnagents : RegistrationTable Nat (AtnAgentContract Doc)
  ffnagents : RegistrationTable Nat (FfnAgentContract Doc)
  ffnModelSpecs : Option (List Doc)
  agentStartups : AList fun _ : FabricRole × Nat => ProcUniqId

/-- A registered Agent of either role, as far as its ownership goes. -/
structure AgentRecord where
  proc : ProcUniqId
  abiVersion : Nat
  status : Nat → ReadinessStatus

/-- The registration that a PE placement refers to. -/
def RegistrationBook.agentAt {Doc : Type} (book : RegistrationBook Doc) (placement : PePlacement) : Option AgentRecord :=
  match placement.role with
  | .atnAgent => (book.atnagents.lookup placement.device).map fun r => ⟨r.proc, r.abiVersion, r.readinessStatus⟩
  | .ffnAgent => (book.ffnagents.lookup placement.device).map fun r => ⟨r.proc, r.abiVersion, r.readinessStatus⟩

/-! ## Configuration and membership -/

/-- The parts of the daemon configuration that the control plane reads. -/
structure Config where
  atnDevices : List Nat
  ffnDevices : List Nat
  instances : List String
  declaredTpSize : String → Option Nat
  atnDpSize : String → Nat
  abiVersion : Nat

namespace Config

variable (config : Config)

def atnWorldSize : Nat :=
  config.atnDevices.length

/-- Declared or omitted attention TP against the complete World. -/
def atnTpSizeOf (modelId : String) : Nat :=
  (config.declaredTpSize modelId).getD (config.atnWorldSize / config.atnDpSize modelId)

/-- Reject an unknown model or a rank outside its attention world. -/
def validateInstanceRank (modelId : String) (rank : Nat) : Except DaemonError Unit :=
  if modelId ∉ config.instances then .error ⟨.notFound, "unknown instance"⟩
  else if config.atnWorldSize ≤ rank then
    .error ⟨.conflict, s!"instance rank {rank} is outside atn_world_size={config.atnWorldSize}"⟩
  else .ok ()

/-- The devices configured for an Agent role. -/
def devicesOf : FabricRole → List Nat
  | .atnAgent => config.atnDevices
  | .ffnAgent => config.ffnDevices

/-- The PE placements of a plan: AtnAgents first, then FfnAgents. -/
def pePlacements : List PePlacement :=
  config.atnDevices.map (⟨.atnAgent, ·⟩) ++ config.ffnDevices.map (⟨.ffnAgent, ·⟩)

end Config

/-- Fabric's view of one Instance. -/
structure FabricInstancePlan (Doc : Type) where
  modelId : String
  ffnProfile : Doc
  atnTpSize : Nat
  atnDpSize : Nat
  atnagentIndices : List Nat
  deriving DecidableEq

/-- Complete membership captured under the control-plane lock. -/
structure FabricMembership (Doc : Type) where
  revision : Nat
  modelSpecs : List Doc
  instancePlans : List (FabricInstancePlan Doc)
  ffnagentFreeMemoryBytes : List Nat
  participants : Option (List Doc)
  ffnExecution : List Doc
  pePlacements : List PePlacement
  agentOwners : List (Nat × ProcUniqId)
  instanceOwners : List (InstanceRankId × ProcUniqId)
  deriving DecidableEq

namespace FabricMembership

variable {Doc : Type} [DecidableEq Doc]

/-- The plan and owners of one Instance, once all its ranks are registered. -/
def captureInstance (config : Config) (book : RegistrationBook Doc) (modelId : String) :
    Except DaemonError (Option (FabricInstancePlan Doc × List (InstanceRankId × ProcUniqId))) :=
  let ranks := (List.range config.atnWorldSize).map fun rank => book.instances.lookup ⟨modelId, rank⟩
  match ranks.mapM id with
  | none | some [] => .ok none
  | some (first :: rest) =>
    if rest.any (·.contract.ffnProfile ≠ first.contract.ffnProfile) then
      .error ⟨.conflict, "FFN ffn_profile disagrees across instance ranks"⟩
    else
      let expected := (List.range (config.atnDpSize modelId)).flatMap fun dp =>
        (List.range (config.atnTpSizeOf modelId)).map fun tp => (tp, dp)
      let coordinates := (first :: rest).map fun r => (r.contract.transport.atnTpRank, r.contract.transport.atnDpRank)
      if coordinates.toFinset ≠ expected.toFinset then
        .error ⟨.conflict, "instance ranks do not cover each TP-fastest coordinate once"⟩
      else
        .ok (some
          (⟨modelId, first.contract.ffnProfile, config.atnTpSizeOf modelId, config.atnDpSize modelId,
              List.range config.atnWorldSize⟩,
            (first :: rest).map fun r => (r.key, r.proc)))

/-- The Instances in configured order, up to the first that is incomplete or in
conflict. -/
def captureInstances (config : Config) (book : RegistrationBook Doc) :
    List String → Except DaemonError (Option (List (FabricInstancePlan Doc) × List (InstanceRankId × ProcUniqId)))
  | [] => .ok (some ([], []))
  | modelId :: rest => do
    match ← captureInstance config book modelId with
    | none => pure none
    | some (plan, owners) =>
      match ← captureInstances config book rest with
      | none => pure none
      | some (plans, others) => pure (some (plan :: plans, owners ++ others))

/-- Capture one complete, internally consistent configured membership. -/
def capture (config : Config) (book : RegistrationBook Doc) (revision : Nat) :
    Except DaemonError (Option (FabricMembership Doc)) := do
  let some atnagents := config.atnDevices.mapM fun device => book.atnagents.lookup device | pure none
  let some ffnagents := config.ffnDevices.mapM fun device => book.ffnagents.lookup device | pure none
  let some modelSpecs := book.ffnModelSpecs | pure none
  let some (instancePlans, instanceOwners) ← captureInstances config book config.instances | pure none
  let observations := atnagents.map (·.contract.calibrationEnvironment) ++ ffnagents.map (·.contract.calibrationEnvironment)
  let participants := observations.filterMap id
  if participants ≠ [] ∧ participants.length ≠ observations.length then
    throw ⟨.conflict, "Fabric membership has partial memory compatibility observations"⟩
  pure (some
    { revision := revision
      modelSpecs := modelSpecs
      instancePlans := instancePlans
      ffnagentFreeMemoryBytes := ffnagents.map (·.contract.deviceFreeMemoryBytes)
      participants := if participants = [] then none else some participants
      ffnExecution := ffnagents.map (·.contract.executionContract)
      pePlacements := config.pePlacements
      agentOwners := (List.range (atnagents.length + ffnagents.length)).zip
        (atnagents.map (·.proc) ++ ffnagents.map (·.proc))
      instanceOwners := instanceOwners })

/-- Every distinct process owner, in membership order. -/
def owners (membership : FabricMembership Doc) : List ProcUniqId :=
  (membership.agentOwners.map (·.2) ++ membership.instanceOwners.map (·.2)).dedup

end FabricMembership

/-! ## Transport publications and leases -/

/-- One Instance rank's lease on an exact AtnAgent publication. -/
structure TransportArenaLease where
  device : Nat
  handle : String
  publisher : ProcUniqId
  deriving DecidableEq, Repr

/-- One published handle and its geometry. -/
structure TransportArenaPublication where
  instanceRank : InstanceRankId
  handle : String
  transport : TransportProfile
  deriving DecidableEq, Repr

/-- Transport state belonging to one exact AtnAgent process. -/
structure AtnAgentTransportState where
  owner : ProcUniqId
  publications : AList fun _ : InstanceRankId => TransportArenaPublication
  acceptingLeases : Bool

/-- Publications and leases of all AtnAgents. -/
structure TransportBroker where
  atnagents : AList fun _ : Nat => AtnAgentTransportState
  leases : AList fun _ : InstanceRankId => TransportArenaLease

namespace TransportBroker

variable (broker : TransportBroker)

/-- Install or retain transport state for an exact owner. -/
def installAtnagent (device : Nat) (owner : ProcUniqId) : TransportBroker :=
  match broker.atnagents.lookup device with
  | some current =>
    if current.owner = owner then broker
    else { broker with atnagents := broker.atnagents.insert device ⟨owner, ∅, true⟩ }
  | none => { broker with atnagents := broker.atnagents.insert device ⟨owner, ∅, true⟩ }

/-- Transport state that belongs to the expected process. -/
def requireOwner (device : Nat) (owner : ProcUniqId) : Except DaemonError AtnAgentTransportState :=
  match broker.atnagents.lookup device with
  | some state =>
    if state.owner = owner then .ok state
    else .error ⟨.notReady, "atnagent registration changed during transport operation"⟩
  | none => .error ⟨.notReady, "atnagent registration changed during transport operation"⟩

/-- Why a publication may not be added to the state, if so. -/
def publishConflict (state : AtnAgentTransportState) (publication : TransportArenaPublication) : Option String :=
  match state.publications.lookup publication.instanceRank with
  | some existing =>
    if existing ≠ publication then some "published transport arena cannot be replaced in place"
    else if state.publications.entries.any fun entry =>
        entry.2.handle = publication.handle ∧ entry.1 ≠ publication.instanceRank then
      some "atnagent transport arenas contain duplicate arena handle"
    else none
  | none =>
    if state.publications.entries.any fun entry =>
        entry.2.handle = publication.handle ∧ entry.1 ≠ publication.instanceRank then
      some "atnagent transport arenas contain duplicate arena handle"
    else none

/-- Commit validated publications for the current owner. -/
def publish (device : Nat) (owner : ProcUniqId) (publications : List TransportArenaPublication) :
    Except DaemonError TransportBroker := do
  if publications = [] then throw ⟨.conflict, "atnagent transport arena upsert must not be empty"⟩
  let state ← broker.requireOwner device owner
  if state.acceptingLeases = false then throw ⟨.notReady, "atnagent transport leases are quiescing"⟩
  match publications.findSome? (publishConflict state) with
  | some message => throw ⟨.conflict, message⟩
  | none =>
    let published := publications.foldl (fun table publication => table.insert publication.instanceRank publication)
      state.publications
    pure { broker with atnagents := broker.atnagents.insert device { state with publications := published } }

/-- Close publication and lease admission for one owner. -/
def quiesce (device : Nat) (owner : ProcUniqId) : Except DaemonError TransportBroker := do
  let state ← broker.requireOwner device owner
  pure { broker with atnagents := broker.atnagents.insert device { state with acceptingLeases := false } }

/-- One acquisition-eligible publication. -/
def publication (device : Nat) (instanceRank : InstanceRankId) (owner : ProcUniqId) :
    Except DaemonError TransportArenaPublication := do
  let state ← broker.requireOwner device owner
  if state.acceptingLeases = false then
    throw ⟨.notReady, "local attention atnagent transport leases are quiescing"⟩
  match state.publications.lookup instanceRank with
  | some publication => pure publication
  | none => throw ⟨.notReady, "local attention atnagent has no transport arena handle for instance rank"⟩

/-- Acquire a publication; retry the same lease or reject a different one. -/
def acquire (instanceRank : InstanceRankId) (lease : TransportArenaLease) : Except DaemonError TransportBroker :=
  match broker.leases.lookup instanceRank with
  | some existing =>
    if existing = lease then .ok broker
    else .error ⟨.conflict, "instance rank already holds different transport arena handle"⟩
  | none => .ok { broker with leases := broker.leases.insert instanceRank lease }

/-- Release the lease of an Instance rank. -/
def removeInstance (instanceRank : InstanceRankId) : TransportBroker :=
  { broker with leases := broker.leases.erase instanceRank }

/-- Instance ranks leasing from a device and optional owner. -/
def leasedInstances (device : Nat) (publisher : Option ProcUniqId) : List InstanceRankId :=
  (broker.leases.entries.filter fun entry =>
    entry.2.device = device ∧ (publisher = none ∨ publisher = some entry.2.publisher)).map (·.1)

/-- Whether the current owner has closed lease admission. -/
def isQuiescing (device : Nat) : Bool :=
  match broker.atnagents.lookup device with
  | some state => !state.acceptingLeases
  | none => false

/-- Whether an Instance rank holds a lease on a device whose owner has closed
lease admission. -/
def leavesQuiescing (instanceRank : InstanceRankId) : Bool :=
  match broker.leases.lookup instanceRank with
  | some lease => broker.isQuiescing lease.device
  | none => false

end TransportBroker

end CrossPool.Control
