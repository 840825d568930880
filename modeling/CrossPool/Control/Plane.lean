import CrossPool.Lib.Monitor
import CrossPool.Control.Registration

/-!
# The daemon's control plane

Each request of the daemon is a handler: its sections under the domain lock are
single steps, and between them it probes processes, plans, and lets the others
run. The lock that serializes plan formation is not modelled; runs without it
include those with it.

`fabric` is the retained generation. A handler that released the lock recognizes
it again by identity; here that is the number of generations retired before it.
-/

namespace CrossPool.Control

open CrossPool.Lib

/-- An exception of a handler: a daemon error, or any other one. -/
inductive Raised where
  | daemon (error : DaemonError)
  | fault (message : String)
  deriving DecidableEq, Repr

/-- What the host answers at one moment: which processes live, the monotonic
clock, the creation time behind a pid, and a fresh random generation identity. -/
structure Host where
  alive : ProcUniqId → Bool
  now : Nat
  createTime : Nat → Option Nat
  generation : GenerationId

/-- Generation-scoped Instance listeners. -/
structure ServingStartupState (Doc : Type) where
  generation : Option GenerationId
  listeners : AList fun _ : String => Doc

/-- Every record behind the domain lock. `instancePlans` belongs to the plan of
the retained generation, and `policies` are the capacity policies created and not
closed. The last three are history: the generations retained before, the number
of registrations created, and whether a registration ever took the place of one
that the same process made with other contents. -/
structure Plane (Doc : Type) where
  registrations : RegistrationBook Doc
  broker : TransportBroker
  fabric : Option GenerationState
  instancePlans : List (FabricInstancePlan Doc)
  policy : Option GenerationId
  policies : List GenerationId
  servingStartup : ServingStartupState Doc
  membershipRevision : Nat
  admissionClosed : Bool
  cleanupDeadline : Option Nat
  mpsScope : Bool
  closed : Bool
  retired : List GenerationState
  objects : Nat
  redeclared : Bool

/-- An empty control plane. -/
def Plane.empty (Doc : Type) : Plane Doc where
  registrations := ⟨∅, ∅, ∅, none, ∅⟩
  broker := ⟨∅, ∅⟩
  fabric := none
  instancePlans := []
  policy := none
  policies := []
  servingStartup := ⟨none, ∅⟩
  membershipRevision := 0
  admissionClosed := false
  cleanupDeadline := none
  mpsScope := false
  closed := false
  retired := []
  objects := 0
  redeclared := false

/-- What runs inside one section. -/
abbrev Act (Doc α : Type) := EStateM Raised (Plane Doc) α

/-- What runs across sections. -/
abbrev Task (Doc α : Type) := Handler (Plane Doc) Host Raised α

/-- Every owner of a generation, each once. -/
def GenerationState.owners (g : GenerationState) : List ProcUniqId :=
  (g.agentOwners.entries.map (·.2) ++ g.instanceOwners.entries.map (·.2)).dedup

section Plane

variable {Doc : Type} [DecidableEq Doc]

/-! ## Parts of sections -/

/-- Raise the error of a failed check. -/
def check {α : Type} (result : Except DaemonError α) : Act Doc α :=
  match result with
  | .ok a => pure a
  | .error error => throw (.daemon error)

/-- Raise the error of a check made outside the lock. -/
def checked {α : Type} (result : Except DaemonError α) : Task Doc α :=
  match result with
  | .ok a => .ret a
  | .error error => .raise (.daemon error)

/-- Raise a daemon error inside a section. -/
def refuse {α : Type} (kind : DaemonErrorKind) (message : String) : Act Doc α :=
  throw (.daemon ⟨kind, message⟩)

/-- Apply a controller operation to the retained generation, if there is one. -/
def onFabric (operation : GenerationState → Outcome) : Act Doc Unit := do
  match (← get).fabric with
  | none => pure ()
  | some g =>
    modify fun s => { s with fabric := some (operation g).state }
    match (operation g).error with
    | none => pure ()
    | some error => throw (.daemon error)

/-- The identity and the owners of the retained generation. -/
def Plane.snapshot (s : Plane Doc) : Option (Nat × List ProcUniqId) :=
  s.fabric.map fun g => (s.retired.length, g.owners)

/-- Whether the generation of a snapshot is still the retained one. -/
def Plane.retains (s : Plane Doc) (serial : Nat) : Bool :=
  s.fabric.isSome ∧ s.retired.length = serial

/-- Create a registration object for a live pid. -/
def newRegistration {κ C : Type} (key : κ) (pid abiVersion : Nat) (contract : C) : Task Doc (Registration κ C) :=
  .locked fun host => do
    match host.createTime pid with
    | none => refuse .conflict s!"registering pid {pid} is not live"
    | some createTime =>
      let s ← get
      modify fun s => { s with objects := s.objects + 1 }
      pure ⟨s.objects, key, ⟨pid, createTime⟩, abiVersion, true, host.now, contract⟩

/-- Liveness of an optional prior owner, probed outside the lock. -/
def existingAlive {κ C : Type} : Option (Registration κ C) → Task Doc Bool
  | none => pure false
  | some existing => .observe fun host => host.alive existing.proc

/-! ## Generation turnover -/

/-- The identity and owners of a retained generation that is STOPPED. -/
def stoppedSnapshot : Act Doc (Option (Nat × List ProcUniqId)) := do
  let s ← get
  match s.fabric with
  | none => pure none
  | some g => if g.phase = .stopped then pure s.snapshot else pure none

/-- Close the retained capacity policy, if there is one. -/
def Plane.closePolicy (s : Plane Doc) : Plane Doc :=
  { s with policy := none, policies := s.policy.elim s.policies s.policies.erase }

/-- Drop the generation of a snapshot, if it is still retained and no owner lives. -/
def dropGeneration (serial : Nat) (anyAlive : Bool) : Act Doc Unit := do
  let s ← get
  match s.fabric with
  | none => pure ()
  | some g =>
    if s.retains serial ∧ anyAlive = false then
      modify fun s =>
        { s.closePolicy with fabric := none, instancePlans := [], servingStartup := ⟨none, ∅⟩, retired := g :: s.retired }
    else pure ()

/-- Retire terminal generation state after every old owner has exited. -/
def retireTerminalGeneration : Task Doc Unit := do
  let stopped ← .locked fun _ => stoppedSnapshot
  match stopped with
  | none => pure ()
  | some (serial, owners) =>
    let anyAlive ← .observeAny (fun host owner => host.alive owner) owners
    .locked fun _ => dropGeneration serial anyAlive

/-- The state of a generation formed from a captured membership. -/
def FabricMembership.form (membership : FabricMembership Doc) (generation : GenerationId) (now : Nat) : GenerationState :=
  .installed ⟨generation, membership.pePlacements⟩
    (membership.agentOwners.map fun owner => (⟨owner.1, owner.2⟩ : Sigma fun _ : Nat => ProcUniqId)).toAList
    (membership.instanceOwners.map fun owner => (⟨owner.1, owner.2⟩ : Sigma fun _ : InstanceRankId => ProcUniqId)).toAList
    now

/-- Install a generation formed from a captured membership. -/
def Plane.install (s : Plane Doc) (membership : FabricMembership Doc) (generation : GenerationId) (now : Nat) : Plane Doc :=
  { s with
    fabric := some (membership.form generation now)
    instancePlans := membership.instancePlans
    policy := some generation
    servingStartup := ⟨some generation, ∅⟩ }

/-- Freeze complete membership, unless a generation is retained. -/
def captureMembership (config : Config) : Act Doc (Option (FabricMembership Doc)) := do
  let s ← get
  if s.fabric.isSome then pure none
  else if s.admissionClosed then pure none
  else check (FabricMembership.capture config s.registrations s.membershipRevision)

/-- Install only if no generation appeared and the captured revision still
describes the registrations. The policy created for the plan just before is seen
by no one else yet; it is retained with the plan or closed. -/
def commitMembership (membership : FabricMembership Doc) (generation : GenerationId) (now : Nat) : Act Doc Unit := do
  modify fun s => { s with policies := generation :: s.policies }
  let s ← get
  if s.fabric.isSome then modify fun s => { s with policies := s.policies.erase generation }
  else if s.admissionClosed ∨ s.membershipRevision ≠ membership.revision then
    modify fun s => { s with policies := s.policies.erase generation }
  else modify fun s => s.install membership generation now

/-- Create a Fabric plan from one complete membership snapshot. Placement and
native identity creation run outside the lock and may raise. -/
def ensureFabricPlan (config : Config) : Task Doc Unit := do
  let membership ← .locked fun _ => captureMembership config
  match membership with
  | none => pure ()
  | some membership =>
    let someDead ← .observeAny (fun host owner => !host.alive owner) membership.owners
    if someDead then pure ()
    else
      -- Planning happens here; the owners are probed again after it.
      let someDead ← .observeAny (fun host owner => !host.alive owner) membership.owners
      if someDead then pure ()
      else
        let generation ← .observe (·.generation)
        .locked fun host => commitMembership membership generation host.now

/-! ## Registration -/

/-- A retained generation records and refuses another owner of one of its PEs. -/
def refuseReplacement (role : FabricRole) (device : Nat) (proc : ProcUniqId) (now : Nat) (message : String) :
    Act Doc Unit := do
  match (← get).fabric with
  | none => pure ()
  | some g =>
    match g.plan.pePlacements.findIdx? fun item => item.role = role ∧ item.device = device with
    | none => throw (.fault "StopIteration")
    | some pe =>
      if g.agentOwners.lookup pe ≠ some proc then
        onFabric fun g => (g.recordOwnerFailure (.pe role pe .replaced)).abort now
        refuse .conflict message
      else pure ()

/-- Retain a configured Agent before any device initialization. Probes of the
user, the namespace and the MPS controller may raise in between. -/
def admitAgentStartup (config : Config) (role : FabricRole) (device pid createTime abiVersion : Nat) : Task Doc Unit := do
  let serial ← .locked fun _ => do
    let s ← get
    if s.admissionClosed ∨ s.mpsScope = false then refuse .notReady "Agent startup admission is unavailable"
    else if abiVersion ≠ config.abiVersion then
      refuse .conflict "Agent startup ABI version does not match daemon ABI"
    else if device ∉ config.devicesOf role then
      refuse .conflict "Agent startup role placement does not match daemon"
    else
      match s.fabric with
      | none => pure none
      | some g =>
        if (List.range g.peCount).any fun pe =>
            g.plan.pePlacements.getD pe ⟨role, device⟩ = ⟨role, device⟩ ∧ g.agentOwners.lookup pe = some ⟨pid, createTime⟩ then
          pure (some s.retired.length)
        else refuse .notReady "retained Fabric generation forbids new Agent startup"
  let identity ← .observe fun host => host.createTime pid
  match identity with
  | none => .raise (.daemon ⟨.conflict, "Agent startup process is absent"⟩)
  | some actual =>
    let live ← .observe fun host => host.alive ⟨pid, actual⟩
    if actual ≠ createTime ∨ live = false then
      .raise (.daemon ⟨.conflict, "Agent startup process identity does not match"⟩)
    else
      .locked fun host => do
        let s ← get
        if s.admissionClosed ∨ s.mpsScope = false ∨ s.fabric.map (fun _ => s.retired.length) ≠ serial then
          refuse .notReady "Agent startup admission changed during validation"
        else
          match s.registrations.agentStartups.lookup (role, device) with
          | some existing =>
            if existing ≠ ⟨pid, actual⟩ ∧ host.alive existing then
              refuse .conflict "Agent startup device is owned by another live process"
            else modify fun s => { s with registrations := { s.registrations with
              agentStartups := s.registrations.agentStartups.insert (role, device) ⟨pid, actual⟩ } }
          | none => modify fun s => { s with registrations := { s.registrations with
              agentStartups := s.registrations.agentStartups.insert (role, device) ⟨pid, actual⟩ } }

/-- The check of an Agent's admitted startup identity that opens its registration. -/
def requireStartup (role : FabricRole) (device : Nat) (proc : ProcUniqId) (message : String) : Act Doc Unit := do
  let s ← get
  if s.registrations.agentStartups.lookup (role, device) ≠ some proc then
    if s.admissionClosed then refuse .notReady "participant admission is closed" else refuse .conflict message
  else pure ()

/-- A dead AtnAgent may be replaced once no Instance that leased from it lives. -/
def awaitArenaUsers (device : Nat) (proc : ProcUniqId) (existing : Option (Registration Nat (AtnAgentContract Doc)))
    (alive : Bool) : Task Doc Unit :=
  match existing with
  | none => pure ()
  | some old =>
    if old.proc ≠ proc ∧ alive = false then do
      let owners ← .locked fun _ => do
        let s ← get
        pure ((s.broker.leasedInstances device (some old.proc)).filterMap fun leased =>
          (s.registrations.instances.lookup leased).map (·.proc))
      let anyAlive ← .observeAny (fun host owner => host.alive owner) owners
      if anyAlive then .raise (.daemon ⟨.notReady, "previous AtnAgent still has live arena users"⟩)
      else
        .locked fun _ => do
          if (← get).registrations.atnagents.holds device existing then pure ()
          else refuse .notReady "atnagent registration changed during generation cleanup"
    else pure ()

/-- The section that installs an AtnAgent registration. -/
def commitAtnagent (device : Nat) (registration : Registration Nat (AtnAgentContract Doc))
    (existing : Option (Registration Nat (AtnAgentContract Doc))) (alive : Bool) : Act Doc Unit := do
  let s ← get
  if s.registrations.agentStartups.lookup (.atnAgent, device) ≠ some registration.proc then
    refuse .conflict "AtnAgent startup ownership changed during registration"
  else
    let (changed, table) ← check (s.registrations.atnagents.installSnapshot registration existing alive)
    let redeclares := s.registrations.atnagents.redeclares registration alive
    modify fun s => { s with registrations := { s.registrations with atnagents := table },
                             redeclared := s.redeclared || redeclares }
    match table.lookup device with
    | none => throw (.fault "AtnAgent registration disappeared during installation")
    | some installed =>
      modify fun s => { s with broker := s.broker.installAtnagent device installed.proc }
      if changed then modify fun s => { s with membershipRevision := s.membershipRevision + 1 } else pure ()

/-- Install an AtnAgent registration after its prior arena users retire. -/
def registerAtnagent (config : Config) (device pid abiVersion : Nat) (contract : AtnAgentContract Doc) : Task Doc Unit := do
  let registration ← newRegistration device pid abiVersion contract
  retireTerminalGeneration
  if device ∉ config.atnDevices then .raise (.daemon ⟨.notFound, "unknown AtnAgent"⟩)
  else if registration.abiVersion ≠ config.abiVersion then
    .raise (.daemon ⟨.conflict, "atnagent ABI version does not match daemon ABI"⟩)
  else
    let existing ← .locked fun host => do
      requireStartup .atnAgent device registration.proc "AtnAgent registration requires its admitted startup identity"
      refuseReplacement .atnAgent device registration.proc host.now
        "retained Fabric generation forbids AtnAgent replacement"
      pure ((← get).registrations.atnagents.lookup device)
    let alive ← existingAlive existing
    awaitArenaUsers device registration.proc existing alive
    .locked fun _ => commitAtnagent device registration existing alive
    ensureFabricPlan config

/-- The section that installs an FfnAgent registration. -/
def commitFfnagent (device : Nat) (registration : Registration Nat (FfnAgentContract Doc))
    (existing : Option (Registration Nat (FfnAgentContract Doc))) (alive : Bool) (modelSpecs : List Doc) : Act Doc Unit := do
  let s ← get
  if s.registrations.agentStartups.lookup (.ffnAgent, device) ≠ some registration.proc then
    refuse .conflict "FfnAgent startup ownership changed during registration"
  else if s.registrations.ffnModelSpecs ≠ none ∧ s.registrations.ffnModelSpecs ≠ some modelSpecs then
    refuse .conflict "FfnAgent Model Specs disagree with the canonical declaration"
  else
    let (changed, table) ← check (s.registrations.ffnagents.installSnapshot registration existing alive)
    let redeclares := s.registrations.ffnagents.redeclares registration alive
    modify fun s => { s with registrations := { s.registrations with ffnagents := table,
                                                                     ffnModelSpecs := some modelSpecs },
                             redeclared := s.redeclared || redeclares }
    if changed then modify fun s => { s with membershipRevision := s.membershipRevision + 1 } else pure ()

/-- Install a configured FfnAgent registration. -/
def registerFfnagent (config : Config) (device pid abiVersion : Nat) (contract : FfnAgentContract Doc)
    (modelSpecs : List Doc) : Task Doc Unit := do
  let registration ← newRegistration device pid abiVersion contract
  retireTerminalGeneration
  if device ∉ config.ffnDevices then .raise (.daemon ⟨.notFound, "unknown FfnAgent"⟩)
  else if registration.abiVersion ≠ config.abiVersion then
    .raise (.daemon ⟨.conflict, "ffnagent ABI version does not match daemon ABI"⟩)
  else
    let existing ← .locked fun host => do
      requireStartup .ffnAgent device registration.proc "FfnAgent registration requires its admitted startup identity"
      refuseReplacement .ffnAgent device registration.proc host.now
        "retained Fabric generation forbids FfnAgent replacement"
      pure ((← get).registrations.ffnagents.lookup device)
    let alive ← existingAlive existing
    .locked fun _ => commitFfnagent device registration existing alive modelSpecs
    ensureFabricPlan config

/-- Why a peer of the same model refuses a candidate, if it does. -/
def peerConflict (instanceRank : InstanceRankId) (contract : InstanceContract Doc)
    (peer : Registration InstanceRankId (InstanceContract Doc)) : Option String :=
  let own := contract.transport
  let other := peer.contract.transport
  if peer.key.modelId ≠ instanceRank.modelId ∨ peer.key = instanceRank then none
  else if (other.hiddenSize, other.payloadRowCapacity, other.atnTpSize, other.atnDpSize) ≠
      (own.hiddenSize, own.payloadRowCapacity, own.atnTpSize, own.atnDpSize) then
    some "instance transport attributes disagree across ranks"
  else if peer.contract.ffnProfile ≠ contract.ffnProfile then
    some "FFN ffn_profile disagrees across instance ranks"
  else none

/-- The section that installs an Instance-rank registration. -/
def commitInstance (instanceRank : InstanceRankId) (contract : InstanceContract Doc)
    (registration : Registration InstanceRankId (InstanceContract Doc))
    (existing : Option (Registration InstanceRankId (InstanceContract Doc))) (alive : Bool) : Act Doc Unit := do
  let s ← get
  if s.admissionClosed then refuse .notReady "participant admission is closed"
  else if ¬ s.registrations.instances.holds instanceRank existing then
    refuse .notReady "instance registration changed during validation"
  else if s.mpsScope = false then refuse .notReady "owned attention MPS scope is unavailable"
  else
    match s.registrations.instances.registrations.findSome? (peerConflict instanceRank contract) with
    | some message => refuse .conflict message
    | none =>
      let (changed, table) ← check (s.registrations.instances.installSnapshot registration existing alive)
      let redeclares := s.registrations.instances.redeclares registration alive
      modify fun s => { s with registrations := { s.registrations with instances := table },
                               redeclared := s.redeclared || redeclares }
      if changed then
        modify fun s => { s with broker := s.broker.removeInstance instanceRank,
                                 membershipRevision := s.membershipRevision + 1 }
      else pure ()

/-- Install a live Instance worker with matching topology and contracts. -/
def registerInstance (config : Config) (instanceRank : InstanceRankId) (pid abiVersion : Nat)
    (contract : InstanceContract Doc) : Task Doc Unit := do
  let registration ← newRegistration instanceRank pid abiVersion contract
  retireTerminalGeneration
  if registration.abiVersion ≠ config.abiVersion then
    .raise (.daemon ⟨.conflict, "instance ABI version does not match daemon ABI"⟩)
  else
    checked (config.validateInstanceRank instanceRank.modelId instanceRank.rank)
    let transport := contract.transport
    if (transport.atnTpSize, transport.atnDpSize) ≠
        (config.atnTpSizeOf instanceRank.modelId, config.atnDpSize instanceRank.modelId) then
      .raise (.daemon ⟨.conflict, "instance transport TP-by-DP topology disagrees with configured model geometry"⟩)
    else if transport.atnDpRank * transport.atnTpSize + transport.atnTpRank ≠ instanceRank.rank then
      .raise (.daemon ⟨.conflict, "instance transport coordinates do not use TP-fastest rank order"⟩)
    else
      let existing ← .locked fun host => do
        let s ← get
        if s.admissionClosed then refuse .notReady "participant admission is closed"
        else
          match s.fabric with
          | none => pure (s.registrations.instances.lookup instanceRank)
          | some g =>
            if g.instanceOwners.lookup instanceRank ≠ some registration.proc then
              onFabric fun g => (g.recordOwnerFailure (.instanceRank instanceRank .replaced)).quiesce host.now
              refuse .conflict "retained Fabric generation forbids Instance-rank replacement"
            else pure (s.registrations.instances.lookup instanceRank)
      let alive ← existingAlive existing
      .locked fun _ => commitInstance instanceRank contract registration existing alive
      ensureFabricPlan config

/-- Remove an Instance-rank registration when its owner requests it. -/
def deregisterInstance (config : Config) (instanceRank : InstanceRankId) (owner : ProcessRef) : Task Doc Unit := do
  checked (config.validateInstanceRank instanceRank.modelId instanceRank.rank)
  let registration ← .locked fun _ => do pure ((← get).registrations.instances.lookup instanceRank)
  match registration with
  | none => .raise (.daemon ⟨.notFound, "registration is not registered"⟩)
  | some registration =>
    let valid ← .observe fun host => registration.validateProcessRef host.alive owner "deregister"
    checked valid
    .locked fun host => do
      let s ← get
      let table ← check (s.registrations.instances.removeSnapshot instanceRank registration)
      let quiescing := s.broker.leavesQuiescing instanceRank
      modify fun s => { s with registrations := { s.registrations with instances := table },
                               broker := s.broker.removeInstance instanceRank,
                               membershipRevision := s.membershipRevision + 1 }
      onFabric fun g => g.instanceDeparted instanceRank (.instanceRank instanceRank .exited) quiescing host.now

/-! ## Reports -/

/-- Whether a registered Agent is the planned owner of a PE and submits this
process reference. -/
def ownsReport (s : Plane Doc) (g : GenerationState) (pe : Nat) (placement : PePlacement) (owner : ProcessRef)
    (alive : ProcUniqId → Bool) : Bool :=
  match s.registrations.agentAt placement with
  | none => false
  | some agent =>
    g.agentOwners.lookup pe = some agent.proc ∧ owner.abiVersion = agent.abiVersion ∧ owner.pid = agent.proc.pid ∧
      alive agent.proc

/-- Commit one owner-validated participant report. -/
def recordFabricParticipant (report : ParticipantReport) : Task Doc Unit :=
  .locked fun host => do
    let s ← get
    match s.fabric with
    | none => refuse .conflict "participant reported a retired Fabric generation"
    | some g =>
      match g.plan.pePlacements[report.pe]? with
      | none => onFabric fun g => g.rejectReport "participant reported an unknown Fabric PE" host.now
      | some placement =>
        if ownsReport s g report.pe placement report.owner host.alive then
          onFabric fun g => g.recordParticipant report host.now
        else onFabric fun g => g.rejectReport "Fabric participant report owner does not match its PE" host.now

/-- Authenticate an Agent owner and stop generation admission. -/
def requestFabricQuiesce (owner : ProcessRef) (generation : GenerationId) : Task Doc Unit :=
  .locked fun host => do
    let s ← get
    match s.fabric with
    | none => refuse .conflict "fabric quiesce generation is not retained"
    | some g =>
      if generation ≠ g.plan.generation then refuse .conflict "fabric quiesce generation is not retained"
      else
        let matching := g.plan.pePlacements.zipIdx.countP fun entry =>
          match s.registrations.agentAt entry.1 with
          | none => false
          | some agent => g.agentOwners.lookup entry.2 = some agent.proc ∧ agent.proc.pid = owner.pid ∧
              agent.abiVersion = owner.abiVersion
        if matching ≠ 1 then refuse .conflict "fabric quiesce owner is not a current Agent participant"
        else onFabric fun g => g.quiesce host.now

/-- Record one Instance rank's scheduler construction and listener. -/
def publishInstanceInitialized (config : Config) (instanceRank : InstanceRankId) (owner : ProcessRef)
    (generation : GenerationId) (listener : Doc) : Task Doc Unit := do
  checked (config.validateInstanceRank instanceRank.modelId instanceRank.rank)
  let registration ← .locked fun _ => do pure ((← get).registrations.instances.lookup instanceRank)
  match registration with
  | none => .raise (.daemon ⟨.notReady, "instance rank must register before initialization barrier"⟩)
  | some registration =>
    let valid ← .observe fun host => registration.validateProcessRef host.alive owner "instance initialized"
    checked valid
    .locked fun _ => do
      let s ← get
      if s.fabric.isNone then refuse .notReady "fabric generation retired during initialization"
      else if ¬ s.registrations.instances.holds instanceRank (some registration) then
        refuse .notReady "instance registration changed during initialization"
      else
        match s.servingStartup.listeners.lookup instanceRank.modelId with
        | some known =>
          if known ≠ listener then refuse .conflict "serving listener disagrees across instance ranks"
          else onFabric fun g => g.recordInitialized instanceRank registration.proc generation
        | none =>
          onFabric fun g => g.recordInitialized instanceRank registration.proc generation
          modify fun s => { s with servingStartup := { s.servingStartup with
            listeners := s.servingStartup.listeners.insert instanceRank.modelId listener } }

/-- Advance one KV policy transition; `error` is what the policy raises. -/
def stepContextStateCapacity (error : Option String) : Task Doc Unit :=
  .locked fun host => do
    let s ← get
    match s.fabric with
    | none => pure ()
    | some g =>
      if s.policy.isNone then pure ()
      else if g.phase ≠ .executable then pure ()
      else
        match error with
        | none => pure ()
        | some message =>
          onFabric fun g =>
            (g.recordControlFailure s!"elastic context state capacity policy failed: {message}").abort host.now
          throw (.fault message)

/-! ## Heartbeats -/

/-- Refresh one registration: look it up, validate its owner outside the lock,
commit if it is unchanged. -/
def heartbeat {κ C : Type} (key : κ) (process : ProcessRef) (query : Plane Doc → κ → Option (Registration κ C))
    (commit : Plane Doc → Registration κ C → Nat → Except DaemonError (Plane Doc)) : Task Doc Unit := do
  let now ← .observe (·.now)
  let registration ← .locked fun _ => do pure (query (← get) key)
  match registration with
  | none => .raise (.daemon ⟨.notReady, "registration is not registered"⟩)
  | some registration =>
    let valid ← .observe fun host => registration.validateProcessRef host.alive process "heartbeat"
    checked valid
    .locked fun _ => do
      let after ← check (commit (← get) registration now)
      modify fun s => { s with registrations := after.registrations }

def heartbeatAtnagent (device : Nat) (process : ProcessRef) : Task Doc Unit :=
  heartbeat device process (fun s device => s.registrations.atnagents.lookup device) fun s registration now => do
    let table ← s.registrations.atnagents.commitHeartbeat device registration now
    pure { s with registrations := { s.registrations with atnagents := table } }

def heartbeatFfnagent (device : Nat) (process : ProcessRef) : Task Doc Unit :=
  heartbeat device process (fun s device => s.registrations.ffnagents.lookup device) fun s registration now => do
    let table ← s.registrations.ffnagents.commitHeartbeat device registration now
    pure { s with registrations := { s.registrations with ffnagents := table } }

def heartbeatInstance (instanceRank : InstanceRankId) (process : ProcessRef) : Task Doc Unit :=
  heartbeat instanceRank process (fun s key => s.registrations.instances.lookup key) fun s registration now => do
    let table ← s.registrations.instances.commitHeartbeat instanceRank registration now
    pure { s with registrations := { s.registrations with instances := table } }

/-! ## The watchdog -/

/-- The watchdog's limits on single phases. -/
def phaseTimeout : GenerationPhase → Option Nat
  | .joining | .quiescing | .draining | .finalizing => some (60 * second)
  | _ => none

/-- The limit on Instance startup in an executable generation. -/
def instanceStartupTimeout : Nat := 600 * second

/-- Why the daemon holds an owner for lost, if it does. -/
def lossReason (registration : Option (ProcUniqId × ReadinessStatus)) (owner : ProcUniqId) (alive : Bool) :
    Option OwnerFailureReason :=
  match registration with
  | none => some .exited
  | some (proc, status) =>
    if alive = false then some .exited
    else if proc ≠ owner then some .replaced
    else if status ≠ .online then some .stale
    else none

/-- The first lost PE owner, of the PEs that have not finalized. -/
def lostAgent (s : Plane Doc) (g : GenerationState) (alive : ProcUniqId → Bool) (now : Nat) : Option OwnerFailure :=
  g.plan.pePlacements.zipIdx.findSome? fun entry =>
    if (g.participants.lookup entry.2).map (·.phase) = some .finalized then none
    else
      match g.agentOwners.lookup entry.2 with
      | none => none
      | some owner =>
        (lossReason ((s.registrations.agentAt entry.1).map fun agent => (agent.proc, agent.status now)) owner
          (alive owner)).map (.pe entry.1.role entry.2)

/-- The first lost Instance-rank owner that is not leaving a quiescing arena. -/
def lostInstance (s : Plane Doc) (g : GenerationState) (alive : ProcUniqId → Bool) (now : Nat) : Option OwnerFailure :=
  g.instanceOwners.entries.findSome? fun entry =>
    match lossReason ((s.registrations.instances.lookup entry.1).map fun r => (r.proc, r.readinessStatus now)) entry.2
        (alive entry.2) with
    | none => none
    | some reason =>
      if g.phase = .quiescing ∧ s.broker.leavesQuiescing entry.1 then none else some (.instanceRank entry.1 reason)

/-- Record a lost Agent and abort. -/
def reconcileAgents (s : Plane Doc) (g : GenerationState) (alive : ProcUniqId → Bool) (now : Nat) : GenerationState :=
  match lostAgent s g alive now with
  | some failure => ((g.recordOwnerFailure failure).abort now).state
  | none => g

/-- Record a lost Instance rank and quiesce, while Instances matter. -/
def reconcileInstances (s : Plane Doc) (g : GenerationState) (alive : ProcUniqId → Bool) (now : Nat) : GenerationState :=
  if g.phase = .draining ∨ g.phase = .finalizing ∨ g.phase = .aborting ∨ g.phase = .stopped then g
  else
    match lostInstance s g alive now with
    | some failure => ((g.recordOwnerFailure failure).quiesce now).state
    | none => g

/-- Abort a generation whose initialization or phase took too long. -/
def reconcileTimeouts (config : Config) (g : GenerationState) (now : Nat) : GenerationState :=
  if g.phase = .executable ∧ g.initializedInstances.entries.length < config.instances.length * config.atnWorldSize ∧
      instanceStartupTimeout < now - g.phaseStartedAt then
    ((g.recordControlFailure "SGLang initialization barrier timed out").abort now).state
  else
    match phaseTimeout g.phase with
    | some limit =>
      if limit < now - g.phaseStartedAt then
        ((g.recordControlFailure s!"Fabric {g.phase.value} transition timed out").abort now).state
      else g
    | none => g

/-- Whether an aborting generation is retired: no Instance owner lives, and every
Agent owner is dead or drained. -/
def retirable (g : GenerationState) (alive : ProcUniqId → Bool) : Bool :=
  (g.instanceOwners.entries.all fun entry => !alive entry.2) ∧
    g.agentOwners.entries.all fun entry =>
      !alive entry.2 ∨ (g.participants.lookup entry.1).map (·.phase) = some .drained ∨
        (g.participants.lookup entry.1).map (·.phase) = some .finalized

/-- Stop an aborting generation whose owners are gone; STOPPED permits failed
owner exit, not generation reclamation. -/
def reconcileRetirement (g : GenerationState) (alive : ProcUniqId → Bool) (now : Nat) : GenerationState :=
  if g.phase = .aborting ∧ retirable g alive then (g.transition .stopped now).state else g

/-- What one watchdog pass does to the generation it captured. -/
def reconcile (config : Config) (s : Plane Doc) (alive : ProcUniqId → Bool) (now : Nat) (g : GenerationState) :
    GenerationState :=
  let g := reconcileAgents s g alive now
  let g := reconcileInstances s g alive now
  let g := reconcileTimeouts config g now
  reconcileRetirement g alive now

/-- Every registration, with its identity and owner. -/
def Plane.allRegistrations (s : Plane Doc) : List (Nat × ProcUniqId) :=
  s.registrations.atnagents.registrations.map (fun r => (r.object, r.proc)) ++
    s.registrations.ffnagents.registrations.map (fun r => (r.object, r.proc)) ++
      s.registrations.instances.registrations.map (fun r => (r.object, r.proc))

/-- Write the observed liveness to the registrations of a snapshot. -/
def noteLiveness (registrations : List (Nat × ProcUniqId)) (liveness : List (ProcUniqId × Bool)) : Act Doc Unit :=
  let seen := registrations.filterMap fun entry => (liveness.lookup entry.2).map fun alive => (entry.1, alive)
  modify fun s => { s with registrations := { s.registrations with
    atnagents := s.registrations.atnagents.observe seen
    ffnagents := s.registrations.ffnagents.observe seen
    instances := s.registrations.instances.observe seen } }

/-- The observed liveness of an owner; every owner of the snapshot was probed. -/
def observedAlive (liveness : List (ProcUniqId × Bool)) (owner : ProcUniqId) : Bool :=
  (liveness.lookup owner).getD true

/-- Reconcile the generation of a snapshot; whether it is still the retained one. -/
def reconcileSnapshot (config : Config) (snapshot : Option (Nat × List ProcUniqId)) (liveness : List (ProcUniqId × Bool))
    (now : Nat) : Act Doc Bool := do
  let s ← get
  match snapshot with
  | none => pure false
  | some (serial, _) =>
    if s.retains serial then
      onFabric fun g => .ok (reconcile config s (observedAlive liveness) now g)
      pure true
    else pure false

/-- Detect owner loss, enforce barriers, and retry fail-stop cleanup. Identities
are captured under the lock; processes are probed outside it, each at its own
moment. An owner that is itself registered is not probed again. -/
def watchdog (config : Config) : Task Doc Unit := do
  let now ← .observe (·.now)
  let captured ← .locked fun _ => do
    let s ← get
    pure (s.allRegistrations, s.snapshot)
  let liveness ← .observeAll (fun host proc => host.alive proc) (captured.1.map (·.2))
  let rest ← .observeAll (fun host proc => host.alive proc)
    ((captured.2.map (·.2)).getD [] |>.filter fun owner => (liveness.lookup owner).isNone)
  .locked fun _ => noteLiveness captured.1 liveness
  let current ← .locked fun _ => reconcileSnapshot config captured.2 (liveness ++ rest) now
  -- A pass over a generation that was replaced ends here.
  if current then retireTerminalGeneration else pure ()

/-! ## Transport arenas -/

/-- The bindings an AtnAgent publishes: model, rank and handle. -/
abbrev ArenaBinding := String × Nat × String

/-- Validate and normalize the arenas published by one AtnAgent. -/
def validateAtnagentTransportArenas (config : Config) (s : Plane Doc) (device : Nat) :
    List ArenaBinding → List TransportArenaPublication → Except DaemonError (List TransportArenaPublication)
  | [], publications => .ok publications.reverse
  | (modelId, rank, handle) :: rest, publications => do
    if publications.any (·.handle = handle) then
      throw ⟨.conflict, "atnagent transport arenas contain duplicate arena handle"⟩
    if modelId ∉ config.instances then
      throw ⟨.conflict, "atnagent transport arena handle references unknown instance"⟩
    config.validateInstanceRank modelId rank
    let expected := config.atnDevices.getD rank 0
    if expected ≠ device then
      throw ⟨.conflict, s!"atnagent transport arena handle rank {rank} belongs to device {expected}, not {device}"⟩
    if publications.any (·.instanceRank = ⟨modelId, rank⟩) then
      throw ⟨.conflict, "atnagent transport arenas contain duplicate instance-rank handle"⟩
    match s.registrations.instances.lookup ⟨modelId, rank⟩ with
    | none => throw ⟨.notReady, "atnagent transport arena handle references an instance rank that is not registered"⟩
    | some registration =>
      validateAtnagentTransportArenas config s device rest
        (⟨⟨modelId, rank⟩, handle, registration.contract.transport⟩ :: publications)

/-- Upsert transport arenas if the owning AtnAgent registration is live. -/
def upsertAtnagentTransportArenas (config : Config) (device : Nat) (bindings : List ArenaBinding) (publisher : ProcessRef) :
    Task Doc Unit := do
  let now ← .observe (·.now)
  if device ∉ config.atnDevices then .raise (.daemon ⟨.notFound, "unknown AtnAgent"⟩)
  else
    let registration ← .locked fun _ => do pure ((← get).registrations.atnagents.lookup device)
    match registration with
    | none => .raise (.daemon ⟨.notReady, "atnagent must register before upserting transport arenas"⟩)
    | some registration =>
      let valid ← .observe fun host => registration.validateProcessRef host.alive publisher "transport arena publisher"
      checked valid
      checked (registration.requireOnline now "local attention atnagent")
      .locked fun _ => do
        let s ← get
        if ¬ s.registrations.atnagents.holds device (some registration) then
          refuse .notReady "atnagent registration changed during arena publication"
        else
          let publications ← check (validateAtnagentTransportArenas config s device bindings [])
          let broker ← check (s.broker.publish device registration.proc publications)
          modify fun s => { s with broker := broker }

/-- Close lease admission; the clients that still own arenas are probed after it. -/
def quiesceAtnagentTransportLeases (config : Config) (device : Nat) (publisher : ProcessRef) : Task Doc Unit := do
  let now ← .observe (·.now)
  if device ∉ config.atnDevices then .raise (.daemon ⟨.notFound, "unknown AtnAgent"⟩)
  else
    let registration ← .locked fun _ => do pure ((← get).registrations.atnagents.lookup device)
    match registration with
    | none => .raise (.daemon ⟨.notReady, "atnagent must register before quiescing transport leases"⟩)
    | some registration =>
      let valid ← .observe fun host => registration.validateProcessRef host.alive publisher "transport lease quiesce"
      checked valid
      if registration.readinessStatus now = .offline then
        .raise (.daemon ⟨.notReady, "local attention atnagent process is not live"⟩)
      else
        .locked fun _ => do
          let s ← get
          if ¬ s.registrations.atnagents.holds device (some registration) then
            refuse .notReady "atnagent registration changed during lease quiesce"
          else
            let broker ← check (s.broker.quiesce device registration.proc)
            modify fun s => { s with broker := broker }

/-- The check of the retained generation that opens an arena acquisition. -/
def requireExecutable (fabric : Option GenerationState) (instanceRank : InstanceRankId) (proc : ProcUniqId) :
    Except DaemonError Unit :=
  match fabric with
  | none => .error ⟨.notReady, "Fabric generation is not executable"⟩
  | some g =>
    match g.phase with
    | .quiescing | .draining | .finalizing | .aborting | .stopped =>
      .error ⟨.notReady, "Fabric generation is not accepting Instance-rank arena leases"⟩
    | .executable =>
      if g.instanceOwners.lookup instanceRank ≠ some proc then
        .error ⟨.conflict, "Fabric generation owner does not match Instance-rank registration"⟩
      else .ok ()
    | _ => .error ⟨.notReady, "Fabric generation is not executable"⟩

/-- Lease a published arena to registrations that are still the ones looked up. -/
def leaseArena {C : Type} (device : Nat) (instanceRank : InstanceRankId)
    (registration : Registration InstanceRankId (InstanceContract Doc)) (atnagent : Registration Nat C) (now : Nat) :
    Act Doc Unit := do
  let s ← get
  match s.registrations.instances.lookup instanceRank, s.registrations.atnagents.lookup device with
  | some current, some agent =>
    if current.object ≠ registration.object then
      refuse .notReady "instance registration changed during arena acquisition"
    else if agent.object ≠ atnagent.object then
      refuse .notReady "atnagent registration changed during arena acquisition"
    else
      check (current.requireOnline now "instance rank")
      check (agent.requireOnline now "local attention atnagent")
      check (requireExecutable s.fabric instanceRank current.proc)
      let publication ← check (s.broker.publication device instanceRank agent.proc)
      if publication.transport ≠ current.contract.transport then
        refuse .notReady "published transport arena geometry is stale"
      else
        let broker ← check (s.broker.acquire instanceRank ⟨device, publication.handle, agent.proc⟩)
        modify fun s => { s with broker := broker }
  | none, _ => refuse .notReady "instance registration changed during arena acquisition"
  | some _, none => refuse .notReady "atnagent registration changed during arena acquisition"

/-- Acquire a brokered arena for one registered Instance rank. -/
def acquireInstanceTransportArena (config : Config) (instanceRank : InstanceRankId) (owner : ProcessRef) : Task Doc Unit := do
  checked (config.validateInstanceRank instanceRank.modelId instanceRank.rank)
  let device := config.atnDevices.getD instanceRank.rank 0
  let now ← .observe (·.now)
  let registration ← .locked fun _ => do pure ((← get).registrations.instances.lookup instanceRank)
  match registration with
  | none => .raise (.daemon ⟨.notReady, "instance rank is not registered"⟩)
  | some registration =>
    let valid ← .observe fun host => registration.validateProcessRef host.alive owner "transport arena handle acquirer"
    checked valid
    let atnagent ← .locked fun _ => do pure ((← get).registrations.atnagents.lookup device)
    match atnagent with
    | none => .raise (.daemon ⟨.notReady, "local attention atnagent is not registered"⟩)
    | some atnagent => .locked fun _ => leaseArena device instanceRank registration atnagent now

/-! ## Closing -/

/-- The controller scope is started, unless admission is already closed. -/
def start : Task Doc Unit :=
  .locked fun _ => do
    if (← get).admissionClosed then pure () else modify fun s => { s with mpsScope := true }

/-- Seal admission and retain the first trigger's deadline. -/
def beginClose (deadline : Nat) : Task Doc Nat :=
  .locked fun _ => do
    modify fun s => { s with admissionClosed := true, cleanupDeadline := some (s.cleanupDeadline.getD deadline) }
    pure ((← get).cleanupDeadline.getD deadline)

/-- One round of `close`: quiesce once no Instance owner lives, and release the
policy once no owner lives. The loop repeats this round. -/
def close (deadline : Nat) : Task Doc Unit := do
  let deadline ← beginClose deadline
  let now ← .observe (·.now)
  let (snapshot, owners, instanceOwners) ← .locked fun _ => do
    let s ← get
    let registered := s.allRegistrations.map (·.2)
    let startups := s.registrations.agentStartups.entries.map (·.2)
    let instances := s.registrations.instances.registrations.map (·.proc)
    pure (s.snapshot, registered ++ startups ++ (s.snapshot.map (·.2)).getD [],
      instances ++ (s.fabric.map fun g => g.instanceOwners.entries.map (·.2)).getD [])
  let instanceAlive ← .observeAny (fun host owner => host.alive owner) instanceOwners
  if instanceAlive then pure ()
  else
    .locked fun _ => do
      let s ← get
      match snapshot with
      | none => pure ()
      | some (serial, _) =>
        if s.retains serial ∧ now < deadline then onFabric fun g => g.quiesce now else pure ()
    let anyAlive ← .observeAny (fun host owner => host.alive owner) owners
    if anyAlive then pure ()
    else .locked fun _ => do modify fun s => { s.closePolicy with closed := true }

/-! ## All requests -/

/-- The requests and background passes of the daemon. -/
inductive Request (Doc : Type) where
  | start
  | admitAgentStartup (role : FabricRole) (device pid createTime abiVersion : Nat)
  | registerAtnagent (device pid abiVersion : Nat) (contract : AtnAgentContract Doc)
  | registerFfnagent (device pid abiVersion : Nat) (contract : FfnAgentContract Doc) (modelSpecs : List Doc)
  | registerInstance (instanceRank : InstanceRankId) (pid abiVersion : Nat) (contract : InstanceContract Doc)
  | deregisterInstance (instanceRank : InstanceRankId) (owner : ProcessRef)
  | recordFabricParticipant (report : ParticipantReport)
  | requestFabricQuiesce (owner : ProcessRef) (generation : GenerationId)
  | publishInstanceInitialized (instanceRank : InstanceRankId) (owner : ProcessRef) (generation : GenerationId) (listener : Doc)
  | stepContextStateCapacity (error : Option String)
  | heartbeatAtnagent (device : Nat) (process : ProcessRef)
  | heartbeatFfnagent (device : Nat) (process : ProcessRef)
  | heartbeatInstance (instanceRank : InstanceRankId) (process : ProcessRef)
  | watchdog
  | upsertAtnagentTransportArenas (device : Nat) (bindings : List ArenaBinding) (publisher : ProcessRef)
  | quiesceAtnagentTransportLeases (device : Nat) (publisher : ProcessRef)
  | acquireInstanceTransportArena (instanceRank : InstanceRankId) (owner : ProcessRef)
  | close (deadline : Nat)

/-- The handler of each request. -/
def Request.handler (config : Config) : Request Doc → Task Doc Unit
  | start => Control.start
  | admitAgentStartup role device pid createTime abiVersion =>
    Control.admitAgentStartup config role device pid createTime abiVersion
  | registerAtnagent device pid abiVersion contract => Control.registerAtnagent config device pid abiVersion contract
  | registerFfnagent device pid abiVersion contract modelSpecs =>
    Control.registerFfnagent config device pid abiVersion contract modelSpecs
  | registerInstance instanceRank pid abiVersion contract =>
    Control.registerInstance config instanceRank pid abiVersion contract
  | deregisterInstance instanceRank owner => Control.deregisterInstance config instanceRank owner
  | recordFabricParticipant report => Control.recordFabricParticipant report
  | requestFabricQuiesce owner generation => Control.requestFabricQuiesce owner generation
  | publishInstanceInitialized instanceRank owner generation listener =>
    Control.publishInstanceInitialized config instanceRank owner generation listener
  | stepContextStateCapacity error => Control.stepContextStateCapacity error
  | heartbeatAtnagent device process => Control.heartbeatAtnagent device process
  | heartbeatFfnagent device process => Control.heartbeatFfnagent device process
  | heartbeatInstance instanceRank process => Control.heartbeatInstance instanceRank process
  | watchdog => Control.watchdog config
  | upsertAtnagentTransportArenas device bindings publisher =>
    Control.upsertAtnagentTransportArenas config device bindings publisher
  | quiesceAtnagentTransportLeases device publisher => Control.quiesceAtnagentTransportLeases config device publisher
  | acquireInstanceTransportArena instanceRank owner => Control.acquireInstanceTransportArena config instanceRank owner
  | close deadline => Control.close deadline

end Plane

end CrossPool.Control
