import Mathlib.Data.Fintype.Basic
import CrossPool.Lib.Runs
import CrossPool.Transport.Mailbox

/-!
# Request rounds and the Resident loop

Thread zero of the Instance's request kernel and thread zero of the Resident
block that owns the arena are two programs over one `Endpoint`. A program
counter stands before each access to shared memory, so one step touches one
shared word (payload copies, which the status word protects, are one step). The
Resident blocks of all arenas share the drain flag and the canonical Fabric
failure; the host may request drain, and Fabric may fail, at any moment.
-/

namespace CrossPool.Transport

open CrossPool.Control (ResultCode)
open CrossPool.Lib

/-- Where the Instance stands in `instance_transport_kernel`. -/
inductive KernelPc (Payload : Type*) where
  | resting
  | readFailure (request : Request Payload)
  | readShutdown (request : Request Payload) (failure : ResultCode)
  | beginStaging (request : Request Payload)
  | observeClosed
  | readTerminalFailure
  | readTerminalShutdown (failure : ResultCode)
  | stageInput (request : Request Payload)
  | stageRows (request : Request Payload)
  | stageMetadata (request : Request Payload)
  | readPublishFailure
  | readPublishShutdown (failure : ResultCode)
  | recordResult (code : ResultCode)
  | check (move : Move)
  | write (move : Move)
  | store (move : Move)
  | wait
  | readResultFailure
  | readResult (failure : ResultCode)
  | copyOutput
  | readAcknowledgeShutdown
  | aborted
deriving DecidableEq, Repr

/-- No request kernel is running. -/
def KernelPc.isResting {Payload : Type*} : KernelPc Payload → Bool
  | resting => true
  | _ => false

/-- The two calls of `publish_fabric_failure` in one service iteration. -/
inductive PollSite where
  | top
  | executed (result : ResultCode)
deriving DecidableEq, Repr

/-- What follows `request_drain`. -/
inductive Resume where
  | sample
  | iterate
deriving DecidableEq, Repr

/-- The service loop's answer to a request, or the one given during drain. -/
inductive Answer where
  | service (result : ResultCode)
  | terminal (result : ResultCode)
deriving DecidableEq, Repr

def Answer.result : Answer → ResultCode
  | service result => result
  | terminal result => result

/-- Where a Resident block stands in `transport_resident_kernel`, from behind its
first grid barrier on. -/
inductive BlockPc where
  | openCheck
  | openStore
  | opened
  | pollFailure (site : PollSite)
  | pollStatus (site : PollSite) (code : ResultCode)
  | pollResult (site : PollSite) (code : ResultCode)
  | pollPublish (site : PollSite) (code : ResultCode)
  | requestDrain (resume : Resume)
  | readDraining
  | readStatus (stop : Bool)
  | execute
  | publishShutdown
  | finishObserve
  | finishCloseIdle
  | finishReadFailure
  | answerCheck (answer : Answer)
  | answerWrite (answer : Answer)
  | answerStore (answer : Answer)
  | converged
  | exited
  | aborted
deriving DecidableEq, Repr

/-- One arena with its Instance rank and its Resident block. The last three
fields are history: rounds published and answered, and whether the service loop
has published a non-Ok result since it last published a failure or shutdown. -/
structure Endpoint (Payload : Type*) where
  arena : Arena Payload
  attached : Bool
  kernel : KernelPc Payload
  hiddenOutput : Option Payload
  block : BlockPc
  published : Nat
  answered : Nat
  unannounced : Bool

namespace Endpoint

variable {Payload : Type*} (e : Endpoint Payload)

def create (zero : Payload) : Endpoint Payload where
  arena := Arena.create zero
  attached := false
  kernel := .resting
  hiddenOutput := none
  block := .openCheck
  published := 0
  answered := 0
  unannounced := false

/-- The result both sides give a request that meets a terminal generation. -/
def terminalResult (failure : ResultCode) : ResultCode :=
  if failure ≠ .ok then failure else .shutdown

/-- The result of an evaluated request: a canonical failure replaces any result
but Ok. -/
def observedResult (mailboxResult failure : ResultCode) : ResultCode :=
  if mailboxResult = .ok ∨ failure = .ok then mailboxResult else failure

/-- Return from the kernel with the caller's output filled with NaN. -/
def fail : Endpoint Payload :=
  { e with
    kernel := .resting
    hiddenOutput := none }

def setStatus (status : MailboxStatus) : Endpoint Payload :=
  { e with arena.mailbox.status := status }

/-- Where the kernel goes after a transition of its own. -/
def afterMove : Move → KernelPc Payload
  | .publishRequest => .wait
  | _ => .resting

/-- One step of thread zero of the request kernel; `none` while it waits. -/
def kernelStep : Option (Endpoint Payload) :=
  match e.kernel with
  | .resting => none
  -- Phase: Claim
  | .readFailure request => some { e with kernel := .readShutdown request e.arena.generationFailure }
  | .readShutdown request failure =>
    if failure ≠ .ok ∨ e.arena.shutdown then some e.fail else some { e with kernel := .beginStaging request }
  | .beginStaging request =>
    if e.arena.mailbox.status = .idle then
      some { e.setStatus .staging with kernel := .stageInput request }
    else some { e with kernel := .observeClosed }
  | .observeClosed =>
    if e.arena.mailbox.status ≠ .closed then some { e with kernel := .aborted }
    else some { e with kernel := .readTerminalFailure }
  | .readTerminalFailure => some { e with kernel := .readTerminalShutdown e.arena.generationFailure }
  | .readTerminalShutdown failure =>
    if failure = .ok ∧ e.arena.shutdown = false then some { e with kernel := .aborted } else some e.fail
  -- Phase: Stage
  | .stageInput request =>
    some
      { e with
        arena.inputPayload := request.hiddenStates
        kernel := .stageRows request }
  | .stageRows request =>
    if request.converts then
      some
        { e with
          arena.dpRankPayloadRows := request.dpRankPayloadRows.map Int.toNat
          kernel := .stageMetadata request }
    else some { e with kernel := .aborted }
  -- Phase: Publish
  | .stageMetadata request =>
    some
      { e with
        arena.mailbox.payloadRows := request.payloadRows
        arena.mailbox.request := some request.metadata
        kernel := .readPublishFailure }
  | .readPublishFailure => some { e with kernel := .readPublishShutdown e.arena.generationFailure }
  | .readPublishShutdown failure =>
    if failure ≠ .ok ∨ e.arena.shutdown then
      some { e with kernel := .recordResult (terminalResult failure) }
    else some { e with kernel := .check .publishRequest }
  | .recordResult code =>
    some
      { e with
        arena.mailbox.resultCode := code
        kernel := .check .closeStaging
        hiddenOutput := none }
  | .check move =>
    if move.permits e.arena.mailbox then some { e with kernel := .write move }
    else some { e with kernel := .aborted }
  | .write move =>
    some
      { e with
        arena.mailbox := move.fields e.arena.mailbox
        kernel := .store move }
  | .store move =>
    some
      { e.setStatus move.target with
        kernel := afterMove move
        published := if move = .publishRequest then e.published + 1 else e.published }
  -- Phase: Evaluate
  | .wait =>
    match e.arena.mailbox.status with
    | .evaluated => some { e with kernel := .readResultFailure }
    | .closed => some { e with kernel := .aborted }
    | _ => none
  | .readResultFailure => some { e with kernel := .readResult e.arena.generationFailure }
  | .readResult failure =>
    if observedResult e.arena.mailbox.resultCode failure ≠ .ok then
      some
        { e with
          kernel := .check .closeEvaluated
          hiddenOutput := none }
    else some { e with kernel := .copyOutput }
  -- Phase: Acknowledge
  | .copyOutput =>
    some
      { e with
        hiddenOutput := some e.arena.outputPayload
        kernel := .readAcknowledgeShutdown }
  | .readAcknowledgeShutdown =>
    if e.arena.shutdown then some { e with kernel := .check .closeEvaluated }
    else some { e with kernel := .check .acknowledge }
  | .aborted => none

/-- The kernel runs alone for some steps. -/
def kernelSteps : Nat → Endpoint Payload → Option (Endpoint Payload)
  | 0, e => some e
  | n + 1, e => e.kernelStep.bind (kernelSteps n)

/-- The deadline of the evaluation wait expires. -/
def expire : Option (Endpoint Payload) :=
  match e.kernel with
  | .wait => if e.arena.generationFailure ≠ .ok then some e.fail else some { e with kernel := .aborted }
  | _ => none

/-- Where the block goes once `publish_fabric_failure` returned. -/
def afterPoll (returned : Bool) : PollSite → BlockPc
  | .top => if returned then .requestDrain .sample else .readDraining
  | .executed result =>
    if returned ∨ result = .protocolMismatch ∨ result = .timeout then .requestDrain .iterate else .pollFailure .top

/-- One step of thread zero of the Resident block, given the canonical Fabric
failure and the drain flag it may read; `none` where it waits at a grid barrier
or inside Fabric. -/
def blockStep (fabricFailure : Option ResultCode) (draining : Bool) : Option (Endpoint Payload) :=
  match e.block with
  | .openCheck =>
    if e.arena.mailbox.status ≠ .dormant then some { e with block := .aborted }
    else some { e with block := .openStore }
  | .openStore => some { e.setStatus .idle with block := .opened }
  | .opened => none
  -- publish_fabric_failure
  | .pollFailure site =>
    match fabricFailure with
    | none => some { e with block := afterPoll false site }
    | some code => some { e with block := .pollStatus site code }
  | .pollStatus site code =>
    if e.arena.mailbox.status = .evaluated then some { e with block := .pollResult site code }
    else some { e with block := .pollPublish site code }
  | .pollResult site code =>
    if e.arena.mailbox.resultCode = .ok then some { e with block := afterPoll false site }
    else some { e with block := .pollPublish site code }
  | .pollPublish site code =>
    if code ≠ .protocolMismatch ∧ code ≠ .timeout then some { e with block := .aborted }
    else if e.arena.generationFailure = .ok then
      some
        { e with
          arena.generationFailure := code
          unannounced := false
          block := afterPoll true site }
    else if e.arena.generationFailure ≠ code then some { e with block := .aborted }
    else some { e with block := afterPoll true site }
  | .requestDrain .sample => some { e with block := .readDraining }
  | .requestDrain .iterate => some { e with block := .pollFailure .top }
  | .readDraining => some { e with block := .readStatus draining }
  | .readStatus stop =>
    if stop then some { e with block := .publishShutdown }
    else
      match e.arena.mailbox.status with
      | .closed => some { e with block := .requestDrain .iterate }
      | .published => some { e with block := .execute }
      | _ => some { e with block := .pollFailure .top }
  | .execute => none
  | .publishShutdown =>
    some
      { e with
        arena.shutdown := true
        unannounced := false
        block := .finishObserve }
  -- finish_terminal_mailbox
  | .finishObserve =>
    match e.arena.mailbox.status with
    | .idle => some { e with block := .finishCloseIdle }
    | .published => some { e with block := .finishReadFailure }
    | .dormant => some { e with block := .aborted }
    | _ => some { e with block := .converged }
  | .finishCloseIdle =>
    if e.arena.mailbox.status = .idle then some { e.setStatus .closed with block := .converged }
    else some { e with block := .finishObserve }
  | .finishReadFailure =>
    some { e with block := .answerCheck (.terminal (terminalResult e.arena.generationFailure)) }
  -- publish_result
  | .answerCheck answer =>
    if e.arena.mailbox.status ≠ .published then some { e with block := .aborted }
    else some { e with block := .answerWrite answer }
  | .answerWrite answer =>
    some
      { e with
        arena.mailbox.resultCode := answer.result
        block := .answerStore answer }
  | .answerStore (.service result) =>
    some
      { e.setStatus .evaluated with
        answered := e.answered + 1
        unannounced := decide (result ≠ .ok)
        block := .pollFailure (.executed result) }
  | .answerStore (.terminal _) =>
    some
      { e.setStatus .evaluated with
        answered := e.answered + 1
        block := .converged }
  | .converged => none
  | .exited => none
  | .aborted => none

/-- Fabric returns from `execute` with any result and output; a request that
fails validation never reaches it. -/
def executeStep (layout : ArenaLayout) (result : ResultCode) (output : Payload) : Option (Endpoint Payload) :=
  if e.block = .execute then
    if layout.requestValid e.arena.mailbox then
      some
        { e with
          arena.outputPayload := output
          block := .answerCheck (.service result) }
    else some { e with block := .answerCheck (.service .protocolMismatch) }
  else none

/-- What happens at one endpoint: host calls of the Instance, steps of its
kernel, and steps of its Resident block. -/
inductive Action (Payload : Type*) where
  | attach
  | launch (request : Request Payload)
  | kernel
  | expire
  | block
  | execute (result : ResultCode) (output : Payload)
  | startBarrier
  | exitBarrier

/-- One action, or `none` where it cannot happen. The host attaches an endpoint
only once it reads Idle, and launches one kernel at a time. -/
def step (layout : ArenaLayout) (fabricFailure : Option ResultCode) (draining : Bool) :
    Action Payload → Option (Endpoint Payload)
  | .attach => if e.arena.mailbox.status = .idle then some { e with attached := true } else none
  | .launch request =>
    if e.attached ∧ e.kernel.isResting ∧ layout.submits request then some { e with kernel := .readFailure request }
    else none
  | .kernel => e.kernelStep
  | .expire => e.expire
  | .block => e.blockStep fabricFailure draining
  | .execute result output => e.executeStep layout result output
  | .startBarrier => if e.block = .opened then some { e with block := .pollFailure .top } else none
  | .exitBarrier => if e.block = .converged then some { e with block := .exited } else none

/-- What each action does, with what enables it. -/
inductive Taken (layout : ArenaLayout) (fabricFailure : Option ResultCode) (draining : Bool) :
    Action Payload → Endpoint Payload → Prop where
  | attach (idle : e.arena.mailbox.status = .idle) :
      Taken layout fabricFailure draining .attach { e with attached := true }
  | launch (request : Request Payload) (attached : e.attached) (resting : e.kernel = .resting)
      (submits : layout.submits request) :
      Taken layout fabricFailure draining (.launch request) { e with kernel := .readFailure request }
  | kernel {e' : Endpoint Payload} (stepped : e.kernelStep = some e') : Taken layout fabricFailure draining .kernel e'
  | expire (wait : e.kernel = .wait) (failed : e.arena.generationFailure ≠ .ok) :
      Taken layout fabricFailure draining .expire e.fail
  | abort (wait : e.kernel = .wait) (unset : e.arena.generationFailure = .ok) :
      Taken layout fabricFailure draining .expire { e with kernel := .aborted }
  | block {e' : Endpoint Payload} (stepped : e.blockStep fabricFailure draining = some e') :
      Taken layout fabricFailure draining .block e'
  | execute (result : ResultCode) (output : Payload) (pc : e.block = .execute) (valid : layout.requestValid e.arena.mailbox) :
      Taken layout fabricFailure draining (.execute result output)
        { e with
          arena.outputPayload := output
          block := .answerCheck (.service result) }
  | reject (result : ResultCode) (output : Payload) (pc : e.block = .execute) :
      Taken layout fabricFailure draining (.execute result output)
        { e with block := .answerCheck (.service .protocolMismatch) }
  | start (pc : e.block = .opened) :
      Taken layout fabricFailure draining .startBarrier { e with block := .pollFailure .top }
  | exit (pc : e.block = .converged) : Taken layout fabricFailure draining .exitBarrier { e with block := .exited }

omit e in
theorem KernelPc.eq_resting {pc : KernelPc Payload} (resting : pc.isResting) : pc = .resting := by
  cases pc <;> simp [KernelPc.isResting] at resting
  rfl

theorem step_taken {layout : ArenaLayout} {fabricFailure : Option ResultCode} {draining : Bool} {action : Action Payload}
    {e' : Endpoint Payload} (stepped : e.step layout fabricFailure draining action = some e') :
    e.Taken layout fabricFailure draining action e' := by
  cases action with
  | kernel => exact .kernel stepped
  | block => exact .block stepped
  | attach =>
    simp only [step] at stepped
    split at stepped <;> cases stepped
    exact .attach (by assumption)
  | launch request =>
    simp only [step] at stepped
    split at stepped <;> cases stepped
    rename_i enabled
    exact .launch request enabled.1 (KernelPc.eq_resting enabled.2.1) enabled.2.2
  | expire =>
    simp only [step, expire] at stepped
    split at stepped
    · split at stepped <;> cases stepped
      · exact .expire (by assumption) (by assumption)
      · exact .abort (by assumption) (by simp_all)
    · cases stepped
  | execute result output =>
    simp only [step, executeStep] at stepped
    split at stepped
    · split at stepped <;> cases stepped
      · exact .execute result output (by assumption) (by assumption)
      · exact .reject result output (by assumption)
    · cases stepped
  | startBarrier =>
    simp only [step] at stepped
    split at stepped <;> cases stepped
    exact .start (by assumption)
  | exitBarrier =>
    simp only [step] at stepped
    split at stepped <;> cases stepped
    exact .exit (by assumption)

/-- The action stores the shared drain flag. -/
def drains (action : Action Payload) : Bool :=
  match action, e.block with
  | .block, .requestDrain _ => true
  | _, _ => false

end Endpoint

/-! ## The Resident with all its arenas -/

structure State (ι Payload : Type*) where
  endpoint : ι → Endpoint Payload
  draining : Bool
  fabricFailure : Option ResultCode

inductive Event (ι Payload : Type*) where
  | act (i : ι) (action : Endpoint.Action Payload)
  | drain
  | fabricFails (code : ResultCode)

/-- A block has opened its mailbox. -/
def BlockPc.hasOpened : BlockPc → Bool
  | openCheck => false
  | openStore => false
  | _ => true

/-- A block has left the service loop and its mailbox. -/
def BlockPc.left : BlockPc → Bool
  | converged => true
  | exited => true
  | _ => false

namespace State

variable {ι Payload : Type*} [DecidableEq ι] [Fintype ι] (layout : ι → ArenaLayout) (s : State ι Payload)

/-- A grid barrier opens once every block has arrived at it. -/
def barrier : Endpoint.Action Payload → Bool
  | .startBarrier => decide (∀ j, (s.endpoint j).block.hasOpened)
  | .exitBarrier => decide (∀ j, (s.endpoint j).block.left)
  | _ => true

/-- One event, or `none` where it cannot happen; Fabric publishes at most one
canonical failure. -/
def next : Event ι Payload → Option (State ι Payload)
  | .act i action =>
    if s.barrier action then
      ((s.endpoint i).step (layout i) s.fabricFailure s.draining action).map fun e =>
        { s with
          endpoint := Function.update s.endpoint i e
          draining := s.draining || (s.endpoint i).drains action }
    else none
  | .drain => some { s with draining := true }
  | .fabricFails code =>
    if s.fabricFailure = none ∧ (code = .protocolMismatch ∨ code = .timeout) then
      some { s with fabricFailure := some code }
    else none

end State

variable {ι Payload : Type*} [DecidableEq ι] [Fintype ι]

/-- Every interleaving of the request kernels of all Instance ranks with the
Resident that owns their arenas. -/
def transport (layout : ι → ArenaLayout) : System (State ι Payload) (Event ι Payload) where
  init s := s.draining = false ∧ s.fabricFailure = none ∧ ∃ zero, s.endpoint = fun _ => Endpoint.create zero
  step s event t := s.next layout event = some t

/-- An event changes at most the endpoint it happens at. -/
theorem step_endpoint {layout : ι → ArenaLayout} {s t : State ι Payload} {event : Event ι Payload}
    (taken : (transport layout).step s event t) (i : ι) : t.endpoint i = s.endpoint i ∨
      ∃ action, event = .act i action ∧
        (s.endpoint i).step (layout i) s.fabricFailure s.draining action = some (t.endpoint i) := by
  cases event with
  | act j action =>
    simp only [transport, State.next] at taken
    split at taken
    · obtain ⟨e, stepped, rfl⟩ := Option.map_eq_some_iff.mp taken
      by_cases same : i = j
      · subst same
        exact Or.inr ⟨action, rfl, by simpa using stepped⟩
      · exact Or.inl (by simp [same])
    · cases taken
  | drain =>
    obtain rfl := Option.some.inj taken
    exact Or.inl rfl
  | fabricFails code =>
    simp only [transport, State.next] at taken
    split at taken
    · obtain rfl := Option.some.inj taken
      exact Or.inl rfl
    · cases taken

/-- An enabled action may be taken next. -/
theorem later_act (layout : ι → ArenaLayout) {s : State ι Payload} {i : ι} (action : Endpoint.Action Payload)
    {e : Endpoint Payload} (free : s.barrier action)
    (enabled : (s.endpoint i).step (layout i) s.fabricFailure s.draining action = some e) :
    ∃ t, (transport layout).Later s t ∧ t.endpoint i = e := by
  refine ⟨{ s with
    endpoint := Function.update s.endpoint i e
    draining := s.draining || (s.endpoint i).drains action }, ?_, by simp⟩
  apply (System.LaterUnder.refl s).step (a := .act i action) trivial
  simp [transport, State.next, free, enabled]

theorem later_kernelSteps (layout : ι → ArenaLayout) {n : Nat} {s : State ι Payload} {i : ι} {e : Endpoint Payload}
    (runs : Endpoint.kernelSteps n (s.endpoint i) = some e) : ∃ t, (transport layout).Later s t ∧ t.endpoint i = e := by
  induction n generalizing s with
  | zero => exact ⟨s, .refl s, Option.some.inj runs⟩
  | succ n ih =>
    obtain ⟨e', stepped, rest⟩ := Option.bind_eq_some_iff.mp runs
    obtain ⟨t, first, endpoint⟩ := later_act layout .kernel rfl stepped
    obtain ⟨u, second, endpoint'⟩ := ih (s := t) (endpoint ▸ rest)
    exact ⟨u, first.trans second, endpoint'⟩

/-- An invariant of single endpoints, given the two shared words. It is kept by
whole runs when it is kept by each action, by drain and by the failure's arrival. -/
theorem endpoint_invariant {layout : ι → ArenaLayout} {guard : State ι Payload → Event ι Payload → Prop}
    (Inv : ArenaLayout → Option ResultCode → Bool → Endpoint Payload → Prop)
    (created : ∀ arena zero, Inv arena none false (Endpoint.create zero))
    (acted : ∀ s i action e, guard s (.act i action) → Inv (layout i) s.fabricFailure s.draining (s.endpoint i) →
      (s.endpoint i).step (layout i) s.fabricFailure s.draining action = some e →
      Inv (layout i) s.fabricFailure (s.draining || (s.endpoint i).drains action) e)
    (drained : ∀ arena fabric e, Inv arena fabric false e → Inv arena fabric true e)
    (failed : ∀ arena draining e code, code = .protocolMismatch ∨ code = .timeout → Inv arena none draining e →
      Inv arena (some code) draining e)
    {s : State ι Payload} (reached : (transport layout).ReachableUnder guard s) :
    ∀ i, Inv (layout i) s.fabricFailure s.draining (s.endpoint i) := by
  have raised {arena fabric draining e} (draining' : Bool) (kept : Inv arena fabric draining e) :
      Inv arena fabric (draining || draining') e := by
    cases draining <;> cases draining' <;> first | exact kept | exact drained _ _ _ kept
  induction reached with
  | start init =>
    obtain ⟨draining, fabric, zero, endpoint⟩ := init
    intro i
    rw [draining, fabric, endpoint]
    exact created (layout i) zero
  | @next s t event _ meets taken ih =>
    intro j
    cases event with
    | act i action =>
      simp only [transport, State.next] at taken
      split at taken
      · obtain ⟨e, stepped, rfl⟩ := Option.map_eq_some_iff.mp taken
        by_cases same : j = i
        · subst same
          simpa using acted s j action e meets (ih j) stepped
        · simpa [same] using raised ((s.endpoint i).drains action) (ih j)
      · cases taken
    | drain =>
      obtain rfl := Option.some.inj taken
      simpa using raised true (ih j)
    | fabricFails code =>
      simp only [transport, State.next] at taken
      split at taken
      · rename_i fresh
        obtain rfl := Option.some.inj taken
        have kept := ih j
        rw [fresh.1] at kept
        exact failed (layout j) _ _ code fresh.2 kept
      · cases taken

end CrossPool.Transport
