import CrossPool.Transport.Rounds

/-!
# Mailbox ownership

The status word says who owns the mailbox, and each program counter implies the
status its party relies on. `KernelEffect` and `BlockEffect` say once what a step
of either party does to the status word and to the round counters; ownership is
kept because every store is made from a state its party owns.
-/

namespace CrossPool.Transport

open CrossPool.Control (ResultCode)
open CrossPool.Lib

/-- The Instance's part in the current round. -/
inductive Standing where
  | outside
  | staging
  | waiting
  | consuming
  | gone
deriving DecidableEq, Repr

def Move.standing : Move → Standing
  | publishRequest => .staging
  | closeStaging => .staging
  | acknowledge => .consuming
  | closeEvaluated => .consuming

@[simp] theorem Move.standing_ne_outside (move : Move) : move.standing ≠ .outside := by
  cases move <;> simp [Move.standing]

def KernelPc.standing {Payload : Type*} : KernelPc Payload → Standing
  | resting => .outside
  | readFailure _ => .outside
  | readShutdown _ _ => .outside
  | beginStaging _ => .outside
  | observeClosed => .outside
  | readTerminalFailure => .outside
  | readTerminalShutdown _ => .outside
  | stageInput _ => .staging
  | stageRows _ => .staging
  | stageMetadata _ => .staging
  | readPublishFailure => .staging
  | readPublishShutdown _ => .staging
  | recordResult _ => .staging
  | check move => move.standing
  | write move => move.standing
  | store move => move.standing
  | wait => .waiting
  | readResultFailure => .consuming
  | readResult _ => .consuming
  | copyOutput => .consuming
  | readAcknowledgeShutdown => .consuming
  | aborted => .gone

/-- The block is about to answer the published request. -/
def BlockPc.answering : BlockPc → Bool
  | execute => true
  | finishReadFailure => true
  | answerCheck _ => true
  | answerWrite _ => true
  | answerStore _ => true
  | _ => false

variable {Payload : Type*} {e e' : Endpoint Payload}

/-- What the two program counters promise of the status word. After an expired
wait the kernel leaves its request behind, but only with a visible failure. -/
structure Ownership (e : Endpoint Payload) : Prop where
  outside : e.kernel.standing = .outside → e.arena.mailbox.status = .dormant ∨ e.arena.mailbox.status = .idle ∨
    e.arena.mailbox.status = .closed ∨ e.arena.generationFailure ≠ .ok
  staging : e.kernel.standing = .staging → e.arena.mailbox.status = .staging
  waiting : e.kernel.standing = .waiting → e.arena.mailbox.status = .published ∨ e.arena.mailbox.status = .evaluated
  consuming : e.kernel.standing = .consuming → e.arena.mailbox.status = .evaluated
  unopened : e.block.hasOpened = false → e.arena.mailbox.status = .dormant ∧ e.attached = false
  detached : e.attached = false → e.kernel = .resting
  opened : e.block.hasOpened → e.arena.mailbox.status ≠ .dormant
  answering : e.block.answering → e.arena.mailbox.status = .published
  rounds : e.published = e.answered + if e.arena.mailbox.status = .published then 1 else 0

theorem create_ownership (zero : Payload) : Ownership (Endpoint.create zero) := by
  constructor <;> simp [Endpoint.create, Arena.create, KernelPc.standing, BlockPc.hasOpened, BlockPc.answering]

/-! ## Steps of the Instance -/

/-- What a step of the kernel leaves alone. -/
structure KernelFrame (e e' : Endpoint Payload) : Prop where
  failure : e'.arena.generationFailure = e.arena.generationFailure
  shutdown : e'.arena.shutdown = e.arena.shutdown
  attached : e'.attached = e.attached
  block : e'.block = e.block
  answered : e'.answered = e.answered
  unannounced : e'.unannounced = e.unannounced

/-- What a step of the kernel does to the status word: the Instance's five
transitions, each from the status that makes it the owner. -/
inductive KernelEffect (e e' : Endpoint Payload) : Prop where
  | quiet (status : e'.arena.mailbox.status = e.arena.mailbox.status) (published : e'.published = e.published)
      (standing : e'.kernel.standing = e.kernel.standing)
  | claim (before : e.arena.mailbox.status = .idle) (after : e'.arena.mailbox.status = .staging)
      (published : e'.published = e.published) (standing : e'.kernel.standing = .staging)
  | publish (pc : e.kernel = .store .publishRequest) (before : e.arena.mailbox.status = .staging)
      (after : e'.arena.mailbox.status = .published) (published : e'.published = e.published + 1) (standing : e'.kernel.standing = .waiting)
  | consume (status : e'.arena.mailbox.status = .evaluated) (same : e.arena.mailbox.status = .evaluated)
      (published : e'.published = e.published) (standing : e'.kernel.standing = .consuming)
  | release (before : e.arena.mailbox.status = .staging ∨ e.arena.mailbox.status = .evaluated)
      (after : e'.arena.mailbox.status = .idle ∨ e'.arena.mailbox.status = .closed)
      (published : e'.published = e.published) (standing : e'.kernel.standing = .outside)
  | abort (status : e'.arena.mailbox.status = e.arena.mailbox.status) (published : e'.published = e.published)
      (standing : e'.kernel.standing = .gone)

theorem kernelStep_frame (stepped : e.kernelStep = some e') : KernelFrame e e' := by
  unfold Endpoint.kernelStep at stepped
  split at stepped <;> (try split at stepped) <;> (try cases stepped) <;>
    exact ⟨rfl, rfl, rfl, rfl, rfl, rfl⟩

/-- A store is made from the status its check saw. -/
theorem store_effect (own : Ownership e) {move : Move} (pc : e.kernel = .store move)
    (stepped : e.kernelStep = some e') : KernelEffect e e' := by
  simp only [Endpoint.kernelStep, pc] at stepped
  cases stepped
  have staging := own.staging
  have consuming := own.consuming
  simp only [pc, KernelPc.standing] at staging consuming
  cases move with
  | publishRequest => exact .publish pc (staging rfl) rfl rfl rfl
  | acknowledge => exact .release (Or.inr (consuming rfl)) (Or.inl rfl) rfl rfl
  | closeStaging => exact .release (Or.inl (staging rfl)) (Or.inr rfl) rfl rfl
  | closeEvaluated => exact .release (Or.inr (consuming rfl)) (Or.inr rfl) rfl rfl

theorem kernelStep_effect (own : Ownership e) (stepped : e.kernelStep = some e') : KernelEffect e e' := by
  cases pc : e.kernel with
  | store move => exact store_effect own pc stepped
  | beginStaging request =>
    simp only [Endpoint.kernelStep, pc] at stepped
    split at stepped
    · rename_i idle
      cases stepped
      exact .claim idle rfl rfl rfl
    · cases stepped
      exact .quiet rfl rfl (by simp [pc, KernelPc.standing])
  | wait =>
    simp only [Endpoint.kernelStep, pc] at stepped
    split at stepped
    · rename_i evaluated
      cases stepped
      exact .consume evaluated evaluated rfl rfl
    · cases stepped
      exact .abort rfl rfl rfl
    · cases stepped
  | _ =>
    -- Every other step moves between counters of one standing, or aborts.
    simp only [Endpoint.kernelStep, pc] at stepped
    (try split at stepped) <;> cases stepped <;>
      first
      | exact .abort rfl rfl rfl
      | exact .quiet rfl rfl (by simp [pc, KernelPc.standing, Endpoint.fail, Move.standing])
      | exact .quiet (by simp) rfl (by simp [pc, KernelPc.standing])

/-- A kernel runs only at an attached endpoint, behind an opened mailbox. -/
theorem Ownership.opened_of_running (own : Ownership e) (running : e.kernel ≠ .resting) :
    e.attached ∧ e.block.hasOpened := by
  have attached : e.attached := by
    by_contra detached
    exact running (own.detached (by simpa using detached))
  refine ⟨attached, ?_⟩
  by_contra unopened
  have detached := (own.unopened (by simpa using unopened)).2
  simp [attached] at detached

theorem Ownership.kernel (own : Ownership e) (effect : KernelEffect e e') (frame : KernelFrame e e')
    (running : e.kernel ≠ .resting) : Ownership e' := by
  obtain ⟨attached, opened⟩ := own.opened_of_running running
  have ready := own.opened opened
  have rounds := own.rounds
  have answering := own.answering
  obtain ⟨failure, -, attached', block, answered, -⟩ := frame
  cases effect with
  | quiet status published standing =>
    obtain ⟨outside, staging, waiting, consuming, -, -, -, -, -⟩ := own
    constructor <;> simp_all
  | claim before after published standing => constructor <;> simp_all
  | publish pc before after published standing => constructor <;> simp_all
  | consume status same published standing => constructor <;> simp_all
  | release before after published standing => constructor <;> grind
  | abort status published standing => constructor <;> simp_all

theorem kernelStep_ownership (own : Ownership e) (stepped : e.kernelStep = some e') : Ownership e' := by
  have running : e.kernel ≠ .resting := by
    intro resting
    simp [Endpoint.kernelStep, resting] at stepped
  exact own.kernel (kernelStep_effect own stepped) (kernelStep_frame stepped) running

/-- An expired wait either aborts or returns with a visible failure. -/
theorem expire_ownership (own : Ownership e) (wait : e.kernel = .wait)
    (expired : e.arena.generationFailure ≠ .ok ∧ e' = e.fail ∨ e' = { e with kernel := .aborted }) : Ownership e' := by
  obtain ⟨attached, opened⟩ := own.opened_of_running (by simp [wait])
  obtain ⟨-, -, -, -, -, -, ready, answering, rounds⟩ := own
  rcases expired with ⟨failed, rfl⟩ | rfl <;> constructor <;> simp_all [Endpoint.fail, KernelPc.standing]

/-! ## Steps of the Resident -/

/-- What a step of the block leaves alone, and the two words it only raises. -/
structure BlockFrame (e e' : Endpoint Payload) : Prop where
  kernel : e'.kernel = e.kernel
  attached : e'.attached = e.attached
  published : e'.published = e.published
  rows : e'.arena.mailbox.payloadRows = e.arena.mailbox.payloadRows
  request : e'.arena.mailbox.request = e.arena.mailbox.request
  failure : e'.arena.generationFailure = e.arena.generationFailure ∨ e.arena.generationFailure = .ok
  shutdown : e.arena.shutdown → e'.arena.shutdown

/-- What a step of the block does to the status word: the Resident's three
transitions. A block that goes on to answer has just seen Published. -/
inductive BlockEffect (e e' : Endpoint Payload) : Prop where
  | quiet (status : e'.arena.mailbox.status = e.arena.mailbox.status) (answered : e'.answered = e.answered)
      (opened : e'.block.hasOpened = e.block.hasOpened)
      (answering : e'.block.answering → e.block.answering ∨ e.arena.mailbox.status = .published)
  | ready (before : e.arena.mailbox.status = .dormant) (after : e'.arena.mailbox.status = .idle)
      (answered : e'.answered = e.answered) (opened : e'.block.hasOpened) (answering : e'.block.answering = false)
  | answer (before : e.arena.mailbox.status = .published) (after : e'.arena.mailbox.status = .evaluated)
      (answered : e'.answered = e.answered + 1) (opened : e'.block.hasOpened) (answering : e'.block.answering = false)
  | close (before : e.arena.mailbox.status = .idle) (after : e'.arena.mailbox.status = .closed)
      (answered : e'.answered = e.answered) (opened : e'.block.hasOpened) (answering : e'.block.answering = false)

section

variable {fabricFailure : Option ResultCode} {draining : Bool}

theorem blockStep_frame (stepped : e.blockStep fabricFailure draining = some e') : BlockFrame e e' := by
  unfold Endpoint.blockStep at stepped
  split at stepped <;> (try split at stepped) <;> (try split at stepped) <;> (try split at stepped) <;>
    (try cases stepped) <;> constructor <;> simp_all [Endpoint.setStatus]

theorem afterPoll_hasOpened (returned : Bool) (site : PollSite) : (Endpoint.afterPoll returned site).hasOpened := by
  cases site <;> simp only [Endpoint.afterPoll] <;> split <;> simp [BlockPc.hasOpened]

theorem afterPoll_answering (returned : Bool) (site : PollSite) :
    (Endpoint.afterPoll returned site).answering = false := by
  cases site <;> simp only [Endpoint.afterPoll] <;> split <;> simp [BlockPc.answering]

/-- A return from `publish_fabric_failure`, whether or not it published. -/
theorem returned_effect {returned : Bool} {site : PollSite} (opened : e.block.hasOpened)
    (status : e'.arena.mailbox.status = e.arena.mailbox.status) (answered : e'.answered = e.answered)
    (pc : e'.block = Endpoint.afterPoll returned site) : BlockEffect e e' := by
  apply BlockEffect.quiet status answered
  · rw [pc, opened, afterPoll_hasOpened]
  · intro answering
    simp [pc, afterPoll_answering] at answering

theorem poll_effect {site : PollSite} (pc : e.block = .pollFailure site ∨ ∃ code, e.block = .pollStatus site code ∨
      e.block = .pollResult site code ∨ e.block = .pollPublish site code)
    (stepped : e.blockStep fabricFailure draining = some e') : BlockEffect e e' := by
  have opened : e.block.hasOpened := by
    obtain pc | ⟨code, pc | pc | pc⟩ := pc <;> rw [pc] <;> simp [BlockPc.hasOpened]
  have stays (pc' : BlockPc) (opened' : pc'.hasOpened) (silent : pc'.answering = false) :
      BlockEffect e { e with block := pc' } :=
    .quiet rfl rfl (by rw [opened, opened']) (by simp [silent])
  obtain pc | ⟨code, pc | pc | pc⟩ := pc <;> simp only [Endpoint.blockStep, pc] at stepped
  · split at stepped <;> cases stepped
    · exact returned_effect opened rfl rfl rfl
    · exact stays _ rfl rfl
  · split at stepped <;> cases stepped <;> exact stays _ rfl rfl
  · split at stepped <;> cases stepped
    · exact returned_effect opened rfl rfl rfl
    · exact stays _ rfl rfl
  · split at stepped
    · cases stepped
      exact stays _ rfl rfl
    · split at stepped
      · cases stepped
        exact returned_effect opened rfl rfl rfl
      · split at stepped <;> cases stepped
        · exact stays _ rfl rfl
        · exact returned_effect opened rfl rfl rfl

theorem blockStep_effect (own : Ownership e) (stepped : e.blockStep fabricFailure draining = some e') :
    BlockEffect e e' := by
  cases pc : e.block with
  | openCheck =>
    have dormant := (own.unopened (by simp [pc, BlockPc.hasOpened])).1
    simp only [Endpoint.blockStep, pc, dormant] at stepped
    cases stepped
    exact .quiet rfl rfl (by simp [pc, BlockPc.hasOpened]) (by simp [BlockPc.answering])
  | openStore =>
    simp only [Endpoint.blockStep, pc] at stepped
    cases stepped
    exact .ready (own.unopened (by simp [pc, BlockPc.hasOpened])).1 rfl rfl rfl rfl
  | pollFailure site => exact poll_effect (Or.inl pc) stepped
  | pollStatus site code => exact poll_effect (Or.inr ⟨code, Or.inl pc⟩) stepped
  | pollResult site code => exact poll_effect (Or.inr ⟨code, Or.inr (Or.inl pc)⟩) stepped
  | pollPublish site code => exact poll_effect (Or.inr ⟨code, Or.inr (Or.inr pc)⟩) stepped
  | answerStore answer =>
    have published := own.answering (by simp [pc, BlockPc.answering])
    cases answer <;>
    · simp only [Endpoint.blockStep, pc] at stepped
      cases stepped
      exact .answer published rfl rfl rfl rfl
  | finishCloseIdle =>
    simp only [Endpoint.blockStep, pc] at stepped
    split at stepped
    · rename_i idle
      cases stepped
      exact .close idle rfl rfl rfl rfl
    · cases stepped
      exact .quiet rfl rfl (by simp [pc, BlockPc.hasOpened]) (by simp [BlockPc.answering])
  | requestDrain resume =>
    cases resume <;>
    · simp only [Endpoint.blockStep, pc] at stepped
      cases stepped
      exact .quiet rfl rfl (by simp [pc, BlockPc.hasOpened]) (by simp [BlockPc.answering])
  | _ =>
    -- Every other step leaves the status word as it is.
    simp only [Endpoint.blockStep, pc] at stepped
    (try split at stepped) <;> (try split at stepped) <;> cases stepped <;>
      exact .quiet rfl rfl (by simp [pc, BlockPc.hasOpened]) (by simp_all [BlockPc.answering])

end

theorem Ownership.block (own : Ownership e) (effect : BlockEffect e e') (frame : BlockFrame e e') :
    Ownership e' := by
  obtain ⟨kernel, attached, published, -, -, failure, -⟩ := frame
  obtain ⟨outside, staging, waiting, consuming, unopened, detached, opened, answering, rounds⟩ := own
  cases effect with
  | quiet status answered opened' answering' =>
    constructor <;> grind
  | ready before after answered opened' answering' =>
    constructor <;> grind
  | answer before after answered opened' answering' =>
    constructor <;> grind
  | close before after answered opened' answering' =>
    constructor <;> grind

theorem blockStep_ownership {fabricFailure : Option ResultCode} {draining : Bool} (own : Ownership e)
    (stepped : e.blockStep fabricFailure draining = some e') : Ownership e' :=
  own.block (blockStep_effect own stepped) (blockStep_frame stepped)

/-- A step that moves only the block's counter, within what it owns. -/
theorem Ownership.reblock (own : Ownership e) {pc : BlockPc} (opened : pc.hasOpened = e.block.hasOpened)
    (answering : pc.answering → e.block.answering) : Ownership { e with block := pc } :=
  own.block (.quiet rfl rfl opened (fun now => Or.inl (answering now))) ⟨rfl, rfl, rfl, rfl, rfl, Or.inl rfl, id⟩

/-- Ownership is kept by every action at an endpoint. -/
theorem step_ownership {layout : ArenaLayout} {fabricFailure : Option ResultCode} {draining : Bool}
    {action : Endpoint.Action Payload} (own : Ownership e)
    (stepped : e.step layout fabricFailure draining action = some e') : Ownership e' := by
  cases Endpoint.step_taken e stepped with
  | kernel stepped => exact kernelStep_ownership own stepped
  | block stepped => exact blockStep_ownership own stepped
  | expire wait failed => exact expire_ownership own wait (Or.inl ⟨failed, rfl⟩)
  | abort wait unset => exact expire_ownership own wait (Or.inr rfl)
  | execute result output pc valid =>
    have answers : Ownership { e with block := .answerCheck (.service result) } :=
      own.reblock (by simp [pc, BlockPc.hasOpened]) (by simp [pc, BlockPc.answering])
    exact { answers with }
  | reject result output pc => exact own.reblock (by simp [pc, BlockPc.hasOpened]) (by simp [pc, BlockPc.answering])
  | start pc => exact own.reblock (by simp [pc, BlockPc.hasOpened]) (by simp [BlockPc.answering])
  | exit pc => exact own.reblock (by simp [pc, BlockPc.hasOpened]) (by simp [BlockPc.answering])
  | attach idle =>
    have opened : e.block.hasOpened := by
      by_contra unopened
      have dormant := (own.unopened (by simpa using unopened)).1
      simp [idle] at dormant
    exact { own with
      unopened := by simp [opened]
      detached := by simp }
  | launch request attached resting submits =>
    exact { own with
      outside := fun _ => own.outside (by simp [resting, KernelPc.standing])
      staging := by simp [KernelPc.standing]
      waiting := by simp [KernelPc.standing]
      consuming := by simp [KernelPc.standing]
      detached := by simp [attached] }

/-- Every endpoint of every run keeps its ownership. -/
theorem reachable_ownership {ι : Type*} [DecidableEq ι] [Fintype ι] {layout : ι → ArenaLayout}
    {guard : State ι Payload → Event ι Payload → Prop} {s : State ι Payload}
    (reached : (transport layout).ReachableUnder guard s) (i : ι) : Ownership (s.endpoint i) :=
  endpoint_invariant (fun _ _ _ e => Ownership e) (fun _ zero => create_ownership zero)
    (fun _ _ _ _ _ own stepped => step_ownership own stepped) (fun _ _ _ own => own) (fun _ _ _ _ _ own => own)
    reached i

/-! ## The staged request -/

/-- The request a kernel has not handed over to the mailbox yet. -/
def KernelPc.request? : KernelPc Payload → Option (Request Payload)
  | readFailure request => some request
  | readShutdown request _ => some request
  | beginStaging request => some request
  | stageInput request => some request
  | stageRows request => some request
  | stageMetadata request => some request
  | _ => none

/-- The kernel has written the request's metadata and not published it yet. -/
def KernelPc.filled : KernelPc Payload → Bool
  | readPublishFailure => true
  | readPublishShutdown _ => true
  | check .publishRequest => true
  | write .publishRequest => true
  | store .publishRequest => true
  | _ => false

/-- A launched request passed the host's checks, so its publication does too. -/
structure Staged (layout : ArenaLayout) (e : Endpoint Payload) : Prop where
  submitted : ∀ request, e.kernel.request? = some request → layout.submits request
  filled : e.kernel.filled → e.arena.mailbox.payloadRows ≠ 0 ∧ e.arena.mailbox.request.isSome

theorem kernelStep_staged {layout : ArenaLayout} (staged : Staged layout e) (stepped : e.kernelStep = some e') :
    Staged layout e' := by
  obtain ⟨submitted, filled⟩ := staged
  cases pc : e.kernel with
  | stageMetadata request =>
    have submits := submitted request (by simp [pc, KernelPc.request?])
    simp only [Endpoint.kernelStep, pc] at stepped
    cases stepped
    simp only [ArenaLayout.submits, ne_eq, Bool.and_eq_true, decide_eq_true_eq] at submits
    exact ⟨by simp [KernelPc.request?], fun _ => ⟨submits.1.1.2, rfl⟩⟩
  | check move =>
    simp only [Endpoint.kernelStep, pc] at stepped
    split at stepped <;> cases stepped <;> cases move <;>
      constructor <;> simp_all [KernelPc.request?, KernelPc.filled]
  | write move =>
    simp only [Endpoint.kernelStep, pc] at stepped
    cases stepped
    cases move <;> constructor <;> simp_all [KernelPc.request?, KernelPc.filled, Move.fields]
  | store move =>
    simp only [Endpoint.kernelStep, pc] at stepped
    cases stepped
    cases move <;> constructor <;> simp [KernelPc.request?, KernelPc.filled, Endpoint.afterMove]
  | _ =>
    simp only [Endpoint.kernelStep, pc] at stepped
    (try split at stepped) <;> cases stepped <;> constructor <;>
      simp_all [KernelPc.request?, KernelPc.filled, Endpoint.fail, Endpoint.setStatus]

theorem step_staged {layout : ArenaLayout} {fabricFailure : Option ResultCode} {draining : Bool}
    {action : Endpoint.Action Payload} (staged : Staged layout e)
    (stepped : e.step layout fabricFailure draining action = some e') : Staged layout e' := by
  cases Endpoint.step_taken e stepped with
  | kernel stepped => exact kernelStep_staged staged stepped
  | block stepped =>
    have frame := blockStep_frame stepped
    refine ⟨?_, ?_⟩
    · rw [frame.kernel]
      exact staged.submitted
    · rw [frame.kernel, frame.rows, frame.request]
      exact staged.filled
  | launch request attached resting submits =>
    constructor <;> simp [KernelPc.request?, KernelPc.filled, submits]
  | expire wait failed => constructor <;> simp [KernelPc.request?, KernelPc.filled, Endpoint.fail]
  | abort wait unset => constructor <;> simp [KernelPc.request?, KernelPc.filled]
  | attach _ => exact ⟨staged.submitted, staged.filled⟩
  | execute _ _ _ _ => exact ⟨staged.submitted, staged.filled⟩
  | reject _ _ _ => exact ⟨staged.submitted, staged.filled⟩
  | start _ => exact ⟨staged.submitted, staged.filled⟩
  | exit _ => exact ⟨staged.submitted, staged.filled⟩

theorem reachable_staged {ι : Type*} [DecidableEq ι] [Fintype ι] {layout : ι → ArenaLayout}
    {guard : State ι Payload → Event ι Payload → Prop} {s : State ι Payload}
    (reached : (transport layout).ReachableUnder guard s) (i : ι) : Staged (layout i) (s.endpoint i) := by
  refine endpoint_invariant (fun layout _ _ e => Staged layout e) ?_
    (fun _ _ _ _ _ staged stepped => step_staged staged stepped) (fun _ _ _ staged => staged)
    (fun _ _ _ _ _ staged => staged) reached i
  intro arena zero
  constructor <;> simp [Endpoint.create, KernelPc.request?, KernelPc.filled]

end CrossPool.Transport
