import CrossPool.Transport.Drain

/-!
# Announced failures

A request that finds its mailbox Closed aborts unless it also finds a failure or
the shutdown flag. The draining Resident publishes shutdown before it closes or
answers a mailbox. Its service loop does not: it publishes a non-Ok result, the
Instance closes the mailbox on it, and only a later iteration publishes the
failure or shutdown. A request launched in between aborts; if none is, no
transport check fails in any run.
-/

namespace CrossPool.Transport

open CrossPool.Control (ResultCode)
open CrossPool.Lib

/-- The Instance has read an Ok result and is about to release the mailbox. -/
def KernelPc.acknowledging {Payload : Type*} : KernelPc Payload → Bool
  | copyOutput => true
  | readAcknowledgeShutdown => true
  | check .acknowledge => true
  | write .acknowledge => true
  | store .acknowledge => true
  | _ => false

/-- The Instance has decided to close the mailbox. -/
def KernelPc.closing {Payload : Type*} : KernelPc Payload → Bool
  | recordResult _ => true
  | check .closeStaging => true
  | write .closeStaging => true
  | store .closeStaging => true
  | check .closeEvaluated => true
  | write .closeEvaluated => true
  | store .closeEvaluated => true
  | _ => false

/-- A request found no Idle mailbox and looks for the reason. -/
def KernelPc.rechecking {Payload : Type*} : KernelPc Payload → Bool
  | observeClosed => true
  | readTerminalFailure => true
  | readTerminalShutdown _ => true
  | _ => false

/-- The block serves the request its last drain sample allowed. -/
def BlockPc.serving : BlockPc → Bool
  | readStatus false => true
  | execute => true
  | answerCheck (.service _) => true
  | answerWrite (.service _) => true
  | answerStore (.service _) => true
  | _ => false

/-- The Fabric failure a block has read and not yet acted on. -/
def BlockPc.polled : BlockPc → Option ResultCode
  | pollStatus _ code => some code
  | pollResult _ code => some code
  | pollPublish _ code => some code
  | _ => none

variable {Payload : Type*} {e e' : Endpoint Payload}

/-- Failure or shutdown is visible, or the Resident owes one of them. -/
def Endpoint.Informed (e : Endpoint Payload) : Prop :=
  e.arena.generationFailure ≠ .ok ∨ e.arena.shutdown ∨ e.unannounced

/-! ## The Resident's checks -/

/-- The generation failure of an arena is the canonical Fabric failure. -/
structure Canonical (fabricFailure : Option ResultCode) (e : Endpoint Payload) : Prop where
  codes : ∀ code, fabricFailure = some code → code = .protocolMismatch ∨ code = .timeout
  failure : e.arena.generationFailure = .ok ∨ fabricFailure = some e.arena.generationFailure
  polled : ∀ code, e.block.polled = some code → fabricFailure = some code
  alive : e.block ≠ .aborted

theorem afterPoll_polled (returned : Bool) (site : PollSite) : (Endpoint.afterPoll returned site).polled = none := by
  cases site <;> simp only [Endpoint.afterPoll] <;> split <;> simp [BlockPc.polled]

theorem afterPoll_alive (returned : Bool) (site : PollSite) : Endpoint.afterPoll returned site ≠ .aborted := by
  cases site <;> simp only [Endpoint.afterPoll] <;> split <;> simp

theorem blockStep_canonical {fabricFailure : Option ResultCode} {draining : Bool} (own : Ownership e)
    (canonical : Canonical fabricFailure e) (stepped : e.blockStep fabricFailure draining = some e') :
    Canonical fabricFailure e' := by
  obtain ⟨codes, failure, polled, alive⟩ := canonical
  cases pc : e.block with
  | openCheck =>
    have dormant := (own.unopened (by simp [pc, BlockPc.hasOpened])).1
    simp only [Endpoint.blockStep, pc, dormant] at stepped
    cases stepped
    exact ⟨codes, failure, by simp [BlockPc.polled], by simp⟩
  | pollFailure site =>
    simp only [Endpoint.blockStep, pc] at stepped
    split at stepped <;> cases stepped
    · exact ⟨codes, failure, by simp [afterPoll_polled], afterPoll_alive _ _⟩
    · exact ⟨codes, failure, by simp [BlockPc.polled], by simp⟩
  | pollStatus site code =>
    have read := polled code (by simp [pc, BlockPc.polled])
    simp only [Endpoint.blockStep, pc] at stepped
    split at stepped <;> cases stepped <;> exact ⟨codes, failure, by simp [BlockPc.polled, read], by simp⟩
  | pollResult site code =>
    have read := polled code (by simp [pc, BlockPc.polled])
    simp only [Endpoint.blockStep, pc] at stepped
    split at stepped <;> cases stepped
    · exact ⟨codes, failure, by simp [afterPoll_polled], afterPoll_alive _ _⟩
    · exact ⟨codes, failure, by simp [BlockPc.polled, read], by simp⟩
  | pollPublish site code =>
    have read := polled code (by simp [pc, BlockPc.polled])
    have valid := codes code read
    simp only [Endpoint.blockStep, pc] at stepped
    split at stepped
    · rename_i invalid
      exact absurd valid (by simpa using invalid)
    · split at stepped
      · cases stepped
        exact ⟨codes, Or.inr read, by simp [afterPoll_polled], afterPoll_alive _ _⟩
      · rename_i set
        have same : e.arena.generationFailure = code := by
          rcases failure with unset | seen
          · exact absurd unset set
          · exact Option.some.inj (seen.symm.trans read)
        split at stepped
        · rename_i different
          exact absurd same different
        · cases stepped
          exact ⟨codes, failure, by simp [afterPoll_polled], afterPoll_alive _ _⟩
  | requestDrain resume =>
    cases resume <;> simp only [Endpoint.blockStep, pc] at stepped <;> cases stepped <;>
      exact ⟨codes, failure, by simp [BlockPc.polled], by simp⟩
  | finishObserve =>
    have ready := own.opened (by simp [pc, BlockPc.hasOpened])
    simp only [Endpoint.blockStep, pc] at stepped
    split at stepped
    · cases stepped
      exact ⟨codes, failure, by simp [BlockPc.polled], by simp⟩
    · cases stepped
      exact ⟨codes, failure, by simp [BlockPc.polled], by simp⟩
    · rename_i dormant
      exact absurd dormant ready
    · cases stepped
      exact ⟨codes, failure, by simp [BlockPc.polled], by simp⟩
  | answerCheck answer =>
    have published := own.answering (by simp [pc, BlockPc.answering])
    simp only [Endpoint.blockStep, pc, published] at stepped
    cases stepped
    exact ⟨codes, failure, by simp [BlockPc.polled], by simp⟩
  | answerStore answer =>
    cases answer <;> simp only [Endpoint.blockStep, pc] at stepped <;> cases stepped <;>
      exact ⟨codes, failure, by simp [BlockPc.polled], by simp⟩
  | _ =>
    -- The remaining steps check nothing and touch no failure word.
    simp only [Endpoint.blockStep, pc] at stepped
    (try split at stepped) <;> (try split at stepped) <;> cases stepped <;>
      exact ⟨codes, failure, by simp [BlockPc.polled], by simp⟩

theorem step_canonical {layout : ArenaLayout} {fabricFailure : Option ResultCode} {draining : Bool}
    {action : Endpoint.Action Payload} (own : Ownership e) (canonical : Canonical fabricFailure e)
    (stepped : e.step layout fabricFailure draining action = some e') : Canonical fabricFailure e' := by
  cases Endpoint.step_taken e stepped with
  | kernel stepped =>
    have frame := kernelStep_frame stepped
    refine ⟨canonical.codes, ?_, ?_, ?_⟩
    · rw [frame.failure]
      exact canonical.failure
    · rw [frame.block]
      exact canonical.polled
    · rw [frame.block]
      exact canonical.alive
  | block stepped => exact blockStep_canonical own canonical stepped
  | execute result output pc valid => exact { canonical with
      polled := by simp [BlockPc.polled]
      alive := by simp }
  | reject result output pc => exact { canonical with
      polled := by simp [BlockPc.polled]
      alive := by simp }
  | start pc => exact { canonical with
      polled := by simp [BlockPc.polled]
      alive := by simp }
  | exit pc => exact { canonical with
      polled := by simp [BlockPc.polled]
      alive := by simp }
  | expire wait failed => exact { canonical with }
  | abort wait unset => exact { canonical with }
  | attach idle => exact { canonical with }
  | launch request attached resting submits => exact { canonical with }

/-! ## Closed mailboxes -/

/-- Every way to Closed passes a point where the endpoint is informed. -/
structure Informing (e : Endpoint Payload) : Prop where
  closed : e.arena.mailbox.status = .closed → e.Informed
  closing : e.kernel.closing → e.Informed
  evaluated : e.arena.mailbox.status = .evaluated → e.arena.mailbox.resultCode ≠ .ok → e.kernel.acknowledging = false →
    e.Informed
  publish : ∀ failure, e.kernel = .readPublishShutdown failure → failure ≠ .ok → e.arena.generationFailure ≠ .ok
  recorded : ∀ answer, e.block = .answerStore answer → e.arena.mailbox.resultCode = answer.result
  finishing : e.block.finishing → e.arena.shutdown

theorem KernelFrame.rekernel (e : Endpoint Payload) (pc : KernelPc Payload) : KernelFrame e { e with kernel := pc } :=
  ⟨rfl, rfl, rfl, rfl, rfl, rfl⟩

theorem KernelFrame.fail (e : Endpoint Payload) : KernelFrame e e.fail :=
  ⟨rfl, rfl, rfl, rfl, rfl, rfl⟩

theorem KernelFrame.informed (frame : KernelFrame e e') : e'.Informed ↔ e.Informed := by
  simp [Endpoint.Informed, frame.failure, frame.shutdown, frame.unannounced]

/-- A kernel step that leaves the status and the result as they are. -/
theorem Informing.kernel (inform : Informing e) (frame : KernelFrame e e')
    (status : e'.arena.mailbox.status = e.arena.mailbox.status)
    (result : e'.arena.mailbox.resultCode = e.arena.mailbox.resultCode) (closing : e'.kernel.closing → e.Informed)
    (acknowledging : e.kernel.acknowledging → e'.kernel.acknowledging ∨ e.Informed)
    (publish : ∀ failure, e'.kernel = .readPublishShutdown failure → failure ≠ .ok → e.arena.generationFailure ≠ .ok) :
    Informing e' where
  closed := by
    rw [status, frame.informed]
    exact inform.closed
  closing := by
    rw [frame.informed]
    exact closing
  evaluated := by
    rw [status, result, frame.informed]
    intro evaluated failed silent
    cases before : e.kernel.acknowledging with
    | false => exact inform.evaluated evaluated failed before
    | true =>
      rcases acknowledging before with after | informed
      · simp [after] at silent
      · exact informed
  publish := by
    rw [frame.failure]
    exact publish
  recorded := by
    rw [result, frame.block]
    exact inform.recorded
  finishing := by
    rw [frame.block, frame.shutdown]
    exact inform.finishing

/-- A kernel step that writes the mailbox while the block does not answer. -/
theorem Informing.write (inform : Informing e) (frame : KernelFrame e e') (silent : e.block.answering = false)
    (closed : e'.arena.mailbox.status = .closed → e.Informed) (closing : e'.kernel.closing → e.Informed)
    (evaluated : e'.arena.mailbox.status = .evaluated → e'.kernel.acknowledging)
    (publish : ∀ failure, e'.kernel ≠ .readPublishShutdown failure) : Informing e' where
  closed := by
    rw [frame.informed]
    exact closed
  closing := by
    rw [frame.informed]
    exact closing
  evaluated status _ quiet := by simp [evaluated status] at quiet
  publish failure read := absurd read (publish failure)
  recorded answer answers := by
    rw [frame.block] at answers
    simp [answers, BlockPc.answering] at silent
  finishing := by
    rw [frame.block, frame.shutdown]
    exact inform.finishing

/-- The block does not answer while the mailbox is not Published. -/
theorem Ownership.not_answering (own : Ownership e) (status : e.arena.mailbox.status ≠ .published) :
    e.block.answering = false := by
  by_contra answering
  exact status (own.answering (by simpa using answering))

theorem store_informing (own : Ownership e) (inform : Informing e) {move : Move} (pc : e.kernel = .store move)
    (stepped : e.kernelStep = some e') : Informing e' := by
  have frame := kernelStep_frame stepped
  have expected : e.arena.mailbox.status = move.expects := by
    cases move
    · exact own.staging (by simp [pc, KernelPc.standing, Move.standing])
    · exact own.consuming (by simp [pc, KernelPc.standing, Move.standing])
    · exact own.staging (by simp [pc, KernelPc.standing, Move.standing])
    · exact own.consuming (by simp [pc, KernelPc.standing, Move.standing])
  have silent := own.not_answering (by rw [expected]; cases move <;> simp [Move.expects])
  simp only [Endpoint.kernelStep, pc] at stepped
  cases stepped
  cases move with
  | publishRequest =>
    apply inform.write frame silent <;>
      simp [Endpoint.setStatus, Move.target, Endpoint.afterMove, KernelPc.closing, KernelPc.acknowledging]
  | acknowledge =>
    apply inform.write frame silent <;>
      simp [Endpoint.setStatus, Move.target, Endpoint.afterMove, KernelPc.closing]
  | closeStaging =>
    have informed := inform.closing (by simp [pc, KernelPc.closing])
    apply inform.write frame silent <;> simp [Endpoint.setStatus, Move.target, Endpoint.afterMove, informed]
  | closeEvaluated =>
    have informed := inform.closing (by simp [pc, KernelPc.closing])
    apply inform.write frame silent <;> simp [Endpoint.setStatus, Move.target, Endpoint.afterMove, informed]

theorem kernelStep_informing (own : Ownership e) (inform : Informing e) (stepped : e.kernelStep = some e') :
    Informing e' := by
  have frame := kernelStep_frame stepped
  cases pc : e.kernel with
  | store move => exact store_informing own inform pc stepped
  | beginStaging request =>
    simp only [Endpoint.kernelStep, pc] at stepped
    split at stepped <;> cases stepped
    · rename_i idle
      apply inform.write frame (own.not_answering (by simp [idle])) <;> simp [Endpoint.setStatus, KernelPc.closing]
    · apply inform.kernel frame rfl rfl <;> simp [pc, KernelPc.closing, KernelPc.acknowledging]
  | readPublishFailure =>
    simp only [Endpoint.kernelStep, pc] at stepped
    cases stepped
    apply inform.kernel frame rfl rfl
    · simp [KernelPc.closing]
    · simp [pc, KernelPc.acknowledging]
    · intro failure read failed
      cases read
      exact failed
  | readPublishShutdown failure =>
    simp only [Endpoint.kernelStep, pc] at stepped
    split at stepped <;> cases stepped
    · rename_i terminal
      have informed : e.Informed := by
        rcases terminal with failed | shutdown
        · exact Or.inl (inform.publish failure pc failed)
        · exact Or.inr (Or.inl shutdown)
      apply inform.kernel frame rfl rfl <;> simp [pc, KernelPc.acknowledging, informed]
    · apply inform.kernel frame rfl rfl <;> simp [pc, KernelPc.closing, KernelPc.acknowledging]
  | recordResult code =>
    have staging := own.staging (by simp [pc, KernelPc.standing])
    have informed := inform.closing (by simp [pc, KernelPc.closing])
    simp only [Endpoint.kernelStep, pc] at stepped
    cases stepped
    apply inform.write frame (own.not_answering (by simp [staging])) <;> simp [staging, informed]
  | check move =>
    simp only [Endpoint.kernelStep, pc] at stepped
    split at stepped <;> cases stepped
    · have closing := inform.closing
      apply inform.kernel frame rfl rfl <;> cases move <;>
        simp_all [KernelPc.closing, KernelPc.acknowledging]
    · rename_i refused
      apply inform.kernel frame rfl rfl
      · simp [KernelPc.closing]
      · intro acknowledging
        have consuming := own.consuming
        cases move <;> simp_all [KernelPc.acknowledging, KernelPc.standing, Move.standing, Move.permits, Move.expects]
      · simp
  | write move =>
    simp only [Endpoint.kernelStep, pc] at stepped
    cases stepped
    have closing := inform.closing
    cases move with
    | acknowledge =>
      have evaluated := own.consuming (by simp [pc, KernelPc.standing, Move.standing])
      apply inform.write frame (own.not_answering (by simp [evaluated])) <;>
        simp [evaluated, KernelPc.closing, KernelPc.acknowledging]
    | _ =>
      apply inform.kernel frame rfl rfl <;>
        simp_all [KernelPc.closing, KernelPc.acknowledging]
  | readResult failure =>
    have evaluated := own.consuming (by simp [pc, KernelPc.standing])
    simp only [Endpoint.kernelStep, pc] at stepped
    split at stepped
    · rename_i failed
      have refused : e.arena.mailbox.resultCode ≠ .ok := by
        intro ok
        simp [Endpoint.observedResult, ok] at failed
      have informed := inform.evaluated evaluated refused (by simp [pc, KernelPc.acknowledging])
      cases stepped
      exact inform.kernel frame rfl rfl (fun _ => informed) (fun _ => Or.inr informed) (by simp)
    · cases stepped
      apply inform.kernel frame rfl rfl <;> simp [pc, KernelPc.closing, KernelPc.acknowledging]
  | readAcknowledgeShutdown =>
    simp only [Endpoint.kernelStep, pc] at stepped
    split at stepped <;> cases stepped
    · rename_i shutdown
      have informed : e.Informed := Or.inr (Or.inl shutdown)
      exact inform.kernel frame rfl rfl (fun _ => informed) (fun _ => Or.inr informed) (by simp)
    · apply inform.kernel frame rfl rfl <;> simp [KernelPc.closing, KernelPc.acknowledging]
  | _ =>
    simp only [Endpoint.kernelStep, pc] at stepped
    (try split at stepped) <;> cases stepped <;> apply inform.kernel frame rfl rfl <;>
      simp [pc, KernelPc.closing, KernelPc.acknowledging, Endpoint.fail]

/-- A block step that leaves the status and the result as they are. -/
theorem Informing.block (inform : Informing e) (kernel : e'.kernel = e.kernel)
    (status : e'.arena.mailbox.status = e.arena.mailbox.status)
    (result : e'.arena.mailbox.resultCode = e.arena.mailbox.resultCode) (informed : e.Informed → e'.Informed)
    (failure : e.arena.generationFailure ≠ .ok → e'.arena.generationFailure ≠ .ok)
    (silent : ∀ answer, e'.block ≠ .answerStore answer) (finishing : e'.block.finishing → e'.arena.shutdown) :
    Informing e' where
  closed now := informed (inform.closed (status ▸ now))
  closing now := informed (inform.closing (kernel ▸ now))
  evaluated now failed quiet := informed (inform.evaluated (status ▸ now) (result ▸ failed) (kernel ▸ quiet))
  publish code read failed := failure (inform.publish code (kernel ▸ read) failed)
  recorded answer answers := absurd answers (silent answer)
  finishing := finishing

/-- A block step that only moves the block's counter. -/
theorem Informing.reblock (inform : Informing e) {pc : BlockPc} (silent : ∀ answer, pc ≠ .answerStore answer)
    (finishing : pc.finishing → e.arena.shutdown) : Informing { e with block := pc } :=
  inform.block rfl rfl rfl id id silent finishing

/-- A kernel that waits, or has left its request, has not decided to close. -/
theorem Ownership.not_closing (own : Ownership e) (status : e.arena.mailbox.status = .published) :
    e.kernel.closing = false := by
  have staging := own.staging
  have consuming := own.consuming
  cases pc : e.kernel <;> simp_all [KernelPc.closing, KernelPc.standing]
  all_goals
    rename_i move
    cases move <;> simp_all [Move.standing]

theorem afterPoll_silent (returned : Bool) (site : PollSite) (answer : Answer) :
    Endpoint.afterPoll returned site ≠ .answerStore answer := by
  cases site <;> simp only [Endpoint.afterPoll] <;> split <;> simp

theorem blockStep_informing {fabricFailure : Option ResultCode} {draining : Bool} (own : Ownership e)
    (inform : Informing e) (stepped : e.blockStep fabricFailure draining = some e') : Informing e' := by
  have finishing : e'.block.finishing → e'.arena.shutdown := by
    intro now
    rcases blockStep_finishing stepped now with before | shutdown
    · exact (blockStep_frame stepped).shutdown (inform.finishing before)
    · exact shutdown
  cases pc : e.block with
  | openStore =>
    have dormant := (own.unopened (by simp [pc, BlockPc.hasOpened])).1
    have resting := own.detached (own.unopened (by simp [pc, BlockPc.hasOpened])).2
    simp only [Endpoint.blockStep, pc] at stepped
    cases stepped
    constructor <;> simp [Endpoint.setStatus, resting, KernelPc.closing, BlockPc.finishing]
  | pollFailure site =>
    simp only [Endpoint.blockStep, pc] at stepped
    split at stepped <;> cases stepped
    · exact inform.reblock (afterPoll_silent _ _) finishing
    · exact inform.reblock (by simp) finishing
  | pollStatus site code =>
    simp only [Endpoint.blockStep, pc] at stepped
    split at stepped <;> cases stepped <;> exact inform.reblock (by simp) finishing
  | pollResult site code =>
    simp only [Endpoint.blockStep, pc] at stepped
    split at stepped <;> cases stepped
    · exact inform.reblock (afterPoll_silent _ _) finishing
    · exact inform.reblock (by simp) finishing
  | pollPublish site code =>
    simp only [Endpoint.blockStep, pc] at stepped
    split at stepped
    · cases stepped
      exact inform.reblock (by simp) finishing
    · rename_i valid
      have failed : code ≠ .ok := by
        rintro rfl
        simp at valid
      split at stepped
      · cases stepped
        exact inform.block rfl rfl rfl (fun _ => Or.inl failed) (fun _ => failed) (afterPoll_silent _ _) finishing
      · split at stepped <;> cases stepped
        · exact inform.reblock (by simp) finishing
        · exact inform.reblock (afterPoll_silent _ _) finishing
  | publishShutdown =>
    simp only [Endpoint.blockStep, pc] at stepped
    cases stepped
    exact inform.block rfl rfl rfl (fun _ => Or.inr (Or.inl rfl)) id (by simp) finishing
  | finishCloseIdle =>
    have shutdown := inform.finishing (by simp [pc, BlockPc.finishing])
    have informed : e.Informed := Or.inr (Or.inl shutdown)
    simp only [Endpoint.blockStep, pc] at stepped
    split at stepped <;> cases stepped
    · constructor
      · intro _; exact informed
      · intro _; exact informed
      · simp [Endpoint.setStatus]
      · exact inform.publish
      · simp
      · intro _; exact shutdown
    · exact inform.reblock (by simp) finishing
  | answerWrite answer =>
    have published := own.answering (by simp [pc, BlockPc.answering])
    have closing := own.not_closing published
    simp only [Endpoint.blockStep, pc] at stepped
    cases stepped
    constructor
    · simp [published]
    · simp [closing]
    · simp [published]
    · exact inform.publish
    · simp
    · exact finishing
  | answerStore answer =>
    have published := own.answering (by simp [pc, BlockPc.answering])
    have closing := own.not_closing published
    have recorded := inform.recorded answer pc
    cases answer with
    | service result =>
      simp only [Endpoint.blockStep, pc] at stepped
      cases stepped
      constructor
      · simp [Endpoint.setStatus]
      · simp [Endpoint.setStatus, closing]
      · intro _ failed _
        refine Or.inr (Or.inr ?_)
        simpa [Endpoint.setStatus, recorded, Answer.result] using failed
      · exact inform.publish
      · simp
      · simp [BlockPc.finishing]
    | terminal result =>
      have shutdown := inform.finishing (by simp [pc, BlockPc.finishing])
      simp only [Endpoint.blockStep, pc] at stepped
      cases stepped
      constructor
      · simp [Endpoint.setStatus]
      · simp [Endpoint.setStatus, closing]
      · intro _ _ _
        exact Or.inr (Or.inl shutdown)
      · exact inform.publish
      · simp
      · intro _; exact shutdown
  | requestDrain resume =>
    cases resume <;> simp only [Endpoint.blockStep, pc] at stepped <;> cases stepped <;>
      exact inform.reblock (by simp) finishing
  | _ =>
    simp only [Endpoint.blockStep, pc] at stepped
    (try split at stepped) <;> (try split at stepped) <;> cases stepped <;>
      exact inform.reblock (by simp) finishing

theorem step_informing {layout : ArenaLayout} {fabricFailure : Option ResultCode} {draining : Bool}
    {action : Endpoint.Action Payload} (own : Ownership e) (inform : Informing e)
    (stepped : e.step layout fabricFailure draining action = some e') : Informing e' := by
  cases Endpoint.step_taken e stepped with
  | kernel stepped => exact kernelStep_informing own inform stepped
  | block stepped => exact blockStep_informing own inform stepped
  | execute result output pc valid =>
    exact inform.block rfl rfl rfl id id (by simp) (by simp [BlockPc.finishing])
  | reject result output pc => exact inform.reblock (by simp) (by simp [BlockPc.finishing])
  | start pc => exact inform.reblock (by simp) (by simp [BlockPc.finishing])
  | exit pc => exact inform.reblock (by simp) (fun _ => inform.finishing (by simp [pc, BlockPc.finishing]))
  | attach idle => exact { inform with }
  | launch request attached resting submits =>
    apply inform.kernel (KernelFrame.rekernel e (.readFailure request)) rfl rfl <;>
      simp [resting, KernelPc.closing, KernelPc.acknowledging]
  | expire wait failed =>
    apply inform.kernel (KernelFrame.fail e) rfl rfl <;>
      simp [wait, KernelPc.closing, KernelPc.acknowledging, Endpoint.fail]
  | abort wait unset =>
    apply inform.kernel (KernelFrame.rekernel e .aborted) rfl rfl <;>
      simp [wait, KernelPc.closing, KernelPc.acknowledging]

/-! ## Requests behind announced results -/

/-- No wait expires, and a request is launched only while the Resident owes the
endpoint no announcement, with DP row counts that fit the arena. -/
def announcesFirst {ι : Type*} (s : State ι Payload) : Event ι Payload → Bool
  | .act i (.launch request) => !(s.endpoint i).unannounced && request.converts
  | .act _ .expire => false
  | _ => true

/-- What a request knows before it has published, in such a run. -/
structure Prepared (e : Endpoint Payload) : Prop where
  calm : e.kernel.standing = .outside →
    e.arena.mailbox.status = .dormant ∨ e.arena.mailbox.status = .idle ∨ e.arena.mailbox.status = .closed
  paid : e.kernel.request?.isSome ∨ e.kernel.rechecking → e.unannounced = false
  rechecking : e.kernel.rechecking → e.arena.mailbox.status = .closed
  terminal : e.kernel = .readTerminalShutdown .ok → e.arena.shutdown
  converts : ∀ request, e.kernel.request? = some request → request.converts
  alive : e.kernel ≠ .aborted

/-- A kernel inside its round, or back from it with a released mailbox. -/
theorem Prepared.inside (standing : e.kernel.standing = .outside →
      e.arena.mailbox.status = .dormant ∨ e.arena.mailbox.status = .idle ∨ e.arena.mailbox.status = .closed)
    (request : e.kernel.request? = none) (rechecking : e.kernel.rechecking = false) (alive : e.kernel ≠ .aborted) :
    Prepared e where
  calm := standing
  paid := by simp [request, rechecking]
  rechecking := by simp [rechecking]
  terminal now := by simp [now, KernelPc.rechecking] at rechecking
  converts := by simp [request]
  alive := alive

/-- The checks of the Instance's transitions pass. -/
theorem Ownership.permits {arena : ArenaLayout} (own : Ownership e) (staged : Staged arena e) {move : Move}
    (pc : e.kernel = .check move) : move.permits e.arena.mailbox := by
  have staging := own.staging
  have consuming := own.consuming
  have filled := staged.filled
  cases move <;> simp_all [Move.permits, Move.expects, KernelPc.standing, Move.standing, KernelPc.filled]

/-- The steps of a request before it stages anything. -/
theorem claim_prepared (own : Ownership e) (inform : Informing e) (prepared : Prepared e)
    (outside : e.kernel.standing = .outside) (stepped : e.kernelStep = some e') : Prepared e' := by
  obtain ⟨calm, paid, rechecking, terminal, converts, alive⟩ := prepared
  have calm := calm outside
  cases pc : e.kernel with
  | readFailure request =>
    simp only [Endpoint.kernelStep, pc] at stepped
    cases stepped
    constructor <;> simp_all [KernelPc.request?, KernelPc.rechecking]
  | readShutdown request failure =>
    simp only [Endpoint.kernelStep, pc] at stepped
    split at stepped <;> cases stepped
    · exact .inside (fun _ => calm) rfl rfl (by simp [Endpoint.fail])
    · constructor <;> simp_all [KernelPc.request?, KernelPc.rechecking]
  | beginStaging request =>
    have ready := own.opened (own.opened_of_running (by simp [pc])).2
    simp only [Endpoint.kernelStep, pc] at stepped
    split at stepped <;> cases stepped
    · constructor <;> simp_all [KernelPc.request?, KernelPc.rechecking, KernelPc.standing, Endpoint.setStatus]
    · constructor <;> simp_all [KernelPc.request?, KernelPc.rechecking]
  | observeClosed =>
    have closed := rechecking (by simp [pc, KernelPc.rechecking])
    simp only [Endpoint.kernelStep, pc, closed] at stepped
    cases stepped
    constructor <;> simp_all [KernelPc.request?, KernelPc.rechecking]
  | readTerminalFailure =>
    have closed := rechecking (by simp [pc, KernelPc.rechecking])
    have paid := paid (Or.inr (by simp [pc, KernelPc.rechecking]))
    have explained : e.arena.generationFailure = .ok → e.arena.shutdown := by
      intro unset
      rcases inform.closed closed with failed | shutdown | owed
      · exact absurd unset failed
      · exact shutdown
      · simp [paid] at owed
    simp only [Endpoint.kernelStep, pc] at stepped
    cases stepped
    constructor <;> simp_all [KernelPc.request?, KernelPc.rechecking]
  | readTerminalShutdown failure =>
    simp only [Endpoint.kernelStep, pc] at stepped
    split at stepped <;> cases stepped
    · rename_i unexplained
      have shutdown := terminal (by rw [pc, unexplained.1])
      simp [shutdown] at unexplained
    · exact .inside (fun _ => calm) rfl rfl (by simp [Endpoint.fail])
  | _ => simp_all [KernelPc.standing, Endpoint.kernelStep]

theorem kernelStep_prepared {arena : ArenaLayout} (own : Ownership e) (staged : Staged arena e) (inform : Informing e)
    (prepared : Prepared e) (stepped : e.kernelStep = some e') : Prepared e' := by
  by_cases outside : e.kernel.standing = .outside
  · exact claim_prepared own inform prepared outside stepped
  obtain ⟨-, paid, -, -, converts, alive⟩ := prepared
  cases pc : e.kernel with
  | stageInput request =>
    simp only [Endpoint.kernelStep, pc] at stepped
    cases stepped
    constructor <;> simp_all [KernelPc.request?, KernelPc.rechecking, KernelPc.standing]
  | stageRows request =>
    have fits := converts request (by simp [pc, KernelPc.request?])
    simp only [Endpoint.kernelStep, pc, fits] at stepped
    cases stepped
    constructor <;> simp_all [KernelPc.request?, KernelPc.rechecking, KernelPc.standing]
  | check move =>
    have permits := own.permits staged pc
    simp only [Endpoint.kernelStep, pc, permits] at stepped
    cases stepped
    exact .inside (by simp_all [KernelPc.standing]) rfl rfl (by simp)
  | write move =>
    simp only [Endpoint.kernelStep, pc] at stepped
    cases stepped
    exact .inside (by simp_all [KernelPc.standing]) rfl rfl (by simp)
  | store move =>
    simp only [Endpoint.kernelStep, pc] at stepped
    cases stepped
    cases move <;>
      exact .inside (by simp [KernelPc.standing, Endpoint.setStatus, Move.target, Endpoint.afterMove]) rfl rfl
        (by simp [Endpoint.afterMove])
  | wait =>
    have waiting := own.waiting (by simp [pc, KernelPc.standing])
    simp only [Endpoint.kernelStep, pc] at stepped
    split at stepped
    · cases stepped
      exact .inside (by simp [KernelPc.standing]) rfl rfl (by simp)
    · simp_all
    · cases stepped
  | _ =>
    try exact absurd (by rw [pc]; rfl) outside
    all_goals
      simp only [Endpoint.kernelStep, pc] at stepped
      (try split at stepped) <;> cases stepped <;>
        exact .inside (by simp [KernelPc.standing, Move.standing]) rfl rfl (by simp)

/-- A block comes to owe an announcement only by answering. -/
theorem blockStep_unannounced {fabricFailure : Option ResultCode} {draining : Bool} (own : Ownership e)
    (stepped : e.blockStep fabricFailure draining = some e') (owes : e'.unannounced) :
    e.unannounced ∨ e.arena.mailbox.status = .published := by
  cases pc : e.block with
  | answerStore answer => exact Or.inr (own.answering (by simp [pc, BlockPc.answering]))
  | requestDrain resume =>
    cases resume <;> simp only [Endpoint.blockStep, pc] at stepped <;> cases stepped <;> exact Or.inl owes
  | _ =>
    simp only [Endpoint.blockStep, pc] at stepped
    (try split at stepped) <;> (try split at stepped) <;> (try split at stepped) <;> cases stepped <;>
      first
      | exact Or.inl owes
      | cases owes

/-- A request that is not waiting yet finds no Published mailbox. -/
theorem Prepared.not_published (prepared : Prepared e) (own : Ownership e)
    (before : e.kernel.request?.isSome ∨ e.kernel.rechecking) : e.arena.mailbox.status ≠ .published := by
  intro published
  have calm := prepared.calm
  have staging := own.staging
  cases pc : e.kernel <;> simp_all [KernelPc.request?, KernelPc.rechecking, KernelPc.standing]

theorem blockStep_prepared {fabricFailure : Option ResultCode} {draining : Bool} (own : Ownership e)
    (prepared : Prepared e) (stepped : e.blockStep fabricFailure draining = some e') : Prepared e' := by
  have frame := blockStep_frame stepped
  refine ⟨?_, ?_, ?_, ?_, ?_, ?_⟩
  · rw [frame.kernel]
    intro outside
    have calm := prepared.calm outside
    cases blockStep_effect own stepped with
    | quiet status _ _ _ => rw [status]; exact calm
    | ready _ after _ _ _ => exact Or.inr (Or.inl after)
    | answer before _ _ _ _ => simp [before] at calm
    | close _ after _ _ _ => exact Or.inr (Or.inr after)
  · rw [frame.kernel]
    intro running
    by_contra owes
    rcases blockStep_unannounced own stepped (by simpa using owes) with before | published
    · simp [prepared.paid running] at before
    · exact prepared.not_published own running published
  · rw [frame.kernel]
    intro rechecking
    have closed := prepared.rechecking rechecking
    cases blockStep_effect own stepped with
    | quiet status _ _ _ => rw [status]; exact closed
    | ready before _ _ _ _ => simp [closed] at before
    | answer before _ _ _ _ => simp [closed] at before
    | close before _ _ _ _ => simp [closed] at before
  · rw [frame.kernel]
    intro read
    exact frame.shutdown (prepared.terminal read)
  · rw [frame.kernel]
    exact prepared.converts
  · rw [frame.kernel]
    exact prepared.alive

theorem step_prepared {layout : ArenaLayout} {fabricFailure : Option ResultCode} {draining : Bool}
    {action : Endpoint.Action Payload} (own : Ownership e) (staged : Staged layout e) (inform : Informing e)
    (prepared : Prepared e) (unexpired : action ≠ .expire)
    (launches : ∀ request, action = .launch request → e.unannounced = false ∧ request.converts)
    (stepped : e.step layout fabricFailure draining action = some e') : Prepared e' := by
  cases Endpoint.step_taken e stepped with
  | kernel stepped => exact kernelStep_prepared own staged inform prepared stepped
  | block stepped => exact blockStep_prepared own prepared stepped
  | launch request attached resting submits =>
    obtain ⟨paid, converts⟩ := launches request rfl
    have calm := prepared.calm (by simp [resting, KernelPc.standing])
    constructor <;> simp [KernelPc.request?, KernelPc.rechecking, paid, converts, calm]
  | expire wait failed => exact absurd rfl unexpired
  | abort wait unset => exact absurd rfl unexpired
  | attach idle => exact { prepared with }
  | execute result output pc valid => exact { prepared with }
  | reject result output pc => exact { prepared with }
  | start pc => exact { prepared with }
  | exit pc => exact { prepared with }

/-! ## What the Resident owes -/

/-- While an announcement is owed neither word is set and the mailbox is Closed
or about to be. -/
structure Owing (draining : Bool) (e : Endpoint Payload) : Prop where
  drained : e.arena.generationFailure ≠ .ok → draining ∨ ∃ resume, e.block = .requestDrain resume
  serving : e.block.serving → e.arena.generationFailure = .ok
  shutdown : e.arena.shutdown → e.block.finishing
  owed : e.unannounced → e.arena.generationFailure = .ok ∧ e.arena.shutdown = false ∧
    (e.arena.mailbox.status = .closed ∨ e.arena.mailbox.status = .evaluated ∧ e.arena.mailbox.resultCode ≠ .ok ∧
      e.kernel.acknowledging = false)

/-- A kernel that reads a refused result closes the mailbox. -/
theorem kernelStep_refused (own : Ownership e) (unset : e.arena.generationFailure = .ok)
    (evaluated : e.arena.mailbox.status = .evaluated) (refused : e.arena.mailbox.resultCode ≠ .ok)
    (silent : e.kernel.acknowledging = false) (stepped : e.kernelStep = some e') :
    e'.arena.mailbox.status = .closed ∨ e'.arena.mailbox.status = .evaluated ∧ e'.arena.mailbox.resultCode ≠ .ok ∧
      e'.kernel.acknowledging = false := by
  have outside := own.outside
  have staging := own.staging
  cases pc : e.kernel with
  | readResult failure =>
    have failed : Endpoint.observedResult e.arena.mailbox.resultCode failure ≠ .ok := by
      simp only [Endpoint.observedResult, refused, false_or]
      split <;> assumption
    simp only [Endpoint.kernelStep, pc] at stepped
    rw [if_pos failed] at stepped
    cases stepped
    exact Or.inr ⟨evaluated, refused, rfl⟩
  | check move =>
    cases move <;> simp_all [KernelPc.acknowledging, KernelPc.standing, Move.standing, Endpoint.kernelStep, Move.permits,
      Move.expects]
    cases stepped
    exact Or.inr ⟨evaluated, refused, rfl⟩
  | write move =>
    cases move <;> simp_all [KernelPc.acknowledging, KernelPc.standing, Move.standing, Endpoint.kernelStep]
    cases stepped
    exact Or.inr ⟨evaluated, refused, rfl⟩
  | store move =>
    cases move <;> simp_all [KernelPc.acknowledging, KernelPc.standing, Move.standing, Endpoint.kernelStep]
    cases stepped
    exact Or.inl rfl
  | _ =>
    simp_all [KernelPc.acknowledging, KernelPc.standing, Endpoint.kernelStep]
    try
      cases stepped
      exact Or.inr ⟨evaluated, refused, rfl⟩

theorem kernelStep_owing {draining : Bool} (own : Ownership e) (owing : Owing draining e)
    (stepped : e.kernelStep = some e') : Owing draining e' := by
  have frame := kernelStep_frame stepped
  refine ⟨?_, ?_, ?_, ?_⟩
  · rw [frame.failure, frame.block]
    exact owing.drained
  · rw [frame.block, frame.failure]
    exact owing.serving
  · rw [frame.shutdown, frame.block]
    exact owing.shutdown
  · rw [frame.unannounced, frame.failure, frame.shutdown]
    intro owes
    obtain ⟨unset, running, closed | ⟨evaluated, refused, silent⟩⟩ := owing.owed owes
    · refine ⟨unset, running, Or.inl ?_⟩
      cases kernelStep_effect own stepped with
      | quiet status _ _ => rw [status]; exact closed
      | claim before _ _ _ => simp [closed] at before
      | publish _ before _ _ _ => simp [closed] at before
      | consume _ same _ _ => simp [closed] at same
      | release before _ _ _ => simp [closed] at before
      | abort status _ _ => rw [status]; exact closed
    · exact ⟨unset, running, kernelStep_refused own unset evaluated refused silent stepped⟩

/-- A block step that touches neither the mailbox nor the two words. -/
theorem Owing.reblock {draining : Bool} (owing : Owing draining e) {draining' : Bool} (raised : draining → draining')
    {pc : BlockPc} (drained : ∀ resume, e.block = .requestDrain resume → draining' ∨ ∃ resume, pc = .requestDrain resume)
    (serving : pc.serving → e.arena.generationFailure = .ok)
    (finishing : e.block.finishing → pc.finishing) : Owing draining' { e with block := pc } where
  drained failed := by
    rcases owing.drained failed with before | ⟨resume, asks⟩
    · exact Or.inl (raised before)
    · exact drained resume asks
  serving := serving
  shutdown now := finishing (owing.shutdown now)
  owed := owing.owed

theorem afterPoll_serving (returned : Bool) (site : PollSite) :
    (Endpoint.afterPoll returned site).serving = false := by
  cases site <;> simp only [Endpoint.afterPoll] <;> split <;> simp [BlockPc.serving]

theorem afterPoll_drains (site : PollSite) : ∃ resume, Endpoint.afterPoll true site = .requestDrain resume := by
  cases site <;> simp [Endpoint.afterPoll]

/-- Only a block that asks for drain raises the shared flag. -/
theorem drains_block : e.drains .block = true ↔ ∃ resume, e.block = .requestDrain resume := by
  cases pc : e.block <;> simp [Endpoint.drains, pc]

/-- Nothing is owed on a mailbox that is neither Evaluated nor Closed. -/
theorem Owing.paid {draining : Bool} (owing : Owing draining e) (evaluated : e.arena.mailbox.status ≠ .evaluated)
    (closed : e.arena.mailbox.status ≠ .closed) : e.unannounced = false := by
  by_contra owes
  obtain ⟨-, -, now | ⟨now, -⟩⟩ := owing.owed (by simpa using owes)
  · exact closed now
  · exact evaluated now

theorem answer_owing {draining : Bool} (own : Ownership e) (inform : Informing e) (owing : Owing draining e)
    {answer : Answer} (pc : e.block = .answerStore answer) {fabricFailure : Option ResultCode}
    (stepped : e.blockStep fabricFailure draining = some e') : Owing draining e' := by
  have published := own.answering (by simp [pc, BlockPc.answering])
  have recorded := inform.recorded answer pc
  have drained : e.arena.generationFailure ≠ .ok → draining := by
    intro failed
    rcases owing.drained failed with before | ⟨resume, asks⟩
    · exact before
    · simp [pc] at asks
  cases answer with
  | service result =>
    have unset := owing.serving (by simp [pc, BlockPc.serving])
    have running : e.arena.shutdown = false := by
      by_contra shutdown
      have finishing := owing.shutdown (by simpa using shutdown)
      simp [pc, BlockPc.finishing] at finishing
    have silent : e.kernel.acknowledging = false := by
      have consuming := own.consuming
      cases counter : e.kernel <;> simp_all [KernelPc.acknowledging, KernelPc.standing]
      all_goals
        rename_i move
        cases move <;> simp_all [Move.standing]
    simp only [Endpoint.blockStep, pc] at stepped
    cases stepped
    refine ⟨fun failed => absurd unset failed, fun _ => unset, fun now => ?_, fun refused => ⟨unset, running, Or.inr ?_⟩⟩
    · simp [Endpoint.setStatus, running] at now
    · refine ⟨rfl, ?_, silent⟩
      simpa [Endpoint.setStatus, recorded, Answer.result] using refused
  | terminal result =>
    have paid := owing.paid (by simp [published]) (by simp [published])
    simp only [Endpoint.blockStep, pc] at stepped
    cases stepped
    refine ⟨fun failed => Or.inl (drained failed), by simp [BlockPc.serving], by simp [BlockPc.finishing], ?_⟩
    simp [Endpoint.setStatus, paid]

theorem blockStep_owing {fabricFailure : Option ResultCode} {draining : Bool} (own : Ownership e) (inform : Informing e)
    (owing : Owing draining e) (alive : e'.block ≠ .aborted)
    (stepped : e.blockStep fabricFailure draining = some e') : Owing (draining || e.drains .block) e' := by
  by_cases asks : ∃ resume, e.block = .requestDrain resume
  · obtain ⟨resume, pc⟩ := asks
    have drains := (drains_block (e := e)).mpr ⟨resume, pc⟩
    cases resume <;> simp only [Endpoint.blockStep, pc] at stepped <;> cases stepped <;>
      exact owing.reblock (by simp +contextual) (by simp [drains]) (by simp [BlockPc.serving])
        (by simp [pc, BlockPc.finishing])
  -- Every other step leaves the drain flag alone.
  have same : (draining || e.drains .block) = draining := by
    have quiet : e.drains .block = false := by
      by_contra drains
      exact asks (drains_block.mp (by simpa using drains))
    simp [quiet]
  rw [same]
  have moves (pc : BlockPc) (serving : pc.serving → e.arena.generationFailure = .ok)
      (finishing : e.block.finishing → pc.finishing) : Owing draining { e with block := pc } :=
    owing.reblock id (fun resume now => absurd ⟨resume, now⟩ asks) serving finishing
  cases pc : e.block with
  | openStore =>
    have dormant := (own.unopened (by simp [pc, BlockPc.hasOpened])).1
    have paid := owing.paid (by simp [dormant]) (by simp [dormant])
    have kept := moves .opened (by simp [BlockPc.serving]) (by simp [pc, BlockPc.finishing])
    simp only [Endpoint.blockStep, pc] at stepped
    cases stepped
    exact { kept with owed := by simp [Endpoint.setStatus, paid] }
  | pollFailure site =>
    simp only [Endpoint.blockStep, pc] at stepped
    split at stepped <;> cases stepped
    · exact moves _ (by simp [afterPoll_serving]) (by simp [pc, BlockPc.finishing])
    · exact moves _ (by simp [BlockPc.serving]) (by simp [pc, BlockPc.finishing])
  | pollResult site code =>
    simp only [Endpoint.blockStep, pc] at stepped
    split at stepped <;> cases stepped
    · exact moves _ (by simp [afterPoll_serving]) (by simp [pc, BlockPc.finishing])
    · exact moves _ (by simp [BlockPc.serving]) (by simp [pc, BlockPc.finishing])
  | pollPublish site code =>
    simp only [Endpoint.blockStep, pc] at stepped
    split at stepped
    · cases stepped
      exact absurd rfl alive
    · split at stepped
      · cases stepped
        refine ⟨fun _ => Or.inr (afterPoll_drains site), by simp [afterPoll_serving], fun now => ?_, by simp⟩
        have finishing := owing.shutdown now
        simp [pc, BlockPc.finishing] at finishing
      · split at stepped <;> cases stepped
        · exact absurd rfl alive
        · exact moves _ (by simp [afterPoll_serving]) (by simp [pc, BlockPc.finishing])
  | readDraining =>
    simp only [Endpoint.blockStep, pc] at stepped
    cases stepped
    refine moves _ ?_ (by simp [pc, BlockPc.finishing])
    intro serving
    by_contra failed
    rcases owing.drained failed with before | now
    · simp [before, BlockPc.serving] at serving
    · exact asks now
  | readStatus stop =>
    have serving := owing.serving
    simp only [Endpoint.blockStep, pc] at stepped
    split at stepped
    · cases stepped
      exact moves _ (by simp [BlockPc.serving]) (by simp [pc, BlockPc.finishing])
    · split at stepped <;> cases stepped <;>
        exact moves _ (by simp_all [BlockPc.serving]) (by simp [pc, BlockPc.finishing])
  | publishShutdown =>
    have kept := moves .finishObserve (by simp [BlockPc.serving]) (by simp [pc, BlockPc.finishing])
    simp only [Endpoint.blockStep, pc] at stepped
    cases stepped
    exact { kept with
      shutdown := by simp [BlockPc.finishing]
      owed := by simp }
  | finishCloseIdle =>
    have kept := moves .converged (by simp [BlockPc.serving]) (by simp [BlockPc.finishing])
    simp only [Endpoint.blockStep, pc] at stepped
    split at stepped <;> cases stepped
    · rename_i idle
      have paid := owing.paid (by simp [idle]) (by simp [idle])
      exact { kept with owed := by simp [Endpoint.setStatus, paid] }
    · exact moves _ (by simp [BlockPc.serving]) (by simp [BlockPc.finishing])
  | answerCheck answer =>
    have serving := owing.serving
    simp only [Endpoint.blockStep, pc] at stepped
    split at stepped <;> cases stepped
    · exact absurd rfl alive
    · cases answer <;> exact moves _ (by simp_all [BlockPc.serving]) (by simp [pc, BlockPc.finishing])
  | answerWrite answer =>
    have published := own.answering (by simp [pc, BlockPc.answering])
    have paid := owing.paid (by simp [published]) (by simp [published])
    have serving := owing.serving
    have kept := moves (.answerStore answer) (by cases answer <;> simp_all [BlockPc.serving])
      (by cases answer <;> simp [pc, BlockPc.finishing])
    simp only [Endpoint.blockStep, pc] at stepped
    cases stepped
    exact { kept with owed := by simp [paid] }
  | answerStore answer => exact answer_owing own inform owing pc stepped
  | requestDrain resume => exact absurd ⟨resume, pc⟩ asks
  | _ =>
    simp only [Endpoint.blockStep, pc] at stepped
    (try split at stepped) <;> cases stepped <;>
      first
      | exact absurd rfl alive
      | exact moves _ (by simp [BlockPc.serving]) (by simp [pc, BlockPc.finishing])

theorem step_owing {layout : ArenaLayout} {fabricFailure : Option ResultCode} {draining : Bool}
    {action : Endpoint.Action Payload} (own : Ownership e) (inform : Informing e) (owing : Owing draining e)
    (alive : e'.block ≠ .aborted) (stepped : e.step layout fabricFailure draining action = some e') :
    Owing (draining || e.drains action) e' := by
  have quiet (other : action ≠ .block) : (draining || e.drains action) = draining := by
    cases action <;> simp_all [Endpoint.drains]
  cases Endpoint.step_taken e stepped with
  | block stepped => exact blockStep_owing own inform owing alive stepped
  | kernel stepped => rw [quiet (by simp)]; exact kernelStep_owing own owing stepped
  | execute result output pc valid =>
    rw [quiet (by simp)]
    have unset := owing.serving (by simp [pc, BlockPc.serving])
    have answers : Owing draining { e with block := .answerCheck (.service result) } :=
      owing.reblock id (by simp [pc]) (fun _ => unset) (by simp [pc, BlockPc.finishing])
    exact { answers with }
  | reject result output pc =>
    rw [quiet (by simp)]
    have unset := owing.serving (by simp [pc, BlockPc.serving])
    exact owing.reblock id (by simp [pc]) (fun _ => unset) (by simp [pc, BlockPc.finishing])
  | start pc =>
    rw [quiet (by simp)]
    exact owing.reblock id (by simp [pc]) (by simp [BlockPc.serving]) (by simp [pc, BlockPc.finishing])
  | exit pc =>
    rw [quiet (by simp)]
    exact owing.reblock id (by simp [pc]) (by simp [BlockPc.serving]) (by simp [BlockPc.finishing])
  | attach idle => rw [quiet (by simp)]; exact { owing with }
  | launch request attached resting submits =>
    rw [quiet (by simp)]
    refine { owing with owed := ?_ }
    intro owes
    obtain ⟨unset, running, now⟩ := owing.owed owes
    exact ⟨unset, running, by simpa [resting, KernelPc.acknowledging] using now⟩
  | expire wait failed =>
    rw [quiet (by simp)]
    refine { owing with owed := ?_ }
    intro owes
    exact absurd (owing.owed owes).1 failed
  | abort wait unset =>
    rw [quiet (by simp)]
    refine { owing with owed := ?_ }
    intro owes
    obtain ⟨-, running, now⟩ := owing.owed owes
    exact ⟨unset, running, by simpa [wait, KernelPc.acknowledging] using now⟩

/-! ## Runs -/

section Runs

variable {ι : Type*} [DecidableEq ι] [Fintype ι] {layout : ι → ArenaLayout} {s : State ι Payload}

/-- The invariants of every run, expired waits included. -/
structure Sound (fabricFailure : Option ResultCode) (draining : Bool) (e : Endpoint Payload) : Prop where
  own : Ownership e
  canonical : Canonical fabricFailure e
  informing : Informing e
  owing : Owing draining e

theorem create_sound (zero : Payload) : Sound none false (Endpoint.create zero) where
  own := create_ownership zero
  canonical := by constructor <;> simp [Endpoint.create, Arena.create, BlockPc.polled]
  informing := by constructor <;> simp [Endpoint.create, Arena.create, KernelPc.closing, BlockPc.finishing]
  owing := by constructor <;> simp [Endpoint.create, Arena.create]

theorem step_sound {arena : ArenaLayout} {fabricFailure : Option ResultCode} {draining : Bool}
    {action : Endpoint.Action Payload} (sound : Sound fabricFailure draining e)
    (stepped : e.step arena fabricFailure draining action = some e') :
    Sound fabricFailure (draining || e.drains action) e' := by
  have canonical := step_canonical sound.own sound.canonical stepped
  exact ⟨step_ownership sound.own stepped, canonical, step_informing sound.own sound.informing stepped,
    step_owing sound.own sound.informing sound.owing canonical.alive stepped⟩

theorem Sound.drain {fabricFailure : Option ResultCode} (sound : Sound fabricFailure false e) :
    Sound fabricFailure true e :=
  { sound with owing := { sound.owing with drained := fun _ => Or.inl rfl } }

theorem Sound.fail {draining : Bool} {code : ResultCode} (valid : code = .protocolMismatch ∨ code = .timeout)
    (sound : Sound none draining e) : Sound (some code) draining e := by
  obtain ⟨-, failure, polled, alive⟩ := sound.canonical
  refine { sound with canonical := ⟨?_, ?_, ?_, alive⟩ }
  · intro other same
    cases same
    exact valid
  · rcases failure with unset | set
    · exact Or.inl unset
    · cases set
  · intro other read
    cases polled other read

theorem reachable_sound {guard : State ι Payload → Event ι Payload → Prop}
    (reached : (transport layout).ReachableUnder guard s) (i : ι) : Sound s.fabricFailure s.draining (s.endpoint i) :=
  endpoint_invariant (fun _ => Sound) (fun _ zero => create_sound zero) (fun _ _ _ _ _ sound stepped => step_sound sound stepped)
    (fun _ _ _ sound => sound.drain) (fun _ _ _ _ valid sound => sound.fail valid) reached i

theorem reachable_prepared (reached : (transport layout).ReachableUnder (fun s event => announcesFirst s event) s) (i : ι) :
    Prepared (s.endpoint i) := by
  induction reached with
  | start init =>
    obtain ⟨-, -, zero, endpoint⟩ := init
    rw [endpoint]
    exact .inside (by simp [Endpoint.create, Arena.create]) rfl rfl (by simp [Endpoint.create])
  | @next s t event before meets taken ih =>
    rcases step_endpoint taken i with same | ⟨action, event, stepped⟩
    · rw [same]
      exact ih
    · subst event
      have sound := reachable_sound before i
      refine step_prepared sound.own (reachable_staged before i) sound.informing ih ?_ ?_ stepped
      · intro expires
        simp [expires, announcesFirst] at meets
      · intro request launches
        simpa [launches, announcesFirst] using meets

/-- A request launched while an announcement is owed runs into its abort. -/
theorem unannounced_launch_aborts (reached : (transport layout).Reachable s) {i : ι} (attached : (s.endpoint i).attached)
    (resting : (s.endpoint i).kernel = .resting) (owes : (s.endpoint i).unannounced) {request : Request Payload}
    (submits : (layout i).submits request) :
    ∃ t, (transport layout).Later s t ∧ (t.endpoint i).kernel = .aborted := by
  have sound := reachable_sound reached i
  obtain ⟨unset, running, now⟩ := sound.owing.owed owes
  have closed : (s.endpoint i).arena.mailbox.status = .closed := by
    have outside := sound.own.outside (by simp [resting, KernelPc.standing])
    rcases now with closed | ⟨evaluated, -⟩
    · exact closed
    · simp [evaluated, unset] at outside
  have launched : (s.endpoint i).step (layout i) s.fabricFailure s.draining (.launch request) =
      some { s.endpoint i with kernel := .readFailure request } := by
    simp [Endpoint.step, attached, resting, KernelPc.isResting, submits]
  obtain ⟨t, first, endpoint⟩ := later_act layout (.launch request) rfl launched
  have runs : Endpoint.kernelSteps 6 (t.endpoint i) = some { s.endpoint i with kernel := .aborted } := by
    simp [endpoint, Endpoint.kernelSteps, Endpoint.kernelStep, unset, running, closed]
  obtain ⟨u, second, endpoint'⟩ := later_kernelSteps layout runs
  exact ⟨u, first.trans second, by rw [endpoint']⟩

/-- A request whose DP row counts do not fit aborts once it is staged. -/
theorem unconverted_launch_aborts {i : ι} (attached : (s.endpoint i).attached)
    (resting : (s.endpoint i).kernel = .resting) (unset : (s.endpoint i).arena.generationFailure = .ok)
    (running : (s.endpoint i).arena.shutdown = false) (idle : (s.endpoint i).arena.mailbox.status = .idle)
    {request : Request Payload} (submits : (layout i).submits request) (unfit : request.converts = false) :
    ∃ t, (transport layout).Later s t ∧ (t.endpoint i).kernel = .aborted := by
  have launched : (s.endpoint i).step (layout i) s.fabricFailure s.draining (.launch request) =
      some { s.endpoint i with kernel := .readFailure request } := by
    simp [Endpoint.step, attached, resting, KernelPc.isResting, submits]
  obtain ⟨t, first, endpoint⟩ := later_act layout (.launch request) rfl launched
  have runs : ∃ e, Endpoint.kernelSteps 5 (t.endpoint i) = some e ∧ e.kernel = .aborted := by
    simp [endpoint, Endpoint.kernelSteps, Endpoint.kernelStep, unset, running, idle, Endpoint.setStatus, unfit]
  obtain ⟨e, runs, aborted⟩ := runs
  obtain ⟨u, second, endpoint'⟩ := later_kernelSteps layout runs
  exact ⟨u, first.trans second, by rw [endpoint', aborted]⟩

end Runs

/-- Where requests start only behind announced results, with row counts that fit,
and no wait expires, neither side aborts, and a request that finds Closed finds
the reason too. A request launched otherwise can abort, from every reachable
state. -/
theorem failure_never_aborts {ι : Type*} [DecidableEq ι] [Fintype ι] (layout : ι → ArenaLayout) (s : State ι Payload)
    (i : ι) :
    ((transport layout).ReachableUnder (fun s event => announcesFirst s event) s →
      (s.endpoint i).kernel ≠ .aborted ∧ (s.endpoint i).block ≠ .aborted ∧
        ((s.endpoint i).kernel.rechecking → (s.endpoint i).arena.mailbox.status = .closed ∧
          ((s.endpoint i).arena.generationFailure ≠ .ok ∨ (s.endpoint i).arena.shutdown))) ∧
    ((transport layout).Reachable s → (s.endpoint i).attached → (s.endpoint i).kernel = .resting →
      ∀ request : Request Payload, (layout i).submits request →
        (s.endpoint i).unannounced ∨ request.converts = false ∧ (s.endpoint i).arena.mailbox.status = .idle ∧
          (s.endpoint i).arena.generationFailure = .ok ∧ (s.endpoint i).arena.shutdown = false →
        ∃ t, (transport layout).Later s t ∧ (t.endpoint i).kernel = .aborted) := by
  refine ⟨?_, ?_⟩
  · intro reached
    have sound := reachable_sound reached i
    have prepared := reachable_prepared reached i
    refine ⟨prepared.alive, sound.canonical.alive, ?_⟩
    intro rechecking
    have closed := prepared.rechecking rechecking
    refine ⟨closed, ?_⟩
    rcases sound.informing.closed closed with failed | shutdown | owes
    · exact Or.inl failed
    · exact Or.inr shutdown
    · simp [prepared.paid (Or.inr rechecking)] at owes
  · intro reached attached resting request submits reason
    rcases reason with owes | ⟨unfit, idle, unset, running⟩
    · exact unannounced_launch_aborts reached attached resting owes submits
    · exact unconverted_launch_aborts attached resting unset running idle submits unfit

/-! ## Requests around a failure and around a drain -/

/-- Fabric fails canonically; the block finds the published request, Fabric returns
the failure for it, and the block publishes it as the result. -/
def timedOutExecution : List (Event Unit Unit) :=
  List.replicate 3 (.act () .block) ++ [.fabricFails .timeout, .act () (.execute .timeout ())] ++
    List.replicate 3 (.act () .block)

/-- The steps of a run that keeps to `announcesFirst`. -/
def announcedNext (s : State Unit Unit) (event : Event Unit Unit) : Option (State Unit Unit) :=
  if announcesFirst s event then s.next (fun _ => oneRowLayout) event else none

/-- A request loses its Idle mailbox to the draining Resident and finds the
shutdown flag. -/
theorem failure_never_aborts_lostIdle :
    ∃ s : State Unit Unit, (transport fun _ => oneRowLayout).ReachableUnder (fun s event => announcesFirst s event) s ∧
      (s.endpoint ()).kernel.rechecking ∧ (s.endpoint ()).kernel ≠ .aborted ∧
      ((s.endpoint ()).arena.generationFailure ≠ .ok ∨ (s.endpoint ()).arena.shutdown) := by
  have agrees (s : State Unit Unit) (event : Event Unit Unit) (t : State Unit Unit)
      (taken : announcedNext s event = some t) :
      announcesFirst s event ∧ (transport fun _ => oneRowLayout).step s event t := by
    unfold announcedNext at taken
    split at taken
    · exact ⟨by assumption, taken⟩
    · cases taken
  have start : (transport fun _ => oneRowLayout).ReachableUnder (fun s event => announcesFirst s event) created :=
    .start ⟨rfl, rfl, (), rfl⟩
  obtain ⟨s, reached, rechecking⟩ := start.run announcedNext agrees
    (attachment ++ request 2 ++ [.drain] ++ List.replicate 6 (.act () .block) ++ [.act () .kernel])
    (fun s => (s.endpoint ()).kernel.rechecking) (by decide)
  obtain ⟨alive, -, explained⟩ := (failure_never_aborts (fun _ => oneRowLayout) s ()).1 reached
  exact ⟨s, reached, rechecking, alive, (explained rechecking).2⟩

/-- The next request after a failed one aborts: its mailbox is Closed, and the
Resident has published neither failure nor shutdown. -/
theorem next_request_aborts :
    ∃ s : State Unit Unit, (transport fun _ => oneRowLayout).Reachable s ∧ (s.endpoint ()).kernel = .aborted ∧
      (s.endpoint ()).arena.mailbox.status = .closed ∧ (s.endpoint ()).arena.generationFailure = .ok ∧
      (s.endpoint ()).arena.shutdown = false := by
  have start : (transport fun _ => oneRowLayout).Reachable created := .start ⟨rfl, rfl, (), rfl⟩
  obtain ⟨s, reached, aborted⟩ := start.run (State.next fun _ => oneRowLayout)
    (fun _ _ _ taken => ⟨trivial, taken⟩)
    (attachment ++ request 11 ++ timedOutExecution ++ List.replicate 6 (.act () .kernel) ++ request 6)
    (fun s => (s.endpoint ()).kernel = .aborted && (s.endpoint ()).arena.mailbox.status = .closed &&
      (s.endpoint ()).arena.generationFailure = .ok && !(s.endpoint ()).arena.shutdown) (by decide)
  simp only [Bool.and_eq_true, decide_eq_true_eq, Bool.not_eq_eq_eq_not, Bool.not_true] at aborted
  obtain ⟨⟨⟨aborts, closed⟩, unset⟩, running⟩ := aborted
  exact ⟨s, reached, aborts, closed, unset, running⟩

end CrossPool.Transport
