import CrossPool.Transport.Drain

/-!
# Round integrity

A `Chronicle` is the history of one endpoint: for each published request, what
the Resident executed and answered. The status word takes eight transitions, each
by one party, and every round is executed and answered at most once. An Ok output
is the one that executing the request of the same round produced: the contents of
the mailbox are the launched request from publication to answer, and the output
stays until the Instance has copied it.
-/

namespace CrossPool.Transport

open CrossPool.Control (ResultCode)
open CrossPool.Lib

variable {Payload : Type*}

/-! ## Transitions of the status word -/

/-- The transitions of the Instance. -/
def MailboxStatus.instanceMoves : MailboxStatus → MailboxStatus → Bool
  | idle, staging => true
  | staging, published => true
  | staging, closed => true
  | evaluated, idle => true
  | evaluated, closed => true
  | _, _ => false

/-- The transitions of the Resident. -/
def MailboxStatus.residentMoves : MailboxStatus → MailboxStatus → Bool
  | dormant, idle => true
  | published, evaluated => true
  | idle, closed => true
  | _, _ => false

section Transitions

variable {e e' : Endpoint Payload}

theorem kernelStep_status (own : Ownership e) (stepped : e.kernelStep = some e') :
    e'.arena.mailbox.status = e.arena.mailbox.status ∨
      e.arena.mailbox.status.instanceMoves e'.arena.mailbox.status := by
  cases pc : e.kernel with
  | store move =>
    right
    simp only [Endpoint.kernelStep, pc] at stepped
    cases stepped
    have staging := own.staging
    have consuming := own.consuming
    simp only [pc, KernelPc.standing] at staging consuming
    cases move with
    | publishRequest => rw [staging rfl]; rfl
    | acknowledge => rw [consuming rfl]; rfl
    | closeStaging => rw [staging rfl]; rfl
    | closeEvaluated => rw [consuming rfl]; rfl
  | beginStaging request =>
    simp only [Endpoint.kernelStep, pc] at stepped
    split at stepped
    · rename_i idle
      cases stepped
      right
      rw [idle]
      rfl
    · cases stepped
      exact Or.inl rfl
  | _ =>
    left
    simp only [Endpoint.kernelStep, pc] at stepped
    (try split at stepped) <;> cases stepped <;> first | rfl | simp

theorem blockStep_status {fabricFailure : Option ResultCode} {draining : Bool} (own : Ownership e)
    (stepped : e.blockStep fabricFailure draining = some e') :
    e'.arena.mailbox.status = e.arena.mailbox.status ∨
      e.arena.mailbox.status.residentMoves e'.arena.mailbox.status := by
  cases blockStep_effect own stepped with
  | quiet status => exact Or.inl status
  | ready before after => exact Or.inr (by rw [before, after]; rfl)
  | answer before after => exact Or.inr (by rw [before, after]; rfl)
  | close before after => exact Or.inr (by rw [before, after]; rfl)

end Transitions

/-! ## Contents of the mailbox -/

/-- What a request consists of once it is staged. -/
structure Contents (Payload : Type*) where
  input : Payload
  payloadRows : Nat
  dpRankPayloadRows : List Nat
  request : Option RequestMetadata

/-- What the Resident reads of a published request. -/
def Arena.contents (arena : Arena Payload) : Contents Payload :=
  ⟨arena.inputPayload, arena.mailbox.payloadRows, arena.dpRankPayloadRows, arena.mailbox.request⟩

/-- What the kernel stages of its request. -/
def Request.contents (request : Request Payload) : Contents Payload :=
  ⟨request.hiddenStates, request.payloadRows, request.dpRankPayloadRows.map Int.toNat, some request.metadata⟩

/-- Where a block reads the request: to execute it, or to close its round. -/
def BlockPc.readsRequest : BlockPc → Bool
  | execute => true
  | finishReadFailure => true
  | _ => false

section Contents

variable {e e' : Endpoint Payload}

/-- The kernel writes request fields while it stages, and clears them as it
acknowledges. -/
theorem kernelStep_contents (own : Ownership e) (stepped : e.kernelStep = some e') :
    e'.arena.contents = e.arena.contents ∨ e.arena.mailbox.status = .staging ∨
      e.kernel = .write .acknowledge ∧ e.arena.mailbox.status = .evaluated := by
  have staging := own.staging
  have consuming := own.consuming
  cases pc : e.kernel with
  | stageInput request => exact Or.inr (Or.inl (staging (by rw [pc]; rfl)))
  | stageRows request => exact Or.inr (Or.inl (staging (by rw [pc]; rfl)))
  | stageMetadata request => exact Or.inr (Or.inl (staging (by rw [pc]; rfl)))
  | write move =>
    cases move with
    | acknowledge => exact Or.inr (Or.inr ⟨rfl, consuming (by rw [pc]; rfl)⟩)
    | _ =>
      left
      simp only [Endpoint.kernelStep, pc] at stepped
      cases stepped
      rfl
  | _ =>
    left
    simp only [Endpoint.kernelStep, pc] at stepped
    (try split at stepped) <;> cases stepped <;> rfl

/-- The Resident never writes request fields. -/
theorem blockStep_contents {fabricFailure : Option ResultCode} {draining : Bool}
    (stepped : e.blockStep fabricFailure draining = some e') : e'.arena.contents = e.arena.contents := by
  unfold Endpoint.blockStep at stepped
  split at stepped <;> (try split at stepped) <;> (try split at stepped) <;> (try split at stepped) <;>
    (try cases stepped) <;> rfl

end Contents

/-! ## The history of an endpoint -/

/-- One call of Fabric: the request it read, and what it returned. -/
structure Execution (Payload : Type*) where
  contents : Contents Payload
  result : ResultCode
  output : Payload

/-- One published request, with everything the Resident did about it. -/
structure Round (Payload : Type*) where
  launched : Request Payload
  executions : List (Execution Payload)
  answers : List ResultCode

/-- The request launched last, and the published ones, newest first. -/
structure Chronicle (Payload : Type*) where
  launched : Option (Request Payload)
  rounds : List (Round Payload)

namespace Chronicle

/-- Write to the newest round. -/
def onLast (h : Chronicle Payload) (f : Round Payload → Round Payload) : Chronicle Payload :=
  match h.rounds with
  | [] => h
  | round :: rest => { h with rounds := f round :: rest }

/-- What an action adds to the history. -/
def note (layout : ArenaLayout) (e : Endpoint Payload) (h : Chronicle Payload) : Endpoint.Action Payload → Chronicle Payload
  | .launch request => { h with launched := some request }
  | .kernel =>
    match e.kernel, h.launched with
    | .store .publishRequest, some request => { h with rounds := ⟨request, [], []⟩ :: h.rounds }
    | _, _ => h
  | .execute result output =>
    if layout.requestValid e.arena.mailbox then
      h.onLast fun round => { round with executions := ⟨e.arena.contents, result, output⟩ :: round.executions }
    else h
  | .block =>
    match e.block with
    | .answerStore answer => h.onLast fun round => { round with answers := answer.result :: round.answers }
    | _ => h
  | _ => h

/-- `output` is what executing the request launched last gave, and that request
was answered with Ok. -/
def Delivered (h : Chronicle Payload) (output : Payload) : Prop :=
  ∃ round rest, h.rounds = round :: rest ∧ h.launched = some round.launched ∧
    round.executions = [⟨round.launched.contents, .ok, output⟩] ∧ round.answers = [.ok]

end Chronicle

/-- The answer a block is about to store. -/
def BlockPc.answer? : BlockPc → Option Answer
  | answerCheck answer => some answer
  | answerWrite answer => some answer
  | answerStore answer => some answer
  | _ => none

/-- Where the kernel's output is that of its own round, or none. -/
def KernelPc.settled : KernelPc Payload → Bool
  | resting => true
  | readAcknowledgeShutdown => true
  | check move => move ≠ .publishRequest
  | write move => move ≠ .publishRequest
  | store move => move ≠ .publishRequest
  | _ => false

/-- What the Instance has staged so far. -/
structure Staging (e : Endpoint Payload) (h : Chronicle Payload) : Prop where
  pending : ∀ request, e.kernel.request? = some request → h.launched = some request
  input : ∀ request, e.kernel = .stageRows request ∨ e.kernel = .stageMetadata request →
    e.arena.inputPayload = request.hiddenStates
  rows : ∀ request, e.kernel = .stageMetadata request →
    e.arena.dpRankPayloadRows = request.dpRankPayloadRows.map Int.toNat
  filled : e.kernel.filled → ∃ request, h.launched = some request ∧ e.arena.contents = request.contents

/-- The newest round while its request is published. -/
structure Open (e : Endpoint Payload) (round : Round Payload) : Prop where
  contents : e.arena.contents = round.launched.contents
  unanswered : round.answers = []
  fresh : e.block.answer? = none → round.executions = []
  once : round.executions.length ≤ 1
  ok : ∀ answer, e.block.answer? = some answer → answer.result = .ok →
    round.executions = [⟨round.launched.contents, .ok, e.arena.outputPayload⟩]
  result : ∀ answer, e.block = .answerStore answer → e.arena.mailbox.resultCode = answer.result

/-- The newest round once it is answered. -/
structure Answered (e : Endpoint Payload) (round : Round Payload) : Prop where
  once : round.executions.length ≤ 1
  answer : ∃ code, round.answers = [code] ∧ (e.kernel ≠ .store .acknowledge → e.arena.mailbox.resultCode = code) ∧
    (code = .ok → round.executions = [⟨round.launched.contents, .ok, e.arena.outputPayload⟩])

/-- An endpoint agrees with its history. -/
structure Recorded (e : Endpoint Payload) (h : Chronicle Payload) : Prop where
  staging : Staging e h
  published : e.arena.mailbox.status = .published → ∃ round rest, h.rounds = round :: rest ∧ Open e round
  evaluated : e.arena.mailbox.status = .evaluated → ∃ round rest, h.rounds = round :: rest ∧ Answered e round
  current : e.kernel.standing = .waiting ∨ e.kernel.standing = .consuming →
    ∃ round rest, h.rounds = round :: rest ∧ h.launched = some round.launched
  copying : e.kernel = .copyOutput → e.arena.mailbox.resultCode = .ok
  settled : e.kernel.settled → ∀ output, e.hiddenOutput = some output → h.Delivered output
  bounded : ∀ round ∈ h.rounds, round.executions.length ≤ 1 ∧ round.answers.length ≤ 1
  terminal : ∀ code, e.block.answer? = some (.terminal code) → code ≠ .ok

/-! ## Steps of the Instance -/

section Kernel

variable {layout : ArenaLayout} {e e' : Endpoint Payload} {h : Chronicle Payload}

theorem kernelStep_output (stepped : e.kernelStep = some e') : e'.arena.outputPayload = e.arena.outputPayload := by
  unfold Endpoint.kernelStep at stepped
  split at stepped <;> (try split at stepped) <;> (try cases stepped) <;> rfl

theorem kernelStep_result (stepped : e.kernelStep = some e') :
    e'.arena.mailbox.resultCode = e.arena.mailbox.resultCode ∨ e.kernel.standing = .staging ∨
      e.kernel = .write .acknowledge ∧ e'.kernel = .store .acknowledge := by
  cases pc : e.kernel with
  | recordResult code => exact Or.inr (Or.inl rfl)
  | write move =>
    simp only [Endpoint.kernelStep, pc] at stepped
    cases stepped
    cases move with
    | acknowledge => exact Or.inr (Or.inr ⟨rfl, rfl⟩)
    | _ => exact Or.inl rfl
  | _ =>
    left
    simp only [Endpoint.kernelStep, pc] at stepped
    (try split at stepped) <;> cases stepped <;> rfl

theorem kernelStep_staging (staging : Staging e h) (stepped : e.kernelStep = some e') : Staging e' h := by
  obtain ⟨pending, input, rows, filled⟩ := staging
  cases pc : e.kernel with
  | stageMetadata request =>
    have held := pending request (by rw [pc]; rfl)
    have input := input request (Or.inr pc)
    have rows := rows request pc
    simp only [Endpoint.kernelStep, pc] at stepped
    cases stepped
    refine ⟨(by intros; contradiction), (by simp), (by simp), fun _ => ⟨request, held, ?_⟩⟩
    simp [Arena.contents, Request.contents, input, rows]
  | stageInput request =>
    have held := pending request (by rw [pc]; rfl)
    simp only [Endpoint.kernelStep, pc] at stepped
    cases stepped
    constructor <;> simp [KernelPc.request?, KernelPc.filled, held]
  | stageRows request =>
    have held := pending request (by rw [pc]; rfl)
    have input := input request (Or.inl pc)
    simp only [Endpoint.kernelStep, pc] at stepped
    split at stepped <;> cases stepped <;> constructor <;> simp [KernelPc.request?, KernelPc.filled, held, input]
  | check move =>
    simp only [Endpoint.kernelStep, pc] at stepped
    split at stepped <;> cases stepped <;> cases move <;>
      constructor <;> simp_all [KernelPc.request?, KernelPc.filled]
  | write move =>
    simp only [Endpoint.kernelStep, pc] at stepped
    cases stepped
    cases move <;> constructor <;> simp_all [KernelPc.request?, KernelPc.filled, Move.fields, Arena.contents]
  | store move =>
    simp only [Endpoint.kernelStep, pc] at stepped
    cases stepped
    cases move <;> constructor <;> simp [KernelPc.request?, KernelPc.filled, Endpoint.afterMove]
  | _ =>
    simp only [Endpoint.kernelStep, pc] at stepped
    (try split at stepped) <;> cases stepped <;> constructor <;>
      simp_all [KernelPc.request?, KernelPc.filled, Endpoint.fail, Endpoint.setStatus]

/-- A kernel in the second half of a round was there before, or published it. -/
theorem kernelStep_current (stepped : e.kernelStep = some e') (quiet : e.kernel ≠ .store .publishRequest)
    (late : e'.kernel.standing = .waiting ∨ e'.kernel.standing = .consuming) :
    e.kernel.standing = .waiting ∨ e.kernel.standing = .consuming := by
  cases pc : e.kernel with
  | store move =>
    simp only [Endpoint.kernelStep, pc] at stepped
    cases stepped
    cases move <;> simp_all [KernelPc.standing, Endpoint.afterMove]
  | _ =>
    simp only [Endpoint.kernelStep, pc] at stepped
    (try split at stepped) <;> cases stepped <;>
      simp_all [KernelPc.standing, Endpoint.fail, Move.standing]

theorem kernelStep_copying (stepped : e.kernelStep = some e') (copying : e'.kernel = .copyOutput) :
    e'.arena.mailbox.resultCode = .ok := by
  cases pc : e.kernel with
  | readResult failure =>
    simp only [Endpoint.kernelStep, pc] at stepped
    split at stepped
    · cases stepped
      cases copying
    · rename_i ok
      cases stepped
      rw [not_not] at ok
      unfold Endpoint.observedResult at ok
      split at ok
      · exact ok
      · rename_i neither
        exact absurd (Or.inr ok) neither
  | store move =>
    simp only [Endpoint.kernelStep, pc] at stepped
    cases stepped
    cases move <;> cases copying
  | _ =>
    simp only [Endpoint.kernelStep, pc] at stepped
    (try split at stepped) <;> cases stepped <;> cases copying

/-- What a settled kernel holds, it held before, or it has just copied it. -/
theorem kernelStep_settled' (stepped : e.kernelStep = some e') (settled : e'.kernel.settled) {output : Payload}
    (held : e'.hiddenOutput = some output) :
    e.kernel.settled ∧ e.hiddenOutput = some output ∨ e.kernel = .copyOutput ∧ output = e.arena.outputPayload := by
  cases pc : e.kernel with
  | copyOutput =>
    simp only [Endpoint.kernelStep, pc] at stepped
    cases stepped
    exact Or.inr ⟨rfl, (Option.some.inj held).symm⟩
  | store move =>
    simp only [Endpoint.kernelStep, pc] at stepped
    cases stepped
    cases move <;> simp_all [KernelPc.settled, Endpoint.afterMove, Endpoint.setStatus]
  | _ =>
    left
    simp only [Endpoint.kernelStep, pc] at stepped
    (try split at stepped) <;> cases stepped <;> simp_all [KernelPc.settled, Endpoint.fail]

theorem note_kernel (quiet : e.kernel ≠ .store .publishRequest) : h.note layout e .kernel = h := by
  simp only [Chronicle.note]
  split
  · rename_i pc _
    exact absurd pc quiet
  · rfl

/-- A published round is not touched by the kernel. -/
theorem Open.kernel {round : Round Payload} (opened : Open e round) (own : Ownership e)
    (published : e.arena.mailbox.status = .published) (stepped : e.kernelStep = some e') : Open e' round := by
  have block := (kernelStep_frame stepped).block
  have contents : e'.arena.contents = e.arena.contents := by
    rcases kernelStep_contents own stepped with same | staging | ⟨-, evaluated⟩
    · exact same
    · rw [published] at staging
      cases staging
    · rw [published] at evaluated
      cases evaluated
  have result : e'.arena.mailbox.resultCode = e.arena.mailbox.resultCode := by
    rcases kernelStep_result stepped with same | staging | ⟨pc, -⟩
    · exact same
    · have status := own.staging staging
      rw [published] at status
      cases status
    · have status := own.consuming (by rw [pc]; rfl)
      rw [published] at status
      cases status
  refine ⟨contents.trans opened.contents, opened.unanswered, ?_, opened.once, ?_, ?_⟩
  · rw [block]
    exact opened.fresh
  · rw [block, kernelStep_output stepped]
    exact opened.ok
  · rw [block, result]
    exact opened.result

theorem Answered.kernel {round : Round Payload} (answered : Answered e round) (own : Ownership e)
    (stepped : e.kernelStep = some e') (evaluated : e'.arena.mailbox.status = .evaluated)
    (before : e.arena.mailbox.status = .evaluated) : Answered e' round := by
  obtain ⟨once, code, answers, result, ok⟩ := answered
  refine ⟨once, code, answers, fun unstored => ?_, ?_⟩
  · rcases kernelStep_result stepped with same | staging | ⟨-, storing⟩
    · rw [same]
      apply result
      -- a stored acknowledgement leaves Evaluated
      intro pc
      simp only [Endpoint.kernelStep, pc] at stepped
      cases stepped
      cases evaluated
    · have status := own.staging staging
      rw [before] at status
      cases status
    · exact absurd storing unstored
  · rw [kernelStep_output stepped]
    exact ok

theorem kernelStep_recorded (own : Ownership e) (recorded : Recorded e h) (stepped : e.kernelStep = some e') :
    Recorded e' (h.note layout e .kernel) := by
  have block := (kernelStep_frame stepped).block
  by_cases publishing : e.kernel = .store .publishRequest
  · -- The round begins: its request is in the mailbox, and no block is answering.
    obtain ⟨request, launched, contents⟩ := recorded.staging.filled (by rw [publishing]; rfl)
    have status := own.staging (by rw [publishing]; rfl)
    have silent : e.block.answering = false := by
      by_contra answering
      have published := own.answering (by simpa using answering)
      rw [status] at published
      cases published
    have unanswering : e.block.answer? = none := by
      revert silent
      cases e.block <;> simp [BlockPc.answering, BlockPc.answer?]
    have noted : h.note layout e .kernel = { h with rounds := ⟨request, [], []⟩ :: h.rounds } := by
      simp only [Chronicle.note, publishing, launched]
    have staged := kernelStep_staging recorded.staging stepped
    simp only [Endpoint.kernelStep, publishing] at stepped
    cases stepped
    rw [noted]
    refine ⟨⟨(by intros; contradiction), by simp [Endpoint.afterMove], by simp [Endpoint.afterMove], by simp [Endpoint.afterMove, KernelPc.filled]⟩,
      fun _ => ⟨_, _, rfl, contents, rfl, fun _ => rfl, by simp, ?_, ?_⟩, (by intros; contradiction), fun _ => ⟨_, _, rfl, launched⟩, (by intros; contradiction), (by intros; contradiction),
      ?_, ?_⟩
    · intro answer found
      rw [show e.block.answer? = some answer from found] at unanswering
      cases unanswering
    · intro answer found
      rw [show e.block = .answerStore answer from found] at unanswering
      cases unanswering
    · intro round listed
      rcases List.mem_cons.mp listed with rfl | listed
      · simp
      · exact recorded.bounded round listed
    · exact recorded.terminal
  · rw [note_kernel publishing]
    refine ⟨kernelStep_staging recorded.staging stepped, ?_, ?_, ?_, kernelStep_copying stepped, ?_, recorded.bounded, ?_⟩
    · intro published
      rcases kernelStep_status own stepped with same | move
      · obtain ⟨round, rest, rounds, opened⟩ := recorded.published (same.symm.trans published)
        exact ⟨round, rest, rounds, opened.kernel own (same.symm.trans published) stepped⟩
      · cases kernelStep_effect own stepped with
        | publish pc => exact absurd pc publishing
        | quiet status => rw [status] at move; revert move; cases e.arena.mailbox.status <;> simp [MailboxStatus.instanceMoves]
        | claim _ after => rw [published] at after; cases after
        | consume status => rw [published] at status; cases status
        | release _ after => rcases after with after | after <;> rw [published] at after <;> cases after
        | abort status => rw [status] at move; revert move; cases e.arena.mailbox.status <;> simp [MailboxStatus.instanceMoves]
    · intro evaluated
      have before : e.arena.mailbox.status = .evaluated := by
        rcases kernelStep_status own stepped with same | move
        · exact same.symm.trans evaluated
        · rw [evaluated] at move
          revert move
          cases e.arena.mailbox.status <;> simp [MailboxStatus.instanceMoves]
      obtain ⟨round, rest, rounds, answered⟩ := recorded.evaluated before
      exact ⟨round, rest, rounds, answered.kernel own stepped evaluated before⟩
    · exact fun late => recorded.current (kernelStep_current stepped publishing late)
    · intro settled output held
      rcases kernelStep_settled' stepped settled held with ⟨before, same⟩ | ⟨pc, rfl⟩
      · exact recorded.settled before output same
      · have status := own.consuming (by rw [pc]; rfl)
        obtain ⟨round, rest, rounds, -, code, answers, result, ok⟩ := recorded.evaluated status
        obtain ⟨round', rest', rounds', launched⟩ := recorded.current (Or.inr (by rw [pc]; rfl))
        rw [rounds] at rounds'
        obtain ⟨rfl, rfl⟩ := List.cons.inj rounds'
        have code_ok : code = .ok := by
          rw [← result (by rw [pc]; simp)]
          exact recorded.copying pc
        subst code_ok
        exact ⟨round, rest, rounds, launched, ok rfl, answers⟩
    · rw [block]
      exact recorded.terminal

end Kernel

/-! ## Steps of the Resident -/

section Block

variable {layout : ArenaLayout} {fabricFailure : Option ResultCode} {draining : Bool} {e e' : Endpoint Payload}
  {h : Chronicle Payload}

/-- What a step of the block leaves of the payloads. -/
theorem blockStep_payloads (stepped : e.blockStep fabricFailure draining = some e') :
    e'.arena.inputPayload = e.arena.inputPayload ∧ e'.arena.outputPayload = e.arena.outputPayload ∧
      e'.arena.dpRankPayloadRows = e.arena.dpRankPayloadRows ∧ e'.hiddenOutput = e.hiddenOutput := by
  unfold Endpoint.blockStep at stepped
  split at stepped <;> (try split at stepped) <;> (try split at stepped) <;> (try split at stepped) <;>
    (try cases stepped) <;> exact ⟨rfl, rfl, rfl, rfl⟩

theorem terminalResult_ne_ok (failure : ResultCode) : Endpoint.terminalResult failure ≠ .ok := by
  cases failure <;> decide

theorem afterPoll_answer? (returned : Bool) (site : PollSite) : (Endpoint.afterPoll returned site).answer? = none := by
  cases site <;> simp only [Endpoint.afterPoll] <;> split <;> rfl

/-- An answer in preparation stays the same, and a new one is a terminal one. -/
theorem blockStep_answer? (own : Ownership e) (stepped : e.blockStep fabricFailure draining = some e')
    (unstored : ∀ answer, e.block ≠ .answerStore answer) :
    e'.block.answer? = e.block.answer? ∨
      e.block.answer? = none ∧ ∃ code, e'.block.answer? = some (.terminal code) ∧ code ≠ .ok := by
  cases pc : e.block with
  | answerStore answer => exact absurd pc (unstored answer)
  | answerCheck answer =>
    have published := own.answering (by rw [pc]; rfl)
    simp only [Endpoint.blockStep, pc, published] at stepped
    cases stepped
    exact Or.inl rfl
  | finishReadFailure =>
    simp only [Endpoint.blockStep, pc] at stepped
    cases stepped
    exact Or.inr ⟨rfl, _, rfl, terminalResult_ne_ok _⟩
  | requestDrain resume =>
    left
    cases resume <;>
    · simp only [Endpoint.blockStep, pc] at stepped
      cases stepped
      rfl
  | _ =>
    left
    simp only [Endpoint.blockStep, pc] at stepped
    (try split at stepped) <;> (try split at stepped) <;> (try split at stepped) <;> cases stepped <;>
      first | rfl | exact afterPoll_answer? _ _

/-- A result is written only to a published request. -/
theorem blockStep_result (stepped : e.blockStep fabricFailure draining = some e') :
    (∀ answer, e'.block = .answerStore answer → e'.arena.mailbox.resultCode = answer.result) ∧
      (e.block.answering = false → e'.arena.mailbox.resultCode = e.arena.mailbox.resultCode) := by
  have returned (site : PollSite) (code : Bool) (answer : Answer) : Endpoint.afterPoll code site ≠ .answerStore answer := by
    intro stores
    have silent := afterPoll_answer? code site
    rw [stores] at silent
    cases silent
  cases pc : e.block with
  | answerWrite answer =>
    simp only [Endpoint.blockStep, pc] at stepped
    cases stepped
    refine ⟨?_, (by intros; contradiction)⟩
    rintro stored ⟨⟩
    rfl
  | answerStore answer =>
    cases answer <;>
    · simp only [Endpoint.blockStep, pc] at stepped
      cases stepped
      exact ⟨(by simp), (by intros; contradiction)⟩
  | requestDrain resume =>
    cases resume <;>
    · simp only [Endpoint.blockStep, pc] at stepped
      cases stepped
      exact ⟨(by simp), fun _ => rfl⟩
  | _ =>
    simp only [Endpoint.blockStep, pc] at stepped
    (try split at stepped) <;> (try split at stepped) <;> (try split at stepped) <;> cases stepped <;>
      refine ⟨fun answer stores => ?_, fun _ => rfl⟩ <;>
        first | exact absurd stores (returned _ _ answer) | cases stores

/-- Only a stored answer counts as one. -/
theorem blockStep_unanswered (stepped : e.blockStep fabricFailure draining = some e')
    (unstored : ∀ answer, e.block ≠ .answerStore answer) : e'.answered = e.answered := by
  cases pc : e.block with
  | answerStore answer => exact absurd pc (unstored answer)
  | requestDrain resume =>
    cases resume <;>
    · simp only [Endpoint.blockStep, pc] at stepped
      cases stepped
      rfl
  | _ =>
    simp only [Endpoint.blockStep, pc] at stepped
    (try split at stepped) <;> (try split at stepped) <;> (try split at stepped) <;> cases stepped <;> rfl

theorem note_block (unstored : ∀ answer, e.block ≠ .answerStore answer) : h.note layout e .block = h := by
  simp only [Chronicle.note]

theorem Staging.same (staging : Staging e h) {h' : Chronicle Payload} (kernel : e'.kernel = e.kernel)
    (contents : e'.arena.contents = e.arena.contents) (launched : h'.launched = h.launched) : Staging e' h' := by
  have input : e'.arena.inputPayload = e.arena.inputPayload := congrArg Contents.input contents
  have rows : e'.arena.dpRankPayloadRows = e.arena.dpRankPayloadRows := congrArg Contents.dpRankPayloadRows contents
  refine ⟨?_, ?_, ?_, ?_⟩
  · rw [kernel, launched]
    exact staging.pending
  · rw [kernel, input]
    exact staging.input
  · rw [kernel, rows]
    exact staging.rows
  · rw [kernel, contents, launched]
    exact staging.filled

/-- A round without an answer has delivered nothing. -/
theorem Open.undelivered {round : Round Payload} {rest : List (Round Payload)} (opened : Open e round)
    (rounds : h.rounds = round :: rest) (output : Payload) : ¬ h.Delivered output := by
  rintro ⟨other, others, same, -, -, answers⟩
  rw [rounds] at same
  obtain ⟨rfl, -⟩ := List.cons.inj same
  rw [opened.unanswered] at answers
  cases answers

/-- The block stores its answer: the round is over. -/
theorem answerStore_recorded (own : Ownership e) (recorded : Recorded e h) {answer : Answer}
    (pc : e.block = .answerStore answer) (stepped : e.blockStep fabricFailure draining = some e') :
    Recorded e' (h.note layout e .block) := by
  have status := own.answering (by rw [pc]; rfl)
  obtain ⟨round, rest, rounds, opened⟩ := recorded.published status
  have noted : h.note layout e .block = ⟨h.launched, { round with answers := [answer.result] } :: rest⟩ := by
    simp only [Chronicle.note, pc, Chronicle.onLast, rounds, opened.unanswered]
  have kernel := (blockStep_frame stepped).kernel
  have contents := blockStep_contents stepped
  obtain ⟨-, output, -, hidden⟩ := blockStep_payloads stepped
  have after : e'.arena.mailbox.status = .evaluated ∧ e'.block.answer? = none ∧
      e'.arena.mailbox.resultCode = e.arena.mailbox.resultCode := by
    cases answer <;>
    · simp only [Endpoint.blockStep, pc] at stepped
      cases stepped
      exact ⟨rfl, rfl, rfl⟩
  have before {standing : Standing} (part : e'.kernel.standing = standing) : e.kernel.standing = standing := by
    rwa [kernel] at part
  rw [noted]
  refine ⟨recorded.staging.same kernel contents rfl, ?_, fun _ => ⟨_, _, rfl, opened.once, _, rfl, fun _ => ?_, ?_⟩, ?_, ?_, ?_,
    ?_, ?_⟩
  · intro published
    rw [after.1] at published
    cases published
  · rw [after.2.2]
    exact opened.result answer pc
  · intro ok
    rw [output]
    exact opened.ok answer (by rw [pc]; rfl) ok
  · intro late
    rw [kernel] at late
    obtain ⟨round', rest', rounds', launched⟩ := recorded.current late
    rw [rounds] at rounds'
    obtain ⟨rfl, rfl⟩ := List.cons.inj rounds'
    exact ⟨_, _, rfl, launched⟩
  · intro copying
    rw [kernel] at copying
    have evaluated := own.consuming (by rw [copying]; rfl)
    rw [status] at evaluated
    cases evaluated
  · intro settled result held
    rw [kernel] at settled
    rw [hidden] at held
    exact absurd (recorded.settled settled result held) (opened.undelivered rounds result)
  · intro other listed
    rcases List.mem_cons.mp listed with rfl | listed
    · exact ⟨opened.once, by simp⟩
    · exact recorded.bounded other (by rw [rounds]; exact List.mem_cons_of_mem _ listed)
  · intro code found
    rw [after.2.1] at found
    cases found

theorem blockStep_recorded (own : Ownership e) (recorded : Recorded e h)
    (stepped : e.blockStep fabricFailure draining = some e') : Recorded e' (h.note layout e .block) := by
  by_cases storing : ∃ answer, e.block = .answerStore answer
  · obtain ⟨answer, pc⟩ := storing
    exact answerStore_recorded own recorded pc stepped
  have unstored : ∀ answer, e.block ≠ .answerStore answer := fun answer pc => storing ⟨answer, pc⟩
  rw [note_block unstored]
  have kernel := (blockStep_frame stepped).kernel
  have contents := blockStep_contents stepped
  obtain ⟨-, output, -, hidden⟩ := blockStep_payloads stepped
  obtain ⟨stored, unchanged⟩ := blockStep_result stepped
  have answer := blockStep_answer? own stepped unstored
  refine ⟨recorded.staging.same kernel contents rfl, ?_, ?_, ?_, ?_, ?_, recorded.bounded, ?_⟩
  · intro published
    have before : e.arena.mailbox.status = .published := by
      rcases blockStep_status own stepped with same | move
      · exact same.symm.trans published
      · rw [published] at move
        revert move
        cases e.arena.mailbox.status <;> simp [MailboxStatus.residentMoves]
    obtain ⟨round, rest, rounds, opened⟩ := recorded.published before
    refine ⟨round, rest, rounds, contents.trans opened.contents, opened.unanswered, ?_, opened.once, ?_, stored⟩
    · intro none
      rcases answer with same | ⟨-, code, found, -⟩
      · exact opened.fresh (same.symm.trans none)
      · rw [found] at none
        cases none
    · intro prepared found ok
      rcases answer with same | ⟨-, code, terminal, nonzero⟩
      · rw [output]
        exact opened.ok prepared (same.symm.trans found) ok
      · rw [terminal] at found
        obtain rfl := Option.some.inj found
        exact absurd ok nonzero
  · intro evaluated
    have before : e.arena.mailbox.status = .evaluated ∧ e.block.answering = false := by
      cases blockStep_effect own stepped with
      | quiet status answered opened answering =>
        refine ⟨status.symm.trans evaluated, ?_⟩
        by_contra answers
        have published := own.answering (by simpa using answers)
        rw [status, published] at evaluated
        cases evaluated
      | ready _ after => rw [evaluated] at after; cases after
      | close _ after => rw [evaluated] at after; cases after
      | answer published after =>
        exfalso
        rcases blockStep_status own stepped with same | move
        · rw [evaluated, published] at same
          cases same
        · -- only a stored answer leads from Published to Evaluated
          have moved : e.answered + 1 = e'.answered := by
            cases blockStep_effect own stepped with
            | answer _ _ answered => exact answered.symm
            | quiet status => rw [evaluated, published] at status; cases status
            | ready _ after => rw [evaluated] at after; cases after
            | close _ after => rw [evaluated] at after; cases after
          have still := blockStep_unanswered stepped unstored
          omega
    obtain ⟨round, rest, rounds, once, code, answers, result, ok⟩ := recorded.evaluated before.1
    refine ⟨round, rest, rounds, once, code, answers, fun unstored => ?_, ?_⟩
    · rw [unchanged before.2]
      rw [kernel] at unstored
      exact result unstored
    · rw [output]
      exact ok
  · rw [kernel]
    exact recorded.current
  · intro copying
    rw [kernel] at copying
    rw [unchanged ?_]
    · exact recorded.copying copying
    · by_contra answers
      have published := own.answering (by simpa using answers)
      have evaluated := own.consuming (by rw [copying]; rfl)
      rw [published] at evaluated
      cases evaluated
  · rw [kernel, hidden]
    exact recorded.settled
  · intro code found
    rcases answer with same | ⟨-, other, terminal, nonzero⟩
    · exact recorded.terminal code (same.symm.trans found)
    · rw [terminal] at found
      obtain rfl := Answer.terminal.inj (Option.some.inj found)
      exact nonzero

end Block

/-! ## Whole runs -/

section Steps

variable {layout : ArenaLayout} {fabricFailure : Option ResultCode} {draining : Bool} {e e' : Endpoint Payload}
  {h : Chronicle Payload}

theorem create_recorded (zero : Payload) : Recorded (Endpoint.create zero) ⟨none, []⟩ := by
  refine ⟨⟨nofun, nofun, nofun, nofun⟩, nofun, nofun, nofun, nofun, fun _ => nofun, nofun, nofun⟩

/-- A kernel that is outside of a round has its last output or none. -/
theorem Recorded.launch (recorded : Recorded e h) (resting : e.kernel = .resting)
    (request : Request Payload) :
    Recorded { e with kernel := .readFailure request } { h with launched := some request } := by
  refine ⟨⟨?_, nofun, nofun, nofun⟩, ?_, ?_, nofun, nofun, nofun, recorded.bounded, recorded.terminal⟩
  · rintro held ⟨⟩
    rfl
  · intro published
    obtain ⟨round, rest, rounds, opened⟩ := recorded.published published
    exact ⟨round, rest, rounds, opened.contents, opened.unanswered, opened.fresh, opened.once, opened.ok, opened.result⟩
  · intro evaluated
    obtain ⟨round, rest, rounds, once, code, answers, result, ok⟩ := recorded.evaluated evaluated
    exact ⟨round, rest, rounds, once, code, answers, fun _ => result (by rw [resting]; nofun), ok⟩

/-- The kernel leaves its round without an output. -/
theorem Recorded.leave (recorded : Recorded e h) (wait : e.kernel = .wait)
    (left : e' = e.fail ∨ e' = { e with kernel := .aborted }) : Recorded e' h := by
  have unstored : e.kernel ≠ .store .acknowledge := by
    rw [wait]
    nofun
  have staging : Staging e' h := by
    rcases left with rfl | rfl <;> exact ⟨nofun, nofun, nofun, nofun⟩
  have arena : e'.arena = e.arena ∧ e'.block = e.block := by
    rcases left with rfl | rfl <;> exact ⟨rfl, rfl⟩
  refine ⟨staging, ?_, ?_, ?_, ?_, ?_, recorded.bounded, ?_⟩
  · rw [arena.1]
    intro published
    obtain ⟨round, rest, rounds, contents, unanswered, fresh, once, ok, result⟩ := recorded.published published
    refine ⟨round, rest, rounds, ?_, unanswered, ?_, once, ?_, ?_⟩
    · rw [arena.1]
      exact contents
    · rw [arena.2]
      exact fresh
    · rw [arena.1, arena.2]
      exact ok
    · rw [arena.1, arena.2]
      exact result
  · rw [arena.1]
    intro evaluated
    obtain ⟨round, rest, rounds, once, code, answers, result, ok⟩ := recorded.evaluated evaluated
    refine ⟨round, rest, rounds, once, code, answers, fun _ => ?_, ?_⟩
    · rw [arena.1]
      exact result unstored
    · rw [arena.1]
      exact ok
  · rcases left with rfl | rfl <;> nofun
  · rcases left with rfl | rfl <;> nofun
  · rcases left with rfl | rfl <;> nofun
  · rw [arena.2]
    exact recorded.terminal

/-- The block moves on without an answer in preparation. -/
theorem Recorded.reblock (recorded : Recorded e h) {pc : BlockPc} (before : e.block.answer? = none)
    (after : pc.answer? = none) : Recorded { e with block := pc } h := by
  obtain ⟨⟨pending, input, rows, filled⟩, published, evaluated, current, copying, settled, bounded, terminal⟩ := recorded
  refine ⟨⟨pending, input, rows, filled⟩, ?_, ?_, current, copying, settled, bounded, ?_⟩
  · intro status
    obtain ⟨round, rest, rounds, opened⟩ := published status
    refine ⟨round, rest, rounds, opened.contents, opened.unanswered, fun _ => opened.fresh before, opened.once, ?_, ?_⟩
    · intro answer found
      rw [show pc.answer? = some answer from found] at after
      cases after
    · intro answer stores
      rw [show pc = .answerStore answer from stores] at after
      cases after
  · intro status
    obtain ⟨round, rest, rounds, once, code, answers, result, ok⟩ := evaluated status
    exact ⟨round, rest, rounds, once, code, answers, result, ok⟩
  · intro code found
    rw [show pc.answer? = some (.terminal code) from found] at after
    cases after

/-- Fabric returns: the round has its one execution. -/
theorem Recorded.execute (own : Ownership e) (recorded : Recorded e h) (pc : e.block = .execute)
    (valid : layout.requestValid e.arena.mailbox) (result : ResultCode) (output : Payload) :
    Recorded
      { e with
        arena.outputPayload := output
        block := .answerCheck (.service result) }
      (h.note layout e (.execute result output)) := by
  have status := own.answering (by rw [pc]; rfl)
  obtain ⟨round, rest, rounds, opened⟩ := recorded.published status
  have fresh := opened.fresh (by rw [pc]; rfl)
  have noted : h.note layout e (.execute result output) =
      ⟨h.launched, { round with executions := [⟨e.arena.contents, result, output⟩] } :: rest⟩ := by
    simp only [Chronicle.note, valid, if_true, Chronicle.onLast, rounds, fresh]
  obtain ⟨⟨pending, input, rows, filled⟩, -, -, current, copying, settled, bounded, -⟩ := recorded
  rw [noted]
  refine ⟨⟨pending, input, rows, filled⟩, fun _ => ⟨_, _, rfl, opened.contents, opened.unanswered, nofun, by simp, ?_, nofun⟩,
    ?_, ?_, copying, ?_, ?_, nofun⟩
  · rintro answer ⟨⟩ ok
    rw [show result = .ok from ok, opened.contents]
  · intro evaluated
    rw [show e.arena.mailbox.status = .evaluated from evaluated] at status
    cases status
  · intro late
    obtain ⟨round', rest', rounds', launched⟩ := current late
    rw [rounds] at rounds'
    obtain ⟨rfl, rfl⟩ := List.cons.inj rounds'
    exact ⟨_, _, rfl, launched⟩
  · intro standing held found
    exact absurd (settled standing held found) (opened.undelivered rounds held)
  · intro other listed
    rcases List.mem_cons.mp listed with rfl | listed
    · simp [opened.unanswered]
    · exact bounded other (by rw [rounds]; exact List.mem_cons_of_mem _ listed)

/-- A request that fails validation is answered without an execution. -/
theorem Recorded.reject (own : Ownership e) (recorded : Recorded e h) (pc : e.block = .execute) :
    Recorded { e with block := .answerCheck (.service .protocolMismatch) } h := by
  have status := own.answering (by rw [pc]; rfl)
  obtain ⟨⟨pending, input, rows, filled⟩, published, -, current, copying, settled, bounded, -⟩ := recorded
  refine ⟨⟨pending, input, rows, filled⟩, ?_, ?_, current, copying, settled, bounded, nofun⟩
  · intro _
    obtain ⟨round, rest, rounds, opened⟩ := published status
    refine ⟨round, rest, rounds, opened.contents, opened.unanswered, nofun, opened.once, ?_, nofun⟩
    rintro answer ⟨⟩ ok
    cases ok
  · intro evaluated
    rw [show e.arena.mailbox.status = .evaluated from evaluated] at status
    cases status

/-- Every action at an endpoint is recorded. -/
theorem step_recorded {action : Endpoint.Action Payload} (own : Ownership e) (recorded : Recorded e h)
    (stepped : e.step layout fabricFailure draining action = some e') : Recorded e' (h.note layout e action) := by
  cases Endpoint.step_taken e stepped with
  | kernel stepped => exact kernelStep_recorded own recorded stepped
  | block stepped => exact blockStep_recorded own recorded stepped
  | launch request attached resting submits => exact recorded.launch resting request
  | expire wait failed => exact recorded.leave wait (Or.inl rfl)
  | abort wait unset => exact recorded.leave wait (Or.inr rfl)
  | execute result output pc valid => exact recorded.execute own pc valid result output
  | reject result output pc =>
    -- The endpoint would hold the output if the request had passed.
    simp only [Endpoint.step, Endpoint.executeStep, pc, if_true] at stepped
    by_cases valid : layout.requestValid e.arena.mailbox
    · rw [if_pos valid, Option.some.injEq] at stepped
      rw [← stepped]
      exact recorded.execute own pc valid result output
    · have noted : h.note layout e (.execute result output) = h := by
        simp only [Chronicle.note, valid, Bool.false_eq_true, if_false]
      rw [noted]
      exact recorded.reject own pc
  | start pc => exact recorded.reblock (by rw [pc]; rfl) rfl
  | exit pc => exact recorded.reblock (by rw [pc]; rfl) rfl
  | attach _ =>
    obtain ⟨⟨pending, input, rows, filled⟩, published, evaluated, current, copying, settled, bounded, terminal⟩ := recorded
    refine ⟨⟨pending, input, rows, filled⟩, ?_, ?_, current, copying, settled, bounded, terminal⟩
    · intro status
      obtain ⟨round, rest, rounds, opened⟩ := published status
      exact ⟨round, rest, rounds, opened.contents, opened.unanswered, opened.fresh, opened.once, opened.ok, opened.result⟩
    · intro status
      obtain ⟨round, rest, rounds, once, answer⟩ := evaluated status
      exact ⟨round, rest, rounds, once, answer⟩

end Steps

variable {ι : Type*} [DecidableEq ι] [Fintype ι]

/-- A state of the transport with the history of each of its endpoints. -/
structure Annals (ι Payload : Type*) where
  state : State ι Payload
  history : ι → Chronicle Payload

namespace Annals

/-- One event, noted in the history of the endpoint it happens at. -/
def next (layout : ι → ArenaLayout) (a : Annals ι Payload) (event : Event ι Payload) : Option (Annals ι Payload) :=
  (a.state.next layout event).map fun s =>
    match event with
    | .act i action => ⟨s, Function.update a.history i ((a.history i).note (layout i) (a.state.endpoint i) action)⟩
    | _ => ⟨s, a.history⟩

end Annals

/-- The transport with its history. -/
def chronicled (layout : ι → ArenaLayout) : System (Annals ι Payload) (Event ι Payload) where
  init a := (transport layout).init a.state ∧ a.history = fun _ => ⟨none, []⟩
  step a event b := a.next layout event = some b

variable {layout : ι → ArenaLayout} {a b : Annals ι Payload} {event : Event ι Payload}

/-- An event with its note. -/
theorem chronicled_step (taken : (chronicled layout).step a event b) :
    (transport layout).step a.state event b.state ∧ ∀ i, b.history i = a.history i ∧ b.state.endpoint i = a.state.endpoint i ∨
      ∃ action, event = .act i action ∧ b.history i = (a.history i).note (layout i) (a.state.endpoint i) action ∧
        (a.state.endpoint i).step (layout i) a.state.fabricFailure a.state.draining action = some (b.state.endpoint i) := by
  obtain ⟨s, stepped, noted⟩ := Option.map_eq_some_iff.mp taken
  have endpoints : ∀ i, _ := step_endpoint (show (transport layout).step a.state event s from stepped)
  cases event with
  | act j action =>
    subst noted
    refine ⟨stepped, fun i => ?_⟩
    by_cases same : i = j
    · subst same
      refine Or.inr ⟨action, rfl, by simp, ?_⟩
      simp only [State.next] at stepped
      split at stepped
      · obtain ⟨e, moved, rfl⟩ := Option.map_eq_some_iff.mp stepped
        simpa using moved
      · cases stepped
    · rcases endpoints i with kept | ⟨other, acted, -⟩
      · exact Or.inl ⟨by simp [same], kept⟩
      · cases acted
        exact absurd rfl same
  | drain =>
    subst noted
    exact ⟨stepped, fun i => Or.inl ⟨rfl, (endpoints i).resolve_right (by simp)⟩⟩
  | fabricFails code =>
    subst noted
    exact ⟨stepped, fun i => Or.inl ⟨rfl, (endpoints i).resolve_right (by simp)⟩⟩

/-- The history restricts no run. -/
theorem chronicled_reachable (reached : (chronicled layout).Reachable a) : (transport layout).Reachable a.state := by
  induction reached with
  | start init => exact .start init.1
  | next _ _ taken ih => exact ih.step (chronicled_step taken).1

/-- Every endpoint of every run agrees with its history. -/
theorem reachable_recorded (reached : (chronicled layout).Reachable a) (i : ι) :
    Recorded (a.state.endpoint i) (a.history i) := by
  induction reached with
  | start init =>
    obtain ⟨⟨-, -, zero, endpoint⟩, history⟩ := init
    rw [endpoint, history]
    exact create_recorded zero
  | next before _ taken ih =>
    rcases (chronicled_step taken).2 i with ⟨history, endpoint⟩ | ⟨action, -, history, stepped⟩
    · rw [history, endpoint]
      exact ih
    · rw [history]
      exact step_recorded (reachable_ownership (chronicled_reachable before) i) ih stepped

/-- The history has one round for each request published. -/
theorem step_rounds {layout : ArenaLayout} {fabricFailure : Option ResultCode} {draining : Bool} {e e' : Endpoint Payload}
    {h : Chronicle Payload} {action : Endpoint.Action Payload} (recorded : Recorded e h)
    (counted : h.rounds.length = e.published) (stepped : e.step layout fabricFailure draining action = some e') :
    (h.note layout e action).rounds.length = e'.published := by
  have onLast (f : Round Payload → Round Payload) : (h.onLast f).rounds.length = h.rounds.length := by
    cases rounds : h.rounds <;> simp [Chronicle.onLast, rounds]
  have executed (result : ResultCode) (output : Payload) :
      (h.note layout e (.execute result output)).rounds.length = h.rounds.length := by
    simp only [Chronicle.note]
    split
    · exact onLast _
    · rfl
  cases Endpoint.step_taken e stepped with
  | kernel stepped =>
    by_cases publishing : e.kernel = .store .publishRequest
    · obtain ⟨request, launched, -⟩ := recorded.staging.filled (by rw [publishing]; rfl)
      simp only [Endpoint.kernelStep, publishing] at stepped
      cases stepped
      simp [Chronicle.note, publishing, launched, counted]
    · rw [note_kernel publishing, counted]
      cases pc : e.kernel with
      | store move =>
        simp only [Endpoint.kernelStep, pc] at stepped
        cases stepped
        cases move <;> first | rfl | exact absurd pc publishing
      | _ =>
        simp only [Endpoint.kernelStep, pc] at stepped
        (try split at stepped) <;> cases stepped <;> rfl
  | block stepped =>
    rw [(blockStep_frame stepped).published, ← counted]
    simp only [Chronicle.note]
    split
    · exact onLast _
    · rfl
  | execute result output _ _ => rw [executed, counted]
  | reject result output _ => rw [executed, counted]
  | launch _ _ _ _ => exact counted
  | expire _ _ => exact counted
  | abort _ _ => exact counted
  | attach _ => exact counted
  | start _ => exact counted
  | exit _ => exact counted

theorem reachable_rounds (reached : (chronicled layout).Reachable a) (i : ι) :
    (a.history i).rounds.length = (a.state.endpoint i).published := by
  induction reached with
  | start init =>
    obtain ⟨⟨-, -, zero, endpoint⟩, history⟩ := init
    rw [endpoint, history]
    rfl
  | next before _ taken ih =>
    rcases (chronicled_step taken).2 i with ⟨history, endpoint⟩ | ⟨action, -, history, stepped⟩
    · rw [history, endpoint]
      exact ih
    · rw [history]
      exact step_rounds (reachable_recorded before i) ih stepped

/-- Where the kernel writes request fields. -/
def KernelPc.writesRequest : KernelPc Payload → Bool
  | stageInput _ => true
  | stageRows _ => true
  | stageMetadata _ => true
  | write .acknowledge => true
  | _ => false

/-- What an event does to one endpoint: the status word moves by its owner's hand,
and request fields are written by the kernel. -/
structure Orderly (e : Endpoint Payload) (i : ι) (event : Event ι Payload) (e' : Endpoint Payload) : Prop where
  status : e'.arena.mailbox.status = e.arena.mailbox.status ∨
    event = .act i .kernel ∧ e.arena.mailbox.status.instanceMoves e'.arena.mailbox.status ∨
    event = .act i .block ∧ e.arena.mailbox.status.residentMoves e'.arena.mailbox.status
  written : e'.arena.contents = e.arena.contents ∨ event = .act i .kernel ∧ e.kernel.writesRequest

/-- What holds of one endpoint and its history. -/
structure Integrity (e : Endpoint Payload) (h : Chronicle Payload) : Prop where
  reading : e.block.readsRequest → e.arena.mailbox.status = .published
  writing : e.kernel.writesRequest → e.arena.mailbox.status = .staging ∨
    e.kernel = .write .acknowledge ∧ e.arena.mailbox.status = .evaluated
  rounds : h.rounds.length = e.published
  once : ∀ round ∈ h.rounds, round.executions.length ≤ 1 ∧ round.answers.length ≤ 1
  output : e.kernel = .resting → ∀ output, e.hiddenOutput = some output → h.Delivered output

theorem orderly_step (reached : (transport layout).Reachable a.state) (taken : (chronicled layout).step a event b) (i : ι) :
    Orderly (a.state.endpoint i) i event (b.state.endpoint i) := by
  have own := reachable_ownership reached i
  rcases (chronicled_step taken).2 i with ⟨-, endpoint⟩ | ⟨action, rfl, -, stepped⟩
  · rw [endpoint]
    exact ⟨Or.inl rfl, Or.inl rfl⟩
  have stays {e' : Endpoint Payload} {action : Endpoint.Action Payload}
      (status : e'.arena.mailbox.status = (a.state.endpoint i).arena.mailbox.status)
      (contents : e'.arena.contents = (a.state.endpoint i).arena.contents) :
      Orderly (a.state.endpoint i) i (.act i action) e' :=
    ⟨Or.inl status, Or.inl contents⟩
  cases action with
  | kernel =>
    have stepped : (a.state.endpoint i).kernelStep = some (b.state.endpoint i) := stepped
    refine ⟨(kernelStep_status own stepped).imp id fun moved => Or.inl ⟨rfl, moved⟩, ?_⟩
    generalize a.state.endpoint i = e at stepped
    generalize b.state.endpoint i = e' at stepped
    cases pc : e.kernel with
    | stageInput request => exact Or.inr ⟨rfl, rfl⟩
    | stageRows request => exact Or.inr ⟨rfl, rfl⟩
    | stageMetadata request => exact Or.inr ⟨rfl, rfl⟩
    | write move =>
      simp only [Endpoint.kernelStep, pc] at stepped
      cases stepped
      cases move <;> first | exact Or.inr ⟨rfl, rfl⟩ | exact Or.inl rfl
    | _ =>
      left
      simp only [Endpoint.kernelStep, pc] at stepped
      (try split at stepped) <;> cases stepped <;> rfl
  | block =>
    have stepped : (a.state.endpoint i).blockStep a.state.fabricFailure a.state.draining = some (b.state.endpoint i) := stepped
    exact ⟨(blockStep_status own stepped).imp id fun moved => Or.inr ⟨rfl, moved⟩, Or.inl (blockStep_contents stepped)⟩
  | _ =>
    generalize b.state.endpoint i = e' at stepped
    cases Endpoint.step_taken _ stepped <;> exact stays rfl rfl

theorem reachable_integrity (reached : (chronicled layout).Reachable a) (i : ι) :
    Integrity (a.state.endpoint i) (a.history i) := by
  have own := reachable_ownership (chronicled_reachable reached) i
  have recorded := reachable_recorded reached i
  refine ⟨?_, ?_, reachable_rounds reached i, recorded.bounded, ?_⟩
  · intro reads
    apply own.answering
    revert reads
    cases (a.state.endpoint i).block <;> simp [BlockPc.readsRequest, BlockPc.answering]
  · intro writes
    cases pc : (a.state.endpoint i).kernel with
    | stageInput request => exact Or.inl (own.staging (by rw [pc]; rfl))
    | stageRows request => exact Or.inl (own.staging (by rw [pc]; rfl))
    | stageMetadata request => exact Or.inl (own.staging (by rw [pc]; rfl))
    | write move =>
      cases move with
      | acknowledge => exact Or.inr ⟨rfl, own.consuming (by rw [pc]; rfl)⟩
      | _ => simp [pc, KernelPc.writesRequest] at writes
    | _ => simp [pc, KernelPc.writesRequest] at writes
  · intro resting
    exact recorded.settled (by rw [resting]; rfl)

/-- Over every run: each transition of the status word is one of the eight, made
by its owner; the Resident reads request fields in Published, and the Instance
writes them in Staging and clears them as it acknowledges in Evaluated; every
round is executed and answered at most once; and an output that the Instance
returns is what executing the request of its own round gave. -/
theorem round_integrity (layout : ι → ArenaLayout) {a : Annals ι Payload} (reached : (chronicled layout).Reachable a)
    (i : ι) :
    Integrity (a.state.endpoint i) (a.history i) ∧
      ∀ event b, (chronicled layout).step a event b → Orderly (a.state.endpoint i) i event (b.state.endpoint i) :=
  ⟨reachable_integrity reached i, fun _ _ taken => orderly_step (chronicled_reachable reached) taken i⟩

/-! ## One round with its acknowledgement -/

/-- A decode request of one row that holds a three. -/
def three : Request Nat :=
  ⟨3, 1, [], ⟨0, .decode, .perRankComplete, .none⟩⟩

def opening : Annals Unit Nat :=
  ⟨⟨fun _ => Endpoint.create 0, false, none⟩, fun _ => ⟨none, []⟩⟩

/-- The Resident opens its mailbox, the Instance publishes a request, Fabric
doubles it, and the Instance takes `n` steps of the rest of its round. -/
def doubling (n : Nat) : List (Event Unit Nat) :=
  [.act () .block, .act () .block, .act () .startBarrier, .act () .attach, .act () (.launch three)] ++
    List.replicate 11 (.act () .kernel) ++ List.replicate 3 (.act () .block) ++
    .act () (.execute .ok 6) :: List.replicate 3 (.act () .block) ++ List.replicate n (.act () .kernel)

theorem opening_reached : (chronicled fun _ : Unit => oneRowLayout).Reachable opening :=
  .start ⟨⟨rfl, rfl, 0, rfl⟩, rfl⟩

theorem round_integrity_doubling :
    ∃ a : Annals Unit Nat, (chronicled fun _ => oneRowLayout).Reachable a ∧
      (a.state.endpoint ()).hiddenOutput = some 6 ∧ (a.history ()).Delivered 6 := by
  obtain ⟨a, reached, returned⟩ := opening_reached.run (Annals.next fun _ => oneRowLayout)
    (fun _ _ _ taken => ⟨trivial, taken⟩) (doubling 8)
    (fun a => (a.state.endpoint ()).kernel.isResting && (a.state.endpoint ()).hiddenOutput = some 6) (by decide +kernel)
  simp only [Bool.and_eq_true, decide_eq_true_eq] at returned
  obtain ⟨resting, held⟩ := returned
  have integrity := (round_integrity (fun _ => oneRowLayout) reached ()).1
  exact ⟨a, reached, held, integrity.output (Endpoint.KernelPc.eq_resting resting) 6 held⟩

/-- The acknowledgement clears request fields in Evaluated. -/
theorem acknowledgement_writes_request :
    ¬ ∀ a b : Annals Unit Nat, (chronicled fun _ => oneRowLayout).Reachable a →
      (chronicled fun _ => oneRowLayout).step a (.act () .kernel) b →
      (b.state.endpoint ()).arena.mailbox.payloadRows ≠ (a.state.endpoint ()).arena.mailbox.payloadRows →
      (a.state.endpoint ()).arena.mailbox.status = .staging := by
  intro only
  obtain ⟨a, reached, leads⟩ := opening_reached.run (Annals.next fun _ => oneRowLayout)
    (fun _ _ _ taken => ⟨trivial, taken⟩) (doubling 6)
    (fun a => (a.state.endpoint ()).arena.mailbox.status = .evaluated &&
      (a.next (fun _ => oneRowLayout) (.act () .kernel)).any fun b =>
        (b.state.endpoint ()).arena.mailbox.payloadRows ≠ (a.state.endpoint ()).arena.mailbox.payloadRows)
    (by decide +kernel)
  simp only [Bool.and_eq_true, decide_eq_true_eq, Option.any_eq_true] at leads
  obtain ⟨evaluated, b, taken, cleared⟩ := leads
  have staging := only a b reached taken cleared
  rw [evaluated] at staging
  cases staging

end CrossPool.Transport
