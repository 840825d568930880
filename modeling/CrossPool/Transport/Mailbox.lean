import CrossPool.Control.Generation

/-!
# Transport arena

One rank-local arena holds the request mailbox, its payload buffers, the sticky
generation failure and the shutdown flag. The status word moves either by a
compare-and-swap (`try_begin_staging`, `try_close_idle`) or by a check and a
later store. The Instance's transitions of the second kind are `Move`s; their
check, field writes and store are separate, so that the Resident may run between
them.
-/

namespace CrossPool.Transport

open CrossPool.Control (ResultCode)

/-! ## Vocabulary

The enumerations of a request are 32-bit words in memory. `other` is a word outside the
vocabulary, such as the zero of cleared storage; `isValid` is `xpool::ffn::is_valid`. -/

inductive ForwardMode where
  | prefill
  | decode
  | idle
  | other (word : Nat) (unnamed : word ≠ 1 ∧ word ≠ 2 ∧ word ≠ 4)
deriving DecidableEq, Repr

def ForwardMode.isValid : ForwardMode → Bool
  | prefill => true
  | decode => true
  | idle => true
  | other _ _ => false

inductive OutputRequirement where
  | perRankComplete
  | groupSumComplete
  | other (word : Nat) (unnamed : word ≠ 1 ∧ word ≠ 2)
deriving DecidableEq, Repr

def OutputRequirement.isValid : OutputRequirement → Bool
  | perRankComplete => true
  | groupSumComplete => true
  | other _ _ => false

/-- The zero word is `none`. -/
inductive DpRowLayout where
  | none
  | uniformByRank
  | packedByRank
  | other (word : Nat) (unnamed : 2 < word)
deriving DecidableEq, Repr

def DpRowLayout.isValid : DpRowLayout → Bool
  | none => true
  | uniformByRank => true
  | packedByRank => true
  | other _ _ => false

/-! ## Mailbox -/

structure RequestMetadata where
  layerOrdinal : Nat
  forwardMode : ForwardMode
  outputRequirement : OutputRequirement
  dpRowLayout : DpRowLayout
deriving DecidableEq, Repr

def RequestMetadata.valid (metadata : RequestMetadata) : Bool :=
  metadata.forwardMode.isValid && metadata.outputRequirement.isValid && metadata.dpRowLayout.isValid

inductive MailboxStatus where
  | dormant
  | idle
  | staging
  | published
  | evaluated
  | closed
deriving DecidableEq, Repr

/-- The cleared request is all zero and has no valid forward mode, so it is
`none`. -/
structure Mailbox where
  status : MailboxStatus
  resultCode : ResultCode
  payloadRows : Nat
  request : Option RequestMetadata
deriving DecidableEq, Repr

/-- The part of a validated arena layout that requests are checked against. -/
structure ArenaLayout where
  payloadRowCapacity : Nat
  atnDpSize : Nat
  atnDpSize_pos : 0 < atnDpSize

/-- The row vector has no storage in an arena of DP size one. -/
def ArenaLayout.dpRankPayloadRowsPresent (layout : ArenaLayout) : Bool :=
  layout.atnDpSize ≠ 1

/-- One launch of the request kernel; an absent row vector is empty. -/
structure Request (Payload : Type*) where
  hiddenStates : Payload
  payloadRows : Nat
  dpRankPayloadRows : List Int
  metadata : RequestMetadata
deriving DecidableEq, Repr

/-- What `Attachment::submit` checks before it launches the kernel. -/
def ArenaLayout.submits {Payload : Type*} (layout : ArenaLayout) (request : Request Payload) : Bool :=
  request.metadata.valid && request.payloadRows ≠ 0 && request.payloadRows ≤ layout.payloadRowCapacity &&
    if layout.atnDpSize = 1 then
      request.metadata.dpRowLayout = .none && request.dpRankPayloadRows = []
    else
      (request.metadata.dpRowLayout = .uniformByRank || request.metadata.dpRowLayout = .packedByRank) &&
        request.dpRankPayloadRows.length = layout.atnDpSize

/-- Every DP row count fits the arena's `uint32` representation. -/
def Request.converts {Payload : Type*} (request : Request Payload) : Bool :=
  request.dpRankPayloadRows.all fun rows => 0 ≤ rows && rows ≤ 2 ^ 32 - 1

/-- What the Resident checks of a published request. -/
def ArenaLayout.requestValid (layout : ArenaLayout) (mailbox : Mailbox) : Bool :=
  match mailbox.request with
  | none => false
  | some request =>
    request.valid && mailbox.payloadRows ≠ 0 && mailbox.payloadRows ≤ layout.payloadRowCapacity &&
      ((layout.atnDpSize = 1 && request.dpRowLayout = .none && !layout.dpRankPayloadRowsPresent) ||
        (1 < layout.atnDpSize && layout.dpRankPayloadRowsPresent &&
          (request.dpRowLayout = .uniformByRank || request.dpRowLayout = .packedByRank)))

structure Arena (Payload : Type*) where
  mailbox : Mailbox
  generationFailure : ResultCode
  shutdown : Bool
  inputPayload : Payload
  outputPayload : Payload
  dpRankPayloadRows : List Nat

/-- A zeroed arena with its initial mailbox. -/
def Arena.create {Payload : Type*} (zero : Payload) : Arena Payload where
  mailbox :=
    { status := .dormant
      resultCode := .protocolMismatch
      payloadRows := 0
      request := none }
  generationFailure := .ok
  shutdown := false
  inputPayload := zero
  outputPayload := zero
  dpRankPayloadRows := []

/-! ## Status transitions -/

/-- The Instance's transitions that check the status word and store it later. -/
inductive Move where
  | publishRequest
  | acknowledge
  | closeStaging
  | closeEvaluated
deriving DecidableEq, Repr

/-- The status each transition aborts without. -/
def Move.expects : Move → MailboxStatus
  | publishRequest => .staging
  | acknowledge => .evaluated
  | closeStaging => .staging
  | closeEvaluated => .evaluated

def Move.target : Move → MailboxStatus
  | publishRequest => .published
  | acknowledge => .idle
  | closeStaging => .closed
  | closeEvaluated => .closed

/-- The check of a transition; it aborts where this is false. -/
def Move.permits (move : Move) (mailbox : Mailbox) : Bool :=
  mailbox.status = move.expects && (move ≠ .publishRequest || (mailbox.payloadRows ≠ 0 && mailbox.request.isSome))

/-- The fields a transition writes before its status becomes visible. -/
def Move.fields (mailbox : Mailbox) : Move → Mailbox
  | acknowledge =>
    { mailbox with
      resultCode := .protocolMismatch
      payloadRows := 0
      request := none }
  | _ => mailbox

@[simp] theorem Move.fields_status (move : Move) (mailbox : Mailbox) :
    (move.fields mailbox).status = mailbox.status := by
  cases move <;> simp [Move.fields]

end CrossPool.Transport
