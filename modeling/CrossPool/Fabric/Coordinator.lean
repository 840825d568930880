import CrossPool.Fabric.Arena

/-!
# Coordinator

One pass of `coordinator_loop` discovers complete Submission rendezvous, moves
Active invocations through commit and acknowledgement, and leases at most one
free lane. An inspection is one step: the words it reads only grow, and a record
it reads behind its word does not change before the Coordinator moves on. Each
write of the Coordinator's own records and each put is a step of its own.
-/

namespace CrossPool.Fabric

open CrossPool.Control (ResultCode)
open CrossPool.Transport (ForwardMode OutputRequirement DpRowLayout)
open CrossPool.Lib

/-! ## Submission rendezvous -/

/-- What the loop over DP ranks carries. -/
structure RowTotals where
  anyPrefill : Bool
  anyNonIdle : Bool
  packedPayloadRows : Nat
  uniformPayloadRows : Nat
deriving DecidableEq, Repr

/-- The canonical record of one DP rank contradicts the row layout. -/
def rowsMismatch (canonical dpSubmission : Submission) (dpRank uniformPayloadRows : Nat) : Bool :=
  let mode := dpSubmission.forwardMode
  let rows := dpSubmission.dpRankPayloadRows
  (canonical.dpRowLayout = .none && (mode = .idle || rows ≠ canonical.payloadRows)) ||
    (canonical.dpRowLayout = .packedByRank && decide (mode = .idle) ≠ decide (rows = 0)) ||
    (canonical.dpRowLayout = .uniformByRank && (rows = 0 || (dpRank ≠ 0 && rows ≠ uniformPayloadRows)))

/-- One DP rank of `inspect_submission_rows`; `none` leaves the loop. -/
def inspectDpRank (i : Instance) (record : Nat → Submission) (canonical : Submission) (totals : RowTotals)
    (dpRank : Nat) : Option RowTotals :=
  let canonicalIndex := dpRank * i.atnTpSize
  let dpSubmission := record canonicalIndex
  let mode := dpSubmission.forwardMode
  let rows := dpSubmission.dpRankPayloadRows
  if rowsMismatch canonical dpSubmission dpRank totals.uniformPayloadRows then none
  else if canonical.dpRowLayout = .packedByRank ∧ canonical.payloadRows - totals.packedPayloadRows < rows then none
  else if (List.range i.atnTpSize).any fun tpRank =>
      tpRank ≠ 0 && (((record (canonicalIndex + tpRank)).dpRankPayloadRows ≠ rows) ||
        (record (canonicalIndex + tpRank)).forwardMode ≠ mode) then none
  else
    some
      { anyPrefill := totals.anyPrefill || mode = .prefill
        anyNonIdle := totals.anyNonIdle || mode ≠ .idle
        packedPayloadRows :=
          if canonical.dpRowLayout = .packedByRank then totals.packedPayloadRows + rows else totals.packedPayloadRows
        uniformPayloadRows :=
          if canonical.dpRowLayout = .uniformByRank ∧ dpRank = 0 then rows else totals.uniformPayloadRows }

/-- `inspect_submission_rows`, over the submission records by Instance rank. -/
def inspectSubmissionRows (i : Instance) (record : Nat → Submission) (canonical : Submission) : Option ForwardMode := do
  if (i.atnDpSize = 1 ∧ canonical.dpRowLayout ≠ .none) ∨ (1 < i.atnDpSize ∧ canonical.dpRowLayout = .none) then none
  let totals ← (List.range i.atnDpSize).foldlM (inspectDpRank i record canonical) ⟨false, false, 0, 0⟩
  if !totals.anyNonIdle ∨
      (canonical.dpRowLayout = .packedByRank ∧ totals.packedPayloadRows ≠ canonical.payloadRows) ∨
      (canonical.dpRowLayout = .uniformByRank ∧
        (canonical.payloadRows % i.atnDpSize ≠ 0 ∨
          canonical.payloadRows / i.atnDpSize ≠ totals.uniformPayloadRows)) then none
  else some (if totals.anyPrefill then .prefill else .decode)

namespace Topology

variable (T : Topology)

/-- The Coordinator's copy of one rank's submission. -/
def submissionAt (k : Control) (instanceIndex rank : Nat) : Channel Submission Empty :=
  k.slots T.coordinatorPe (.submission (T.atnagentPe instanceIndex rank) instanceIndex)

/-- Every rank's publication is the expected one and agrees with the first. -/
def submissionsAgree (k : Control) (instanceIndex expectedSequence : Nat) : Bool :=
  let first := (T.submissionAt k instanceIndex 0).record
  (List.range (T.atnagentPes instanceIndex).length).all fun rank =>
    let publication := T.submissionAt k instanceIndex rank
    validateExpected publication expectedSequence ⟨instanceIndex, expectedSequence⟩ &&
      publication.record.layerOrdinal = first.layerOrdinal && publication.record.payloadRows = first.payloadRows &&
      publication.record.outputRequirement = first.outputRequirement &&
      publication.record.dpRowLayout = first.dpRowLayout

/-- `inspect_submission_rendezvous`; the invocation matters where it is Ready. -/
def inspectSubmissionRendezvous (k : Control) (instanceIndex expectedSequence : Nat) : InspectionStatus × Invocation :=
  let i := T.instanceEntry instanceIndex
  let key : InvocationKey := ⟨instanceIndex, expectedSequence⟩
  let first := (T.submissionAt k instanceIndex 0).record
  let mismatch : InspectionStatus × Invocation := (.protocolMismatch, { (default : Invocation) with key := key })
  if (List.range (T.atnagentPes instanceIndex).length).any fun rank =>
      (T.submissionAt k instanceIndex rank).sequence < expectedSequence then (.pending, default)
  else if !T.submissionsAgree k instanceIndex expectedSequence then mismatch
  else if i.layers.length ≤ first.layerOrdinal ∨
      (first.outputRequirement = .groupSumComplete ∧ !i.groupSumCompleteAdmitted) then mismatch
  else
    match inspectSubmissionRows i (fun rank => (T.submissionAt k instanceIndex rank).record) first with
    | none => mismatch
    | some mode =>
      let profileCapacity := if mode = .prefill then i.prefillPayloadRowCapacity else i.decodePayloadRowCapacity
      if profileCapacity < first.payloadRows ∨ T.lanePayloadCapacityBytes / i.payloadRowBytes < first.payloadRows then
        mismatch
      else (.ready, ⟨key, first.layerOrdinal, first.payloadRows, first.outputRequirement⟩)

/-! ## Completion and acknowledgement -/

def inspectCompletions (k : Control) (invocation : Invocation) (lane lease : Nat) : InspectionStatus :=
  inspectPublications
    ((T.group invocation).map fun source => k.slots T.coordinatorPe (.ffnAgentCompletion source lane)) lease
    invocation.key

def inspectAcknowledgements (k : Control) (invocation : Invocation) : InspectionStatus :=
  inspectPublications
    ((T.atnagentPes invocation.key.instanceIndex).map fun source =>
      k.slots T.coordinatorPe (.outputAcknowledgement source invocation.key.instanceIndex))
    invocation.key.invocationSequence invocation.key

/-! ## Coordinator loop -/

variable {V : Type}

/-- Move the Coordinator without touching anything else. -/
def coordinatorGoto (s : State V) (pc : CoordinatorPc) : State V :=
  { s with control.coordinator := pc }

/-- `discover_invocations` at one Instance. -/
def discoverStep (s : State V) (instanceIndex : Nat) : State V :=
  let next := coordinatorGoto s (.discover (instanceIndex + 1))
  let previous := (s.control.slots T.coordinatorPe (.outputCommit instanceIndex)).record.key.invocationSequence
  if s.control.scheduler.hasUnresolvedInvocation instanceIndex then next
  else if previous = maxSequence then
    coordinatorGoto s (.publishMismatch ⟨instanceIndex, previous⟩ 0 .discover)
  else
    match T.inspectSubmissionRendezvous s.control instanceIndex (previous + 1) with
    | (.pending, _) => next
    | (.protocolMismatch, invocation) =>
      coordinatorGoto s (.publishMismatch invocation.key invocation.layerOrdinal .discover)
    | (.ready, invocation) =>
      match s.control.scheduler.enqueue invocation with
      | none => coordinatorGoto s .aborted
      | some (scheduler, _) => { next with control.scheduler := scheduler }

/-- `progress_active_invocations` at one Instance. -/
def progressStep (s : State V) (instanceIndex : Nat) : State V :=
  let next := coordinatorGoto s (.progress (instanceIndex + 1))
  match s.control.scheduler.activeDecision instanceIndex with
  | none => next
  | some ⟨invocation, lane⟩ =>
    let lease := (s.control.slots T.coordinatorPe (.laneExecution lane)).record.executorLeaseSequence
    let mismatch := coordinatorGoto s (.publishMismatch invocation.key invocation.layerOrdinal .progress)
    if (s.control.slots T.coordinatorPe (.outputCommit instanceIndex)).record.key ≠ invocation.key then
      if lease = 0 then coordinatorGoto s .aborted
      else
        match T.inspectCompletions s.control invocation lane lease with
        | .protocolMismatch => mismatch
        | .pending => next
        | .ready => coordinatorGoto s (.readCommitFailure instanceIndex)
    else if invocation.key.invocationSequence = 0 then coordinatorGoto s .aborted
    else
      match T.inspectAcknowledgements s.control invocation with
      | .protocolMismatch => mismatch
      | .pending => next
      | .ready =>
        match s.control.scheduler.release invocation.key lane with
        | none => coordinatorGoto s .aborted
        | some scheduler => { next with control.scheduler := scheduler }

/-- Publish the Coordinator's record to the first of `rest`, or go on. -/
def publishStep (s : State V) (slot : Slot) (rest : List Nat) (resume : List Nat → CoordinatorPc)
    (done : CoordinatorPc) : State V :=
  match rest with
  | [] => coordinatorGoto s done
  | destination :: rest =>
    if s.control.publishable T.coordinatorPe slot then
      { s with control := { s.control.publish T.coordinatorPe destination slot with coordinator := resume rest } }
    else coordinatorGoto s .aborted

/-- Write the Coordinator's record. -/
def storeStep (s : State V) (slot : Slot) (record : slot.Record) (pc : CoordinatorPc) : State V :=
  { s with control := { s.control.store T.coordinatorPe slot record with coordinator := pc } }

/-- One step of the Coordinator; `none` once it has left its loop. -/
def coordinatorStep (s : State V) : Option (State V) :=
  match s.control.coordinator with
  | .readFailure =>
    if s.signals.published T.coordinatorPe then
      some (coordinatorGoto s (.broadcast ((List.range T.peCount).filter (· ≠ T.coordinatorPe))))
    else some (coordinatorGoto s .readShutdown)
  | .readShutdown => some (coordinatorGoto s (if s.signals.shutdown T.coordinatorPe then .exited else .discover 0))
  -- Phase: Discover
  | .discover instanceIndex =>
    if instanceIndex < T.instanceCount then some (T.discoverStep s instanceIndex)
    else some (coordinatorGoto s (.leave .discover))
  | .publishMismatch key layerOrdinal site =>
    if Signals.admissible .protocolMismatch key then
      some
        { coordinatorGoto s (.leave site) with
          signals := s.signals.tryPublish T.coordinatorPe T.coordinatorPe .protocolMismatch key layerOrdinal }
    else some (coordinatorGoto s .aborted)
  | .leave site =>
    if s.signals.published T.coordinatorPe then some (coordinatorGoto s .readFailure)
    else
      match site with
      | .discover => some (coordinatorGoto s (.progress 0))
      | .progress => some (coordinatorGoto s .schedule)
  -- Phase: Progress
  | .progress instanceIndex =>
    if instanceIndex < T.instanceCount then some (T.progressStep s instanceIndex)
    else some (coordinatorGoto s (.leave .progress))
  | .readCommitFailure instanceIndex =>
    if s.signals.published T.coordinatorPe then some (coordinatorGoto s (.leave .progress))
    else some (coordinatorGoto s (.writeCommit instanceIndex))
  | .writeCommit instanceIndex =>
    let key := (s.control.scheduler.entries instanceIndex).invocation.key
    some
      (T.storeStep s (.outputCommit instanceIndex) ⟨key⟩ (.publishCommit instanceIndex (T.atnagentPes instanceIndex)))
  | .publishCommit instanceIndex rest =>
    some
      (T.publishStep s (.outputCommit instanceIndex) rest (.publishCommit instanceIndex) (.progress (instanceIndex + 1)))
  -- Phase: Schedule
  | .schedule =>
    match s.control.scheduler.trySchedule with
    | none => some (coordinatorGoto s .aborted)
    | some (scheduler, none) => some { coordinatorGoto s .readFailure with control.scheduler := scheduler }
    | some (scheduler, some ⟨invocation, lane⟩) =>
      some
        { s with
          control :=
            { s.control with
              scheduler := scheduler
              coordinator := .writeAdmission invocation lane
              leases := Function.update s.control.leases lane (s.control.leases lane ++ [invocation]) } }
  | .writeAdmission invocation lane =>
    let previous := (s.control.slots T.coordinatorPe (.laneExecution lane)).record.executorLeaseSequence
    if previous = maxSequence then some (coordinatorGoto s .aborted)
    else
      some
        (T.storeStep s (.admission invocation.key.instanceIndex) ⟨invocation.key, lane, previous + 1⟩
          (.publishAdmission invocation lane (previous + 1) (T.atnagentPes invocation.key.instanceIndex)))
  | .publishAdmission invocation lane lease rest =>
    some
      (T.publishStep s (.admission invocation.key.instanceIndex) rest (.publishAdmission invocation lane lease)
        (.writeLaneExecution invocation lane lease))
  | .writeLaneExecution invocation lane lease =>
    some
      (T.storeStep s (.laneExecution lane)
        ⟨invocation.key, lease, invocation.layerOrdinal, invocation.payloadRows, invocation.outputRequirement⟩
        (.publishLaneExecution invocation lane (T.group invocation)))
  | .publishLaneExecution invocation lane rest =>
    some (T.publishStep s (.laneExecution lane) rest (.publishLaneExecution invocation lane) .readFailure)
  | .broadcast [] => some (coordinatorGoto s .exited)
  | .broadcast (destination :: rest) =>
    some
      { coordinatorGoto s (.broadcast rest) with
        signals :=
          s.signals.setFailure destination
            ((s.signals.failures destination).send
              { payload := []
                record := (s.signals.failures T.coordinatorPe).record
                landed := false }) }
  | .exited => none
  | .aborted => none

end Topology

end CrossPool.Fabric
