import Mathlib.Algebra.Order.Ring.Int
import Mathlib.Data.List.Nodup
import CrossPool.Lib.Seqlock

/-!
# Control channel

The words of `GroupEntry` and `PartitionEntry` that the daemon and the ranks of
the Capacity Groups publish to each other. Every atomic load and store of the
source is one step, and the revision words make sequence locks of the commands, the
completions and the demands.
-/

namespace CrossPool.Ecs.Channel

open CrossPool.Lib

/-! ## Layout -/

/-- The group directory, fixed when the mapping is created. -/
structure Directory where
  partitionCounts : List Nat
  positive : ∀ count ∈ partitionCounts, count ≠ 0

namespace Directory

variable (D : Directory)

def groupCount : Nat :=
  D.partitionCounts.length

def firstPartition (group : Nat) : Nat :=
  (D.partitionCounts.take group).sum

def partitionCount (group : Nat) : Nat :=
  D.partitionCounts.getD group 0

/-- The partition entries of a group, in TP-rank order. -/
def partitions (group : Nat) : List Nat :=
  List.range' (D.firstPartition group) (D.partitionCount group)

def totalPartitions : Nat :=
  D.partitionCounts.sum

end Directory

/-- The atomically accessed words. -/
inductive Word where
  | commandRevision (group : Nat)
  | commandSequence (group : Nat)
  | demandRevision (group : Nat)
  | demandEvaluatedSequence (group : Nat)
  | demandPresent (group : Nat)
  | demandDeadlineMonotonicNs (group : Nat)
  | commandQuotaBytes (partition : Nat)
  | requiredBytes (partition : Nat)
  | completionRevision (partition : Nat)
  | completionBackedBytes (partition : Nat)
  | completionSequence (partition : Nat)
deriving DecidableEq, Repr

inductive Record where
  | command (group : Nat)
  | completion (partition : Nat)
  | demand (group : Nat)
deriving DecidableEq, Repr

/-- The daemon, a rank attached to its group and partition, and processes that
only read. -/
inductive Party where
  | daemon
  | rank (group partition : Nat)
  | reader (index : Nat)
deriving DecidableEq, Repr

structure QuotaCommand where
  sequence : Nat
  quotaBytes : List Nat
deriving DecidableEq, Repr

structure QuotaDemand where
  evaluatedSequence : Nat
  requiredBytes : Option (List Nat)
  deadlineMonotonicNs : Option Nat
deriving DecidableEq, Repr

structure QuotaCompletion where
  sequence : Nat
  backedBytes : Nat
deriving DecidableEq, Repr

/-- What a record holds. -/
inductive Value where
  | command (command : QuotaCommand)
  | completion (completion : QuotaCompletion)
  | demand (demand : QuotaDemand)
deriving DecidableEq, Repr

namespace Directory

variable (D : Directory)

def revision : Record → Word
  | .command group => .commandRevision group
  | .completion partition => .completionRevision partition
  | .demand group => .demandRevision group

/-- The words under a revision, in the order in which they are stored and loaded. -/
def data : Record → List Word
  | .command group => .commandSequence group :: (D.partitions group).map .commandQuotaBytes
  | .completion partition => [.completionSequence partition, .completionBackedBytes partition]
  | .demand group =>
    .demandEvaluatedSequence group :: .demandPresent group :: .demandDeadlineMonotonicNs group ::
      (D.partitions group).map .requiredBytes

/-- The daemon publishes commands, a rank its completion, a group's first rank the
demand. -/
def owns : Party → Record → Prop
  | .daemon, .command _ => True
  | .rank group partition, .completion partition' => partition = partition' ∧ partition ∈ D.partitions group
  | .rank group partition, .demand group' =>
    group = group' ∧ partition = D.firstPartition group ∧ partition ∈ D.partitions group
  | _, _ => False

variable {D} {group group' partition : Nat}

theorem firstPartition_succ : D.firstPartition (group + 1) = D.firstPartition group + D.partitionCount group := by
  rw [firstPartition, firstPartition, partitionCount, List.take_add_one, List.sum_append, List.getD_eq_getElem?_getD]
  cases D.partitionCounts[group]? <;> simp

theorem firstPartition_mono (le : group ≤ group') : D.firstPartition group ≤ D.firstPartition group' := by
  induction group' with
  | zero =>
    obtain rfl : group = 0 := by omega
    exact Nat.le_refl _
  | succ group' ih =>
    rcases Nat.lt_or_ge group' group with later | earlier
    · obtain rfl : group = group' + 1 := by omega
      exact Nat.le_refl _
    · rw [firstPartition_succ]
      have := ih earlier
      omega

theorem mem_partitions :
    partition ∈ D.partitions group ↔ D.firstPartition group ≤ partition ∧ partition < D.firstPartition (group + 1) := by
  rw [partitions, List.mem_range'_1, firstPartition_succ]

/-- The partitions of two groups do not overlap. -/
theorem group_unique (member : partition ∈ D.partitions group) (member' : partition ∈ D.partitions group') :
    group = group' := by
  rw [mem_partitions] at member member'
  rcases Nat.lt_trichotomy group group' with less | same | greater
  · have := D.firstPartition_mono (show group + 1 ≤ group' from less)
    omega
  · exact same
  · have := D.firstPartition_mono (show group' + 1 ≤ group from greater)
    omega

end Directory

/-- The records of the channel as sequence locks. -/
def Directory.seqlock (D : Directory) : Seqlock Word Record Party where
  revision := Directory.revision
  data := D.data
  owns := D.owns
  single := by
    rintro i j r owns owned
    cases r <;> cases i <;> cases j <;> simp only [Directory.owns] at owns owned
    · rfl
    · obtain ⟨rfl, member⟩ := owns
      obtain ⟨rfl, member'⟩ := owned
      rw [Directory.group_unique member member']
    · obtain ⟨rfl, rfl, -⟩ := owns
      obtain ⟨rfl, rfl, -⟩ := owned
      rfl
  revision_inj := by
    intro r r' same
    cases r <;> cases r' <;> cases same <;> rfl
  revision_not_data := by
    intro r r'
    cases r <;> cases r' <;> simp [Directory.revision, Directory.data]
  data_nodup := by
    intro r
    have distinct : ∀ group, (D.partitions group).Nodup := fun group => List.nodup_range'
    cases r with
    | command group => simpa [Directory.data] using (distinct group).map fun a b same => by simpa using same
    | completion partition => simp [Directory.data]
    | demand group => simpa [Directory.data] using (distinct group).map fun a b same => by simpa using same
  data_disjoint := by
    intro r r' address member member'
    cases r <;> simp only [Directory.data, List.mem_cons, List.mem_map, List.not_mem_nil, or_false] at member
    case command group =>
      rcases member with rfl | ⟨partition, inGroup, rfl⟩
      · cases r' <;> simp [Directory.data] at member'
        rw [member']
      · cases r' <;> simp [Directory.data] at member'
        rw [Directory.group_unique inGroup member']
    case completion partition =>
      rcases member with rfl | rfl
      all_goals
        cases r' <;> simp [Directory.data] at member'
        rw [member']
    case demand group =>
      rcases member with rfl | rfl | rfl | ⟨partition, inGroup, rfl⟩
      case inr.inr.inr =>
        cases r' <;> simp [Directory.data] at member'
        rw [Directory.group_unique inGroup member']
      all_goals
        cases r' <;> simp [Directory.data] at member'
        rw [member']

/-! ## Channel functions -/

namespace Directory

variable (D : Directory)

def decodeCommand : List Nat → Except Unit (Option QuotaCommand)
  | sequence :: quotaBytes => .ok (if sequence ≠ 0 then some ⟨sequence, quotaBytes⟩ else none)
  | [] => .ok none

def readCommand (group : Nat) : Thread Word Record (Option QuotaCommand) :=
  D.seqlock.takeRecord (.command group) decodeCommand

def decodeCompletion : List Nat → Except Unit (Option QuotaCompletion)
  | [sequence, backedBytes] => .ok (if sequence ≠ 0 then some ⟨sequence, backedBytes⟩ else none)
  | _ => .ok none

def readCompletion (partition : Nat) : Thread Word Record (Option QuotaCompletion) :=
  D.seqlock.takeRecord (.completion partition) decodeCompletion

/-- The words of a demand that a rank publishes. -/
def demandWords (group : Nat) (demand : QuotaDemand) : List Nat :=
  demand.evaluatedSequence :: (if demand.requiredBytes.isSome then 1 else 0) :: demand.deadlineMonotonicNs.getD 0 ::
    demand.requiredBytes.getD (List.replicate (D.partitionCount group) 0)

def decodeDemand : List Nat → Except Unit (Option QuotaDemand)
  | sequence :: present :: deadline :: required =>
    if sequence = 0 then .ok none
    else if 1 < present then .error ()
    else
      .ok
        (some
          { evaluatedSequence := sequence
            requiredBytes := if present ≠ 0 then some required else none
            deadlineMonotonicNs := if present ≠ 0 then some deadline else none })
  | _ => .ok none

/-- One group of `read_demands`. -/
def readDemand (group : Nat) : Thread Word Record (Option QuotaDemand) :=
  D.seqlock.takeRecord (.demand group) decodeDemand

/-- The loop over the group's completions in `publish_command`. -/
def checkCompletions (sequence : Nat) : List Nat → Thread Word Record Unit
  | [] => .ret ()
  | partition :: rest => do
    let completion ← D.readCompletion partition
    if completion.any (·.sequence = sequence) then checkCompletions sequence rest else .raise

def publishCommand (group : Nat) (command : QuotaCommand) : Thread Word Record Unit :=
  if D.groupCount ≤ group ∨ command.sequence = 0 ∨ command.quotaBytes.length ≠ D.partitionCount group then .raise
  else do
    let previous ← D.readCommand group
    if previous.any (·.sequence = command.sequence) then
      if previous = some command then .ret () else .raise
    else
      let sequence := previous.elim 0 (·.sequence)
      if sequence = 2 ^ 32 - 1 ∨ command.sequence ≠ sequence + 1 then .raise
      else do
        if sequence ≠ 0 then D.checkCompletions sequence (D.partitions group) else .ret ()
        D.seqlock.publishRecord (.command group) (command.sequence :: command.quotaBytes)

def publishCompletion (group partition : Nat) (completion : QuotaCompletion) : Thread Word Record Unit :=
  if completion.sequence = 0 then .raise
  else do
    let previous ← D.readCompletion partition
    if previous.any (·.sequence = completion.sequence) then
      if previous = some completion then .ret () else .raise
    else do
      let command ← D.readCommand group
      if command.any (·.sequence = completion.sequence) && previous.all (·.sequence < completion.sequence) then
        D.seqlock.publishRecord (.completion partition) [completion.sequence, completion.backedBytes]
      else .raise

def publishDemand (group partition : Nat) (demand : QuotaDemand) : Thread Word Record Unit :=
  if partition ≠ D.firstPartition group ∨ demand.evaluatedSequence = 0 ∨
      demand.requiredBytes.isSome ≠ demand.deadlineMonotonicNs.isSome ∨
      !demand.requiredBytes.all (·.length = D.partitionCount group) then .raise
  else
    .load (.demandEvaluatedSequence group) fun evaluated =>
      if evaluated ≤ demand.evaluatedSequence then
        D.seqlock.publishRecord (.demand group) (D.demandWords group demand)
      else .raise

/-- Read one record after the other. -/
def readEach {α : Type} (read : Nat → Thread Word Record α) : List Nat → Thread Word Record (List α)
  | [] => .ret []
  | index :: rest => do
    let value ← read index
    let values ← readEach read rest
    return value :: values

def readDemands : Thread Word Record (List (Option QuotaDemand)) :=
  readEach D.readDemand (List.range D.groupCount)

def readCompletions : Thread Word Record (List (Option QuotaCompletion)) :=
  readEach D.readCompletion (List.range D.totalPartitions)

/-- The commands of an Instance's row of groups. -/
def readCommands (groupRowBegin dpGroupCount : Nat) : Thread Word Record (List (Option QuotaCommand)) :=
  readEach D.readCommand (List.range' groupRowBegin dpGroupCount)

end Directory

inductive Call where
  | publishCommand (group : Nat) (command : QuotaCommand)
  | publishCompletion (completion : QuotaCompletion)
  | publishDemand (demand : QuotaDemand)
  | readCommands (groupRowBegin dpGroupCount : Nat)
  | readCompletions
  | readDemands
deriving DecidableEq, Repr

inductive Reply where
  | published
  | commands (values : List (Option QuotaCommand))
  | completions (values : List (Option QuotaCompletion))
  | demands (values : List (Option QuotaDemand))
deriving DecidableEq, Repr

/-- What a party runs for a call. Only the daemon publishes commands, and a rank is
attached to a partition of its group. -/
def Directory.program (D : Directory) : Party → Call → Thread Word Record Reply
  | .daemon, .publishCommand group command => do
    D.publishCommand group command
    return .published
  | .rank group partition, .publishCompletion completion =>
    if partition ∈ D.partitions group then do
      D.publishCompletion group partition completion
      return .published
    else .raise
  | .rank group partition, .publishDemand demand =>
    if partition ∈ D.partitions group then do
      D.publishDemand group partition demand
      return .published
    else .raise
  | _, .readCommands groupRowBegin dpGroupCount => do
    let values ← D.readCommands groupRowBegin dpGroupCount
    return .commands values
  | _, .readCompletions => do
    let values ← D.readCompletions
    return .completions values
  | _, .readDemands => do
    let values ← D.readDemands
    return .demands values
  | _, _ => .raise

/-- Shared memory starts zeroed. -/
def zeroed : World Word Record Party where
  memory _ := 0
  published _ := []
  observed _ _ := []

/-- All runs of the channel's parties. -/
def Directory.channel (D : Directory) : System (Pool Word Record Party Call Reply) (Action Party Call) :=
  Pool.system D.program (· = zeroed)

/-! ## When a publication ends -/

/-- The sequence of the last of some publications, zero before the first. -/
def lastSequence (publications : List (List Nat)) : Nat :=
  (publications.getLast?.bind List.head?).getD 0

/-- A command is the next one and all completed the one before; a completion is for
the current command and not a second one; a demand has its words all or none. -/
def Directory.allowed (D : Directory) (published : Record → List (List Nat)) : Record → List Nat → Prop
  | .command group, values =>
    values.head? = some (lastSequence (published (.command group)) + 1) ∧
      values.length = D.partitionCount group + 1 ∧
      (lastSequence (published (.command group)) ≠ 0 →
        ∀ partition ∈ D.partitions group,
          lastSequence (published (.completion partition)) = lastSequence (published (.command group)))
  | .completion partition, values =>
    ∃ group backedBytes, partition ∈ D.partitions group ∧
      values = [lastSequence (published (.command group)), backedBytes] ∧
      lastSequence (published (.completion partition)) < lastSequence (published (.command group))
  | .demand group, values =>
    ∃ demand : QuotaDemand, values = D.demandWords group demand ∧ demand.evaluatedSequence ≠ 0 ∧
      demand.requiredBytes.isSome = demand.deadlineMonotonicNs.isSome ∧
      demand.requiredBytes.all (·.length = D.partitionCount group)

/-! ## What calls return -/

/-- What the words of a record say. -/
def decode : Record → List Nat → Option Value
  | .command _, words => (Directory.decodeCommand words).toOption.join.map .command
  | .completion _, words => (Directory.decodeCompletion words).toOption.join.map .completion
  | .demand _, words => (Directory.decodeDemand words).toOption.join.map .demand

/-- What answers give of one record; each stands at the place of the index it is for. -/
def placed {α : Type} (record : Nat → Record) (value : α → Value) (indices : List Nat) (answers : List (Option α)) (r : Record) :
    List Value :=
  (indices.zip answers).filterMap fun answer => if record answer.1 = r then answer.2.map value else none

/-- What a call has returned of one record. -/
def Directory.taken (D : Directory) (r : Record) : Call × Reply → List Value
  | (.readCommands groupRowBegin dpGroupCount, .commands values) =>
    placed .command .command (List.range' groupRowBegin dpGroupCount) values r
  | (.readCompletions, .completions values) => placed .completion .completion (List.range D.totalPartitions) values r
  | (.readDemands, .demands values) => placed .demand .demand (List.range D.groupCount) values r
  | _ => []

/-- A reply is for its call, with a place for every group or partition. -/
def Directory.Replies (D : Directory) : Call × Reply → Prop
  | (.publishCommand .., .published) => True
  | (.publishCompletion _, .published) => True
  | (.publishDemand _, .published) => True
  | (.readCommands _ dpGroupCount, .commands values) => values.length = dpGroupCount
  | (.readCompletions, .completions values) => values.length = D.totalPartitions
  | (.readDemands, .demands values) => values.length = D.groupCount
  | _ => False

/-- What the calls of a party have returned is what it has observed. -/
structure Accounted (D : Directory) (i : Party) (past : List (Call × Reply)) (w : World Word Record Party) : Prop where
  replies : ∀ entry ∈ past, D.Replies entry
  taken : ∀ r, (past.flatMap (D.taken r)).Sublist ((w.observed i r).filterMap fun entry => decode r entry.2)

namespace Directory

/-- The rules that all parties keep. -/
def protocol (D : Directory) : Protocol Word Record Party :=
  D.seqlock.protocol D.allowed

/-- What the calls of the parties return. -/
def account (D : Directory) : Protocol.Account D.protocol Call Reply where
  holds := Accounted D
  lasts := by
    intro i j past w u _ accounted effect
    refine ⟨accounted.replies, fun r => (accounted.taken r).trans ?_⟩
    exact (Seqlock.Effect.remembers effect i r).sublist.filterMap _

variable {D : Directory} {i j : Party} {w u : World Word Record Party} {group partition : Nat}
  {publications : List (List Nat)} {values : List Nat}

theorem lastSequence_of_last (last : publications.getLast? = some values) :
    lastSequence publications = values.head?.getD 0 := by
  simp [lastSequence, last]

theorem command_shape (closed : D.seqlock.Closed w (.command group))
    (last : (w.published (.command group)).getLast? = some values) :
    ∃ sequence quotaBytes, values = sequence :: quotaBytes := by
  have words := closed.words values last
  rw [← words]
  exact ⟨_, _, rfl⟩

theorem completion_shape (closed : D.seqlock.Closed w (.completion partition))
    (last : (w.published (.completion partition)).getLast? = some values) :
    ∃ sequence backedBytes, values = [sequence, backedBytes] := by
  have words := closed.words values last
  rw [← words]
  exact ⟨_, _, rfl⟩

/-! ## Calls that only read -/

theorem safe_take {α : Type} {decode : List Nat → Except Unit (Option α)} {r : Record} (idle : D.protocol.idle i w) :
    D.protocol.Safe i (fun _ => D.protocol.idle i) (D.seqlock.takeRecord r decode) w := by
  refine Seqlock.safe_takeRecord (G := fun _ _ => True) idle ?_ ?_ ?_ ?_
  · exact fun _ _ _ _ _ _ _ _ => trivial
  · exact fun _ _ _ _ _ _ _ => trivial
  · exact fun _ _ idle _ _ => idle
  · exact fun _ _ _ _ idle _ _ _ => idle

/-- Reading records one after the other returns what is observed meanwhile. -/
theorem safe_readEach {α : Type} {decodes : List Nat → Except Unit (Option α)} {record : Nat → Record} {value : α → Value}
    (meaning : ∀ index words a, decodes words = .ok (some a) → decode (record index) words = some (value a))
    (indices : List Nat) {w : World Word Record Party} (idle : D.protocol.idle i w) :
    D.protocol.Safe i
      (fun answers u =>
        D.protocol.idle i u ∧ answers.length = indices.length ∧
          ∀ r, ∃ more, u.observed i r = w.observed i r ++ more ∧
            more.filterMap (fun entry => decode r entry.2) = placed record value indices answers r)
      (readEach (fun index => D.seqlock.takeRecord (record index) decodes) indices) w := by
  induction indices generalizing w with
  | nil => exact ⟨idle, rfl, fun r => ⟨[], (List.append_nil _).symm, rfl⟩⟩
  | cons index rest ih =>
    apply Protocol.safe_bind
    refine Seqlock.safe_takeRecord (G := fun _ _ => True) idle ?_ ?_ ?_ ?_
    · exact fun _ _ _ _ _ _ _ _ => trivial
    · exact fun _ _ _ _ _ _ _ => trivial
    · intro u _ idle same _
      apply Protocol.safe_bind
      refine Protocol.safe_mono (ih idle) ?_
      rintro answers v ⟨idle, length, more⟩
      refine ⟨idle, by rw [List.length_cons, List.length_cons, length], fun r => ?_⟩
      obtain ⟨more, observed, found⟩ := more r
      refine ⟨more, by rw [observed, same], ?_⟩
      rw [found, placed, placed, List.zip_cons_cons, List.filterMap_cons_none (by simp)]
    · intro u a revision words idle _ decoded same
      apply Protocol.safe_bind
      refine Protocol.safe_mono (ih idle) ?_
      rintro answers v ⟨idle, length, more⟩
      refine ⟨idle, by rw [List.length_cons, List.length_cons, length], fun r => ?_⟩
      obtain ⟨more, observed, found⟩ := more r
      by_cases here : record index = r
      · subst here
        refine ⟨(revision, words) :: more, ?_, ?_⟩
        · rw [observed, same, Function.update_self, List.append_assoc, List.singleton_append]
        · simp only [placed] at found ⊢
          simp only [List.filterMap_cons, meaning index words a decoded, found, List.zip_cons_cons, Option.map_some,
            if_true]
      · refine ⟨more, ?_, ?_⟩
        · rw [observed, same, Function.update_of_ne (Ne.symm here)]
        · rw [found, placed, placed, List.zip_cons_cons, List.filterMap_cons_none (by simp [here])]

/-! ## Publishing a command -/

/-- What the daemon knows before it publishes: the group's commands so far, and
that some partitions have completed the last. -/
def Completed (group : Nat) (history : List (List Nat)) (done : List Nat) (published : Record → List (List Nat)) : Prop :=
  published (.command group) = history ∧
    ∀ partition ∈ done, lastSequence (published (.completion partition)) = lastSequence history

theorem completed_stable {history : List (List Nat)} {done : List Nat} (within : done ⊆ D.partitions group) :
    Seqlock.Stable D.seqlock D.allowed .daemon (Completed group history done) := by
  intro j other w u _ known effect
  obtain ⟨same, completed⟩ := known
  rcases effect.published with unchanged | ⟨r, values, owns, may, published⟩
  · rw [unchanged]
    exact ⟨same, completed⟩
  rw [published]
  have command : Function.update w.published r (w.published r ++ [values]) (.command group) = history := by
    rw [Function.update_of_ne ?_, same]
    intro eq
    apply other
    rw [← eq] at owns
    cases j <;> first | rfl | cases owns
  refine ⟨command, fun partition member => ?_⟩
  have before := completed partition member
  by_cases here : r = .completion partition
  · -- a second completion of the current command is not allowed
    subst here
    obtain ⟨group', backedBytes, inGroup, -, less⟩ := may
    obtain rfl := group_unique inGroup (within member)
    rw [same] at less
    omega
  · rw [Function.update_of_ne (Ne.symm here)]
    exact before

theorem safe_checkCompletions {post : Unit → World Word Record Party → Prop} {history : List (List Nat)} {partitions : List Nat}
    (within : partitions ⊆ D.partitions group)
    (returns : ∀ u, D.protocol.idle .daemon u → Completed group history partitions u.published → post () u)
    (rest done : List Nat) (split : done ++ rest = partitions) {w : World Word Record Party} (idle : D.protocol.idle .daemon w)
    (known : Completed group history done w.published) :
    D.protocol.Safe .daemon post (D.checkCompletions (lastSequence history) rest) w := by
  induction rest generalizing done w with
  | nil =>
    rw [List.append_nil] at split
    exact returns w idle (split ▸ known)
  | cons partition rest ih =>
    have done_within : done ⊆ D.partitions group := fun p member => within (by rw [← split]; simp [member])
    have more_within : done ++ [partition] ⊆ D.partitions group := by
      intro p member
      apply within
      rw [← split]
      simpa using (List.mem_append.mp member).imp_right fun same => .inl (List.mem_singleton.mp same)
    -- afterwards the partition is known to have completed, or the reply is another one
    refine Protocol.safe_bind _ (Seqlock.safe_takeRecord
      (G := fun completion published =>
        Completed group history done published ∧
          (completion.sequence = lastSequence history → Completed group history (done ++ [partition]) published))
      idle ?_ ?_ ?_ ?_)
    · intro completion j other w u kept both effect
      obtain ⟨first, second⟩ := both
      exact ⟨completed_stable done_within j other w u kept first effect,
        fun same => completed_stable more_within j other w u kept (second same) effect⟩
    · intro u values completion rely closed last decoded
      have before := (completed_stable done_within).rely rely known
      refine ⟨before, fun same => ⟨before.1, fun p member => ?_⟩⟩
      rcases List.mem_append.mp member with old | new
      · exact before.2 p old
      · rw [List.mem_singleton.mp new, lastSequence_of_last last, ← same]
        obtain ⟨sequence, backedBytes, rfl⟩ := completion_shape closed last
        simp only [decodeCompletion] at decoded
        split at decoded
        · obtain rfl := Option.some.inj (Except.ok.inj decoded)
          rfl
        · cases decoded
    · intro u rely idle _ _
      exact idle
    · intro u completion _ _ idle facts _ _
      show D.protocol.Safe _ _ (if _ then _ else _) _
      split
      · next matching =>
        simp only [Option.any_some, decide_eq_true_eq] at matching
        exact ih (done ++ [partition]) (by simpa using split) idle (facts.2 matching)
      · exact idle

theorem safe_publishCommand {command : QuotaCommand} (idle : D.protocol.idle .daemon w) :
    D.protocol.Safe .daemon (fun _ => D.protocol.idle .daemon) (D.publishCommand group command) w := by
  unfold publishCommand
  split
  · exact idle
  next passed =>
  simp only [not_or, not_not] at passed
  obtain ⟨-, -, extent⟩ := passed
  have owns : D.seqlock.owns .daemon (.command group) := trivial
  -- the daemon's own last command, which nobody else replaces
  have known : Completed group (w.published (.command group)) [] w.published := ⟨rfl, fun _ member => by cases member⟩
  have none_within : ([] : List Nat) ⊆ D.partitions group := List.nil_subset _
  generalize w.published (.command group) = history at known
  have publishes : ∀ u, D.protocol.idle .daemon u → ∀ previous : Option QuotaCommand,
      previous.elim 0 (·.sequence) = lastSequence history → Completed group history [] u.published →
      D.protocol.Safe .daemon (fun _ => D.protocol.idle .daemon)
        (if previous.any (·.sequence = command.sequence) then if previous = some command then .ret () else .raise
          else
            let sequence := previous.elim 0 (·.sequence)
            if sequence = 2 ^ 32 - 1 ∨ command.sequence ≠ sequence + 1 then .raise
            else do
              if sequence ≠ 0 then D.checkCompletions sequence (D.partitions group) else .ret ()
              D.seqlock.publishRecord (.command group) (command.sequence :: command.quotaBytes))
        u := by
    intro u idle previous last known
    split
    · split
      · exact idle
      · exact idle
    dsimp only
    rw [last]
    split
    · exact idle
    next next =>
    simp only [not_or, not_not] at next
    have finish : ∀ v done, done ⊆ D.partitions group → (lastSequence history ≠ 0 → done = D.partitions group) →
        D.protocol.idle .daemon v → Completed group history done v.published →
        D.protocol.Safe .daemon (fun _ => D.protocol.idle .daemon)
          (D.seqlock.publishRecord (.command group) (command.sequence :: command.quotaBytes)) v := by
      intro v done within all idle known
      refine Seqlock.safe_publishRecord owns idle ?_ (completed_stable within) known ?_
      · simp [seqlock, data, extent, partitions]
      · rintro published ⟨same, completed⟩
        refine ⟨by simp [same, next.2], by simp [extent], fun issued => ?_⟩
        rw [same] at issued ⊢
        rw [all issued] at completed
        exact completed
    split
    · apply Protocol.safe_bind
      exact safe_checkCompletions (List.Subset.refl _)
        (fun v idle known => finish v _ (List.Subset.refl _) (fun _ => rfl) idle known) _ [] rfl idle known
    · next unissued => exact finish u [] none_within (fun issued => absurd issued unissued) idle known
  refine Protocol.safe_bind _ (Seqlock.safe_takeRecord
    (G := fun previous published => previous.sequence = lastSequence history ∧ Completed group history [] published)
    idle ?_ ?_ ?_ ?_)
  · intro previous j other w u kept facts effect
    exact ⟨facts.1, completed_stable none_within j other w u kept facts.2 effect⟩
  · intro u values previous rely closed last decoded
    have known := (completed_stable none_within).rely rely known
    refine ⟨?_, known⟩
    rw [← known.1, lastSequence_of_last last]
    obtain ⟨sequence, quotaBytes, rfl⟩ := command_shape closed last
    simp only [decodeCommand] at decoded
    split at decoded
    · obtain rfl := Option.some.inj (Except.ok.inj decoded)
      rfl
    · cases decoded
  · intro u rely idle _ own
    have known := (completed_stable none_within).rely rely known
    refine publishes u idle none ?_ known
    rcases own owns with empty | ⟨values, closed, last, decoded⟩
    · rw [← known.1, empty]
      rfl
    · rw [← known.1, lastSequence_of_last last]
      obtain ⟨sequence, quotaBytes, rfl⟩ := command_shape closed last
      simp only [decodeCommand, Except.ok.injEq] at decoded
      split at decoded
      · cases decoded
      · next zero => simpa using (not_not.mp zero).symm
  · intro u previous _ _ idle facts _ _
    exact publishes u idle (some previous) facts.1 facts.2

/-! ## Publishing a completion -/

/-- What a rank knows before it publishes: its own completions so far, and the
group's last command if it is one that the rank has not completed. -/
def Current (group partition : Nat) (history : List (List Nat)) (sequence : Option Nat)
    (published : Record → List (List Nat)) : Prop :=
  published (.completion partition) = history ∧
    ∀ expected ∈ sequence, lastSequence (published (.command group)) = expected

theorem current_stable {history : List (List Nat)} {sequence : Option Nat} (member : partition ∈ D.partitions group)
    (behind : ∀ expected ∈ sequence, lastSequence history < expected) :
    Seqlock.Stable D.seqlock D.allowed (.rank group partition) (Current group partition history sequence) := by
  intro j other w u _ known effect
  obtain ⟨same, command⟩ := known
  rcases effect.published with unchanged | ⟨r, values, owns, may, published⟩
  · rw [unchanged]
    exact ⟨same, command⟩
  rw [published]
  have completion : Function.update w.published r (w.published r ++ [values]) (.completion partition) = history := by
    rw [Function.update_of_ne ?_, same]
    intro eq
    rw [← eq] at owns
    exact other (D.seqlock.single owns ⟨rfl, member⟩)
  refine ⟨completion, fun expected found => ?_⟩
  have before := command expected found
  by_cases here : r = .command group
  · -- the next command waits for this rank
    subst here
    obtain ⟨-, -, finished⟩ := may
    have less := behind expected found
    have := finished (by omega) partition member
    rw [same] at this
    omega
  · rw [Function.update_of_ne (Ne.symm here)]
    exact before

theorem safe_publishCompletion {completion : QuotaCompletion} (member : partition ∈ D.partitions group)
    (idle : D.protocol.idle (.rank group partition) w) :
    D.protocol.Safe (.rank group partition) (fun _ => D.protocol.idle (.rank group partition))
      (D.publishCompletion group partition completion) w := by
  unfold publishCompletion
  split
  · exact idle
  next nonzero =>
  have owns : D.seqlock.owns (.rank group partition) (.completion partition) := ⟨rfl, member⟩
  have known : Current group partition (w.published (.completion partition)) none w.published :=
    ⟨rfl, fun _ impossible => by cases impossible⟩
  generalize w.published (.completion partition) = history at known
  have alone : Seqlock.Stable D.seqlock D.allowed (.rank group partition) (Current group partition history none) :=
    current_stable member fun _ impossible => by cases impossible
  -- with the rank's last completion read, the command decides
  have publishes : ∀ u, D.protocol.idle (.rank group partition) u → ∀ previous : Option QuotaCompletion,
      previous.elim 0 (·.sequence) = lastSequence history → Current group partition history none u.published →
      D.protocol.Safe (.rank group partition) (fun _ => D.protocol.idle (.rank group partition))
        (if previous.any (·.sequence = completion.sequence) then
          if previous = some completion then .ret () else .raise
        else do
          let command ← D.readCommand group
          if command.any (·.sequence = completion.sequence) && previous.all (·.sequence < completion.sequence) then
            D.seqlock.publishRecord (.completion partition) [completion.sequence, completion.backedBytes]
          else .raise)
        u := by
    intro u idle previous last known
    split
    · split
      · exact idle
      · exact idle
    by_cases behind : lastSequence history < completion.sequence
    · have stable : Seqlock.Stable D.seqlock D.allowed (.rank group partition)
          (Current group partition history (some completion.sequence)) :=
        current_stable member fun expected found => by rwa [← Option.some.inj found]
      refine Protocol.safe_bind _ (Seqlock.safe_takeRecord
        (G := fun command published =>
          command.sequence = completion.sequence → Current group partition history (some completion.sequence) published)
        idle ?_ ?_ ?_ ?_)
      · intro command j other w u kept fact effect same
        exact stable j other w u kept (fact same) effect
      · intro v values command rely closed last decoded same
        refine ⟨(alone.rely rely known).1, fun expected found => ?_⟩
        rw [lastSequence_of_last last, ← Option.some.inj found, ← same]
        obtain ⟨sequence, quotaBytes, rfl⟩ := command_shape closed last
        simp only [decodeCommand] at decoded
        split at decoded
        · obtain rfl := Option.some.inj (Except.ok.inj decoded)
          rfl
        · cases decoded
      · exact fun v _ idle _ _ => idle
      · intro v command _ _ idle fact _ _
        show D.protocol.Safe _ _ (if _ then _ else _) _
        split
        · next matching =>
          simp only [Option.any_some, Bool.and_eq_true, decide_eq_true_eq] at matching
          refine Seqlock.safe_publishRecord owns idle rfl stable (fact matching.1) ?_
          rintro published ⟨same, command⟩
          have command := command completion.sequence rfl
          refine ⟨group, completion.backedBytes, member, by rw [command], ?_⟩
          rw [same, command]
          exact behind
        · exact idle
    · -- an older completion is refused whatever the command is
      have refused : previous.all (·.sequence < completion.sequence) = false := by
        cases previous with
        | none =>
          simp only [Option.elim_none] at last
          omega
        | some previous =>
          simp only [Option.elim_some] at last
          simp
          omega
      simp only [refused, Bool.and_false, Bool.false_eq_true, if_false]
      apply Protocol.safe_bind
      exact Protocol.safe_mono (safe_take idle) fun _ _ idle => idle
  refine Protocol.safe_bind _ (Seqlock.safe_takeRecord
    (G := fun previous published => previous.sequence = lastSequence history ∧ Current group partition history none published)
    idle ?_ ?_ ?_ ?_)
  · intro previous j other w u kept facts effect
    exact ⟨facts.1, alone j other w u kept facts.2 effect⟩
  · intro u values previous rely closed last decoded
    have known := alone.rely rely known
    refine ⟨?_, known⟩
    rw [← known.1, lastSequence_of_last last]
    obtain ⟨sequence, backedBytes, rfl⟩ := completion_shape closed last
    simp only [decodeCompletion] at decoded
    split at decoded
    · obtain rfl := Option.some.inj (Except.ok.inj decoded)
      rfl
    · cases decoded
  · intro u rely idle _ own
    have known := alone.rely rely known
    refine publishes u idle none ?_ known
    rcases own owns with empty | ⟨values, closed, last, decoded⟩
    · rw [← known.1, empty]
      rfl
    · rw [← known.1, lastSequence_of_last last]
      obtain ⟨sequence, backedBytes, rfl⟩ := completion_shape closed last
      simp only [decodeCompletion, Except.ok.injEq] at decoded
      split at decoded
      · cases decoded
      · next zero => simpa using (not_not.mp zero).symm
  · intro u previous _ _ idle facts _ _
    exact publishes u idle (some previous) facts.1 facts.2

/-! ## Publishing a demand -/

theorem safe_publishDemand {demand : QuotaDemand} (member : partition ∈ D.partitions group)
    (idle : D.protocol.idle (.rank group partition) w) :
    D.protocol.Safe (.rank group partition) (fun _ => D.protocol.idle (.rank group partition))
      (D.publishDemand group partition demand) w := by
  unfold publishDemand
  split
  · exact idle
  next passed =>
  simp only [not_or, not_not, Bool.not_eq_true', Bool.not_eq_false] at passed
  obtain ⟨leader, nonzero, present, extent⟩ := passed
  intro u rely kept
  have idle := rely.idle idle
  dsimp only
  split
  · refine Seqlock.safe_publishRecord (F := fun _ => True) ⟨rfl, leader, member⟩ idle ?_ ?_ trivial ?_
    · have size : (demand.requiredBytes.getD (List.replicate (D.partitionCount group) 0)).length = D.partitionCount group := by
        cases required : demand.requiredBytes with
        | none => simp
        | some bytes =>
          rw [required] at extent
          simpa using extent
      simp [seqlock, data, demandWords, partitions, size]
    · exact fun _ _ _ _ _ _ _ => trivial
    · exact fun published _ => ⟨demand, rfl, nonzero, present, extent⟩
  · exact idle

/-! ## Runs -/

/-- A publication returns nothing that was read. -/
theorem safe_published {past : List (Call × Reply)} {call : Call} {p : Thread Word Record Unit}
    (replies : D.Replies (call, .published)) (takes : ∀ r, D.taken r (call, .published) = [])
    (safe : D.protocol.Safe i (fun _ => D.protocol.idle i) p w) :
    D.protocol.Safe i (D.account.Returns i past call)
      (do
        p
        return Reply.published)
      w := by
  apply Protocol.safe_bind
  refine Protocol.safe_mono safe ?_
  intro _ u idle
  refine ⟨idle, fun accounted => ⟨?_, fun r => ?_⟩⟩
  · intro entry member
    rcases List.mem_append.mp member with old | new
    · exact accounted.replies entry old
    · rwa [List.mem_singleton.mp new]
  · rw [List.flatMap_append, List.flatMap_singleton, takes, List.append_nil]
    exact accounted.taken r

/-- A read returns what it observes. -/
theorem safe_answered {α : Type} (call : Call) (record : Nat → Record) (decodes : List Nat → Except Unit (Option α))
    (value : α → Value) (reply : List (Option α) → Reply) (indices : List Nat) {past : List (Call × Reply)}
    (meaning : ∀ index words a, decodes words = .ok (some a) → decode (record index) words = some (value a))
    (replies : ∀ answers, answers.length = indices.length → D.Replies (call, reply answers))
    (takes : ∀ answers r, D.taken r (call, reply answers) = placed record value indices answers r)
    (idle : D.protocol.idle i w) (accounted : Accounted D i past w) :
    D.protocol.Safe i (D.account.Returns i past call)
      (do
        let answers ← readEach (fun index => D.seqlock.takeRecord (record index) decodes) indices
        return reply answers)
      w := by
  apply Protocol.safe_bind
  refine Protocol.safe_mono (safe_readEach meaning indices idle) ?_
  rintro answers u ⟨idle, length, more⟩
  refine ⟨idle, fun _ => ⟨?_, fun r => ?_⟩⟩
  · intro entry member
    rcases List.mem_append.mp member with old | new
    · exact accounted.replies entry old
    · rw [List.mem_singleton.mp new]
      exact replies answers length
  · obtain ⟨more, observed, found⟩ := more r
    rw [List.flatMap_append, List.flatMap_singleton, takes, observed, List.filterMap_append, found]
    exact (accounted.taken r).append_right _

theorem safe_program : Protocol.Calls D.account D.program := by
  intro i call past w _ idle accounted
  cases call with
  | publishCommand group command =>
    cases i with
    | daemon => exact safe_published trivial (fun _ => rfl) (safe_publishCommand idle)
    | rank => exact idle
    | reader => exact idle
  | publishCompletion completion =>
    cases i with
    | daemon => exact idle
    | rank group partition =>
      simp only [program]
      split
      · next member => exact safe_published trivial (fun _ => rfl) (safe_publishCompletion member idle)
      · exact idle
    | reader => exact idle
  | publishDemand demand =>
    cases i with
    | daemon => exact idle
    | rank group partition =>
      simp only [program]
      split
      · next member => exact safe_published trivial (fun _ => rfl) (safe_publishDemand member idle)
      · exact idle
    | reader => exact idle
  | readCommands groupRowBegin dpGroupCount =>
    have reads := safe_answered (D := D) (.readCommands groupRowBegin dpGroupCount) .command decodeCommand .command .commands
      (List.range' groupRowBegin dpGroupCount) (fun _ words a decoded => by rw [decode, decoded]; rfl)
      (fun answers length => by rwa [List.length_range'] at length) (fun _ _ => rfl) idle accounted
    cases i <;> exact reads
  | readCompletions =>
    have reads := safe_answered (D := D) .readCompletions .completion decodeCompletion .completion .completions
      (List.range D.totalPartitions) (fun _ words a decoded => by rw [decode, decoded]; rfl)
      (fun answers length => by rwa [List.length_range] at length) (fun _ _ => rfl) idle accounted
    cases i <;> exact reads
  | readDemands =>
    have reads := safe_answered (D := D) .readDemands .demand decodeDemand .demand .demands
      (List.range D.groupCount) (fun _ words a decoded => by rw [decode, decoded]; rfl)
      (fun answers length => by rwa [List.length_range] at length) (fun _ _ => rfl) idle accounted
    cases i <;> exact reads

theorem zeroed_inv : D.protocol.inv zeroed ∧ ∀ i, D.protocol.idle i zeroed ∧ Accounted D i [] zeroed := by
  have closed : ∀ r, D.seqlock.Closed zeroed r := fun r => ⟨rfl, fun last found => by cases found⟩
  refine ⟨⟨fun r => .inl (closed r), fun r => Nat.zero_le _, ?_, ?_⟩, fun i => ⟨fun r _ => closed r, ?_, ?_⟩⟩
  · intro i r entry member
    cases member
  · exact fun i r => List.Pairwise.nil
  · intro entry member
    cases member
  · exact fun r => List.Sublist.slnil

theorem channel_sound {pool : Pool Word Record Party Call Reply} (reached : D.channel.Reachable pool) :
    D.protocol.Sound D.account pool := by
  refine Protocol.reachable ?_ safe_program reached
  rintro w rfl
  exact zeroed_inv

theorem channel_step {pool after : Pool Word Record Party Call Reply} {action : Action Party Call}
    (reached : D.channel.Reachable pool) (taken : D.channel.step pool action after) :
    after.world = pool.world ∨ ∃ i, D.seqlock.Effect D.allowed i pool.world after.world :=
  ((channel_sound reached).step safe_program taken).2

/-- What publications keep, runs keep. -/
theorem channel_published {pool : Pool Word Record Party Call Reply} {K : (Record → List (List Nat)) → Prop} (start : K fun _ => [])
    (publication :
      ∀ published r values, K published → D.allowed published r values →
        K (Function.update published r (published r ++ [values])))
    (reached : D.channel.Reachable pool) : K pool.world.published := by
  apply System.ReachableUnder.invariant ?_ ?_ reached
  · rintro pool ⟨init, -⟩
    rw [init]
    exact start
  · intro pool action after reached kept _ taken
    rcases channel_step reached taken with same | ⟨i, effect⟩
    · rwa [same]
    · rcases effect.published with same | ⟨r, values, -, may, published⟩
      · rwa [same]
      · rw [published]
        exact publication _ r values kept may

end Directory

/-! ## Reads are not torn -/

section Reads

variable {D : Directory} {pool : Pool Word Record Party Call Reply}

/-- A demand is read as it was published. -/
theorem decodeDemand_demandWords {group : Nat} {demand : QuotaDemand} (nonzero : demand.evaluatedSequence ≠ 0)
    (present : demand.requiredBytes.isSome = demand.deadlineMonotonicNs.isSome) :
    Directory.decodeDemand (D.demandWords group demand) = .ok (some demand) := by
  obtain ⟨evaluated, required, deadline⟩ := demand
  cases required <;> cases deadline <;> simp_all [Directory.decodeDemand, Directory.demandWords]

/-- What a publication means to its reader. -/
def Decodes (D : Directory) : Record → List Nat → Prop
  | .command _, values => ∃ command, Directory.decodeCommand values = .ok (some command) ∧ values = command.sequence :: command.quotaBytes
  | .completion _, values =>
    ∃ completion, Directory.decodeCompletion values = .ok (some completion) ∧
      values = [completion.sequence, completion.backedBytes]
  | .demand group, values =>
    ∃ demand, Directory.decodeDemand values = .ok (some demand) ∧ values = D.demandWords group demand

theorem published_decodes (reached : D.channel.Reachable pool) (r : Record) (values : List Nat)
    (member : values ∈ pool.world.published r) : Decodes D r values := by
  have all : ∀ r, ∀ values ∈ pool.world.published r, Decodes D r values := by
    refine Directory.channel_published (K := fun published => ∀ r, ∀ values ∈ published r, Decodes D r values) ?_ ?_ reached
    · intro r values member
      cases member
    · intro published r values decodes may r' values' member'
      by_cases here : r' = r
      swap
      · rw [Function.update_of_ne here] at member'
        exact decodes r' values' member'
      subst here
      rw [Function.update_self, List.mem_append, List.mem_singleton] at member'
      rcases member' with old | rfl
      · exact decodes r' values' old
      cases r' with
      | command group =>
        obtain ⟨head, -, -⟩ := may
        cases values' with
        | nil => cases head
        | cons sequence quotaBytes =>
          obtain rfl : sequence = _ := Option.some.inj head
          exact ⟨⟨_, quotaBytes⟩, rfl, rfl⟩
      | completion partition =>
        obtain ⟨group, backedBytes, -, rfl, less⟩ := may
        refine ⟨⟨lastSequence (published (.command group)), backedBytes⟩, ?_, rfl⟩
        simp only [Directory.decodeCompletion]
        rw [if_pos (by omega)]
      | demand group =>
        obtain ⟨demand, rfl, nonzero, present, -⟩ := may
        exact ⟨demand, decodeDemand_demandWords nonzero present, rfl⟩
  exact all r values member

/-- Every record that a party takes from the channel is one publication of its
only writer, and the publications that one party takes of one record never go
back. What the party's calls have returned of the record, each value at its group's
or partition's place, are those publications in order. -/
theorem reads_not_torn (reached : D.channel.Reachable pool) (i : Party) (r : Record) :
    (∀ entry ∈ pool.world.observed i r,
        ∃ n, entry.1 = 2 * (n + 1) ∧ (pool.world.published r)[n]? = some entry.2 ∧ Decodes D r entry.2) ∧
      ((pool.world.observed i r).map Prod.fst).Pairwise (· ≤ ·) ∧
      (∀ entry ∈ pool.returned i, D.Replies entry) ∧
      ((pool.returned i).flatMap (D.taken r)).Sublist
        ((pool.world.observed i r).filterMap fun entry => decode r entry.2) := by
  have sound := Directory.channel_sound reached
  have inv : D.seqlock.Inv pool.world := sound.inv
  have accounted : Accounted D i (pool.returned i) pool.world := sound.account i
  refine ⟨fun entry member => ?_, inv.order i r, accounted.replies, accounted.taken r⟩
  obtain ⟨⟨n, revision, found⟩, -⟩ := inv.observed i r entry member
  exact ⟨n, revision, found, published_decodes reached r entry.2 (List.mem_of_getElem? found)⟩

/-- A group of one rank. -/
def single : Directory where
  partitionCounts := [1]
  positive := by decide

/-- The daemon publishes the first command of a group, a reader takes it, and the
rank completes it. -/
def singleRun : List (Action Party Call) :=
  List.flatten
    [ [ .call .daemon (.publishCommand 0 ⟨1, [7]⟩) ],
      List.replicate 7 (.run .daemon),
      [ .call (.reader 0) (.readCommands 0 1) ],
      List.replicate 6 (.run (.reader 0)),
      [ .call (.rank 0 0) (.publishCompletion ⟨1, 5⟩) ],
      List.replicate 12 (.run (.rank 0 0)) ]

theorem single_reaches (P : Pool Word Record Party Call Reply → Bool)
    (leads : (singleRun.foldlM (Pool.next single.program) ⟨zeroed, fun _ => none, fun _ => []⟩).any P) :
    ∃ pool, single.channel.Reachable pool ∧ P pool := by
  have start : single.channel.Reachable ⟨zeroed, fun _ => none, fun _ => []⟩ := .start ⟨rfl, fun _ => ⟨rfl, rfl⟩⟩
  exact System.ReachableUnder.run (Pool.next single.program) (fun _ _ _ taken => ⟨trivial, taken⟩) start singleRun P leads

theorem reads_not_torn_taken :
    ∃ pool, single.channel.Reachable pool ∧ pool.world.observed (.reader 0) (.command 0) = [(2, [1, 7])] ∧
      pool.returned (.reader 0) = [(.readCommands 0 1, .commands [some ⟨1, [7]⟩])] ∧
      (∀ entry ∈ pool.world.observed (.reader 0) (.command 0),
          ∃ n, entry.1 = 2 * (n + 1) ∧ (pool.world.published (.command 0))[n]? = some entry.2 ∧
            Decodes single (.command 0) entry.2) ∧
        ((pool.world.observed (.reader 0) (.command 0)).map Prod.fst).Pairwise (· ≤ ·) ∧
        (∀ entry ∈ pool.returned (.reader 0), single.Replies entry) ∧
        ((pool.returned (.reader 0)).flatMap (single.taken (.command 0))).Sublist
          ((pool.world.observed (.reader 0) (.command 0)).filterMap fun entry => decode (.command 0) entry.2) := by
  obtain ⟨pool, reached, taken⟩ :=
    single_reaches
      (fun pool =>
        pool.world.observed (.reader 0) (.command 0) = [(2, [1, 7])] ∧
          pool.returned (.reader 0) = [(.readCommands 0 1, .commands [some ⟨1, [7]⟩])])
      (by decide +kernel)
  obtain ⟨observed, returned⟩ := of_decide_eq_true taken
  exact ⟨pool, reached, observed, returned, reads_not_torn reached (.reader 0) (.command 0)⟩

end Reads

/-! ## Commands and completions -/

/-- Commands and completions are numbered from one without gaps, and no partition
is more than one command behind. -/
structure Disciplined (D : Directory) (published : Record → List (List Nat)) : Prop where
  commands :
    ∀ group, (published (.command group)).map List.head? =
      (List.range' 1 (published (.command group)).length).map some
  extents : ∀ group, ∀ values ∈ published (.command group), values.length = D.partitionCount group + 1
  completions :
    ∀ partition, (published (.completion partition)).map List.head? =
      (List.range' 1 (published (.completion partition)).length).map some
  lag :
    ∀ group, ∀ partition ∈ D.partitions group,
      (published (.completion partition)).length = (published (.command group)).length ∨
        (published (.completion partition)).length + 1 = (published (.command group)).length

section Commands

variable {D : Directory} {published : Record → List (List Nat)} {pool : Pool Word Record Party Call Reply}

/-- Where publications are numbered, the last sequence is their count. -/
theorem lastSequence_eq_length {publications : List (List Nat)}
    (numbered : publications.map List.head? = (List.range' 1 publications.length).map some) :
    lastSequence publications = publications.length := by
  cases last : publications.getLast? with
  | none =>
    rw [List.getLast?_eq_none_iff.mp last]
    rfl
  | some values =>
    rw [Directory.lastSequence_of_last last]
    rw [List.getLast?_eq_getElem?] at last
    have bound := (List.getElem?_eq_some_iff.mp last).1
    have heads := congrArg (·[publications.length - 1]?) numbered
    simp only [List.getElem?_map, last, Option.map_some] at heads
    rw [List.getElem?_range' (by omega)] at heads
    simp only [Option.map_some, Option.some.injEq] at heads
    rw [heads]
    simp only [Option.getD_some]
    omega

theorem numbered_concat {publications : List (List Nat)} {values : List Nat}
    (numbered : publications.map List.head? = (List.range' 1 publications.length).map some)
    (next : values.head? = some (publications.length + 1)) :
    (publications ++ [values]).map List.head? = (List.range' 1 (publications ++ [values]).length).map some := by
  rw [List.map_append, numbered, List.length_append, List.length_singleton, List.range'_1_concat, List.map_append,
    Nat.add_comm 1]
  simp [next]

theorem Disciplined.publication (disciplined : Disciplined D published) {r : Record} {values : List Nat}
    (may : D.allowed published r values) : Disciplined D (Function.update published r (published r ++ [values])) := by
  obtain ⟨commands, extents, completions, lag⟩ := disciplined
  cases r with
  | command group =>
    obtain ⟨next, extent, finished⟩ := may
    rw [lastSequence_eq_length (commands group)] at next finished
    have others : ∀ partition, Function.update published (.command group) (published (.command group) ++ [values])
        (.completion partition) = published (.completion partition) :=
      fun partition => Function.update_of_ne (by simp) _ _
    refine ⟨fun group' => ?_, fun group' values' member => ?_, fun partition => ?_, fun group' partition member => ?_⟩
    · by_cases here : group' = group
      · subst here
        rw [Function.update_self]
        exact numbered_concat (commands group') next
      · rw [Function.update_of_ne (by simpa using here)]
        exact commands group'
    · by_cases here : group' = group
      · subst here
        rw [Function.update_self, List.mem_append, List.mem_singleton] at member
        rcases member with old | rfl
        · exact extents group' values' old
        · exact extent
      · rw [Function.update_of_ne (by simpa using here)] at member
        exact extents group' values' member
    · rw [others]
      exact completions partition
    · rw [others]
      have before := lag group' partition member
      by_cases here : group' = group
      · subst here
        rw [Function.update_self, List.length_append, List.length_singleton]
        by_cases issued : (published (.command group')).length = 0
        · omega
        · have finished := finished issued partition member
          rw [lastSequence_eq_length (completions partition)] at finished
          omega
      · rw [Function.update_of_ne (by simpa using here)]
        exact before
  | completion partition =>
    obtain ⟨group, backedBytes, member, rfl, less⟩ := may
    rw [lastSequence_eq_length (commands group)] at less ⊢
    rw [lastSequence_eq_length (completions partition)] at less
    have others : ∀ group', Function.update published (.completion partition)
        (published (.completion partition) ++ [[(published (.command group)).length, backedBytes]]) (.command group') =
          published (.command group') :=
      fun group' => Function.update_of_ne (by simp) _ _
    have current := lag group partition member
    refine ⟨fun group' => ?_, fun group' values' => ?_, fun partition' => ?_, fun group' partition' member' => ?_⟩
    · rw [others]
      exact commands group'
    · rw [others]
      exact extents group' values'
    · by_cases here : partition' = partition
      · subst here
        rw [Function.update_self]
        refine numbered_concat (completions partition') ?_
        simp only [List.head?_cons, Option.some.injEq]
        omega
      · rw [Function.update_of_ne (by simpa using here)]
        exact completions partition'
    · rw [others]
      have before := lag group' partition' member'
      by_cases here : partition' = partition
      · subst here
        obtain rfl := Directory.group_unique member member'
        rw [Function.update_self, List.length_append, List.length_singleton]
        omega
      · rw [Function.update_of_ne (by simpa using here)]
        exact before
  | demand group =>
    have others : ∀ r, r ≠ .demand group →
        Function.update published (.demand group) (published (.demand group) ++ [values]) r = published r :=
      fun r ne => Function.update_of_ne ne _ _
    refine ⟨fun group' => ?_, fun group' => ?_, fun partition => ?_, fun group' partition => ?_⟩
    · rw [others _ (by simp)]
      exact commands group'
    · rw [others _ (by simp)]
      exact extents group'
    · rw [others _ (by simp)]
      exact completions partition
    · rw [others _ (by simp), others _ (by simp)]
      exact lag group' partition

theorem reachable_disciplined (reached : D.channel.Reachable pool) : Disciplined D pool.world.published := by
  refine Directory.channel_published ?_ (fun _ _ _ disciplined may => disciplined.publication may) reached
  refine ⟨fun _ => rfl, ?_, fun _ => rfl, fun _ _ _ => .inl rfl⟩
  intro group values member
  cases member

/-- Commands and completions of a group advance in turn: in every state they are
numbered and at most one apart, a step adds a command only behind the completions
of all partitions, and what was published is never replaced. -/
theorem command_protocol (reached : D.channel.Reachable pool) :
    Disciplined D pool.world.published ∧
      (∀ r, pool.world.memory (Directory.revision r) % 2 = 0 →
        ∀ last, (pool.world.published r).getLast? = some last → (D.data r).map pool.world.memory = last) ∧
      (∀ action after, D.channel.step pool action after → ∀ group,
        after.world.published (.command group) = pool.world.published (.command group) ∨
          (∃ values, after.world.published (.command group) = pool.world.published (.command group) ++ [values]) ∧
            ∀ partition ∈ D.partitions group,
              (pool.world.published (.completion partition)).length = (pool.world.published (.command group)).length) ∧
      ∀ later, D.channel.Later pool later → ∀ r, pool.world.published r <+: later.world.published r := by
  have disciplined := reachable_disciplined reached
  have inv : D.seqlock.Inv pool.world := (Directory.channel_sound reached).inv
  refine ⟨disciplined, ?_, ?_, ?_⟩
  · intro r even last found
    rcases inv.record r with closed | opened
    · exact closed.words last found
    · have : pool.world.memory (Directory.revision r) = _ := opened
      omega
  · intro action after taken group
    rcases Directory.channel_step reached taken with same | ⟨i, effect⟩
    · exact .inl (by rw [same])
    rcases effect.published with same | ⟨r, values, -, may, published⟩
    · exact .inl (by rw [same])
    by_cases here : r = .command group
    swap
    · exact .inl (by rw [published, Function.update_of_ne (Ne.symm here)])
    subst here
    refine .inr ⟨⟨values, by rw [published, Function.update_self]⟩, fun partition member => ?_⟩
    obtain ⟨-, -, finished⟩ := may
    rw [lastSequence_eq_length (disciplined.commands group)] at finished
    have lag := disciplined.lag group partition member
    by_cases issued : (pool.world.published (.command group)).length = 0
    · omega
    · have finished := finished issued partition member
      rwa [lastSequence_eq_length (disciplined.completions partition)] at finished
  · intro later run
    refine System.LaterUnder.relation
      (R := fun pool later : Pool Word Record Party Call Reply => ∀ r, pool.world.published r <+: later.world.published r) ?_ ?_ ?_ reached run
    · exact fun _ _ => List.prefix_rfl
    · exact fun _ _ _ first second r => (first r).trans (second r)
    · intro pool action after reached taken r
      rcases Directory.channel_step reached taken with same | ⟨i, effect⟩
      · have unchanged : after.world.published r = pool.world.published r := congrArg (·.published r) same
        exact unchanged ▸ List.prefix_rfl
      · exact (effect.grows r).1

/-- The rank of a group has completed the first command. -/
theorem command_protocol_completed :
    ∃ pool, single.channel.Reachable pool ∧ pool.world.published (.completion 0) = [[1, 5]] ∧
      Disciplined single pool.world.published := by
  obtain ⟨pool, reached, completed⟩ :=
    single_reaches (fun pool => pool.world.published (.completion 0) = [[1, 5]]) (by decide +kernel)
  exact ⟨pool, reached, by simpa using completed, (command_protocol reached).1⟩

end Commands

end CrossPool.Ecs.Channel
