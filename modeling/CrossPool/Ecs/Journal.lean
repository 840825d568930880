import Mathlib.Data.List.Perm.Basic
import Mathlib.Data.List.Sort
import CrossPool.Lib.Procedure
import CrossPool.Lib.Runs
import CrossPool.Lib.Undo

/-!
# The journal of one allocation attempt

An attempt takes pages, request rows and cache locks, and changes requests, the paired
mapping, the request table and the scheduler's queue, before the common verdict of all
ranks is known. Its journal keeps a receipt of each effect; `rollback` undoes them in
separate loops and consumes the receipts as it goes.
-/

namespace CrossPool.Ecs

open CrossPool.Lib

/-! ## What an attempt acts on -/

/-- `DecLockRefParams` -/
structure DecLockRefParams where
  identity : Nat
  nodeId : Option Nat
deriving DecidableEq, Repr

/-- The fields of a request that an attempt changes before it is published. -/
structure SglangRequestCheckpoint where
  reqPoolIdx : Option Nat
  extendRange : Option (Nat × Nat)
  lockReceipt : DecLockRefParams
  kvAllocatedLen : Nat
  kvCommittedLen : Nat
  inflightMiddleChunks : Nat
deriving DecidableEq, Repr

/-- The engine's side: requests, allocators and locks are named by numbers. -/
structure Engine where
  fullToSwaMapping : Nat → Nat
  reqToToken : Nat × Nat → Nat
  requests : Nat → SglangRequestCheckpoint
  prefixLen : Nat → Nat
  freePages : Nat → List Nat
  freeRows : List Nat
  lockRefs : Nat × DecLockRefParams → Int
  waitingQueue : List Nat
  chunkedReq : Option Nat

/-- What an attempt is created over. -/
structure AllocationScope where
  fullAllocator : Nat
  pageSize : Nat
  paired : Bool
  scheduled : Bool
deriving DecidableEq, Repr

/-- `SglangAllocation`; the stacks have the newest receipt first. -/
structure SglangAllocation where
  bound : Bool
  checkpoints : List (Nat × SglangRequestCheckpoint)
  pageAllocations : List (Nat × List Nat)
  mappingSnapshots : List (List (Nat × Nat))
  requestRows : List Nat
  lockReceipts : List (Nat × DecLockRefParams)
  waitingPositions : List (Nat × Nat)
  priorChunkOwner : Option Nat
  decodeRows : Option (List (Nat × Nat) × Nat)
  active : Bool
  committed : Bool
  rolledBack : Bool
deriving DecidableEq, Repr

/-- An attempt within its engine. `before` is the engine at entry, `written` the request
table entries that the attempt wrote, `late` the requests watched after one ahead of them
in the queue had been taken out, and `unwinding` that a rollback was begun. A cleanup
step with a number in `fails` raises without effect. -/
structure Attempt extends Engine, SglangAllocation where
  before : Engine
  written : List (Nat × Nat)
  late : List Nat
  unwinding : Bool
  fails : Nat → Bool
  calls : Nat

namespace Attempt

variable (c : AllocationScope)

/-- `__enter__` -/
def enter (engine : Engine) (fails : Nat → Bool) : Attempt where
  toEngine := engine
  bound := false
  checkpoints := []
  pageAllocations := []
  mappingSnapshots := []
  requestRows := []
  lockReceipts := []
  waitingPositions := []
  priorChunkOwner := if c.scheduled then engine.chunkedReq else none
  decodeRows := none
  active := true
  committed := false
  rolledBack := false
  before := engine
  written := []
  late := []
  unwinding := false
  fails := fails
  calls := 0

/-! ## The journal's operations -/

section Operations

variable (m : Attempt)

def watched : List Nat :=
  m.checkpoints.map Prod.fst

/-- The place of a request in the queue. -/
def position (request : Nat) : Option Nat :=
  if request ∈ m.waitingQueue then some (m.waitingQueue.idxOf request) else none

/-- Some request that stood ahead at entry is gone from the queue. -/
def overtakes (request : Nat) : Bool :=
  m.before.waitingQueue.any fun other =>
    decide (m.before.waitingQueue.idxOf other < m.before.waitingQueue.idxOf request) && decide (other ∉ m.waitingQueue)

/-- One round of `watch`. -/
def watchOne (request : Nat) : Attempt :=
  if request ∈ m.watched then m
  else
    { m with
      checkpoints := m.checkpoints ++ [(request, m.requests request)]
      waitingPositions :=
        if c.scheduled then m.waitingPositions ++ (m.position request).toList.map (request, ·) else m.waitingPositions
      late := if m.overtakes request then request :: m.late else m.late }

def watch (requests : List Nat) : Attempt :=
  requests.foldl (watchOne c) m

/-- `record_allocation` -/
def recordAllocation (allocator : Nat) (pageIds locations : List Nat) : Attempt :=
  { m with
    pageAllocations := if pageIds.length ≠ 0 then (allocator, pageIds) :: m.pageAllocations else m.pageAllocations
    mappingSnapshots :=
      if allocator = c.fullAllocator ∧ c.paired then snapshot m.fullToSwaMapping locations :: m.mappingSnapshots
      else m.mappingSnapshots }

/-- `record_acquisition`: `pages` are the free pages before. -/
def recordAcquisition (allocator : Nat) (pages locations : List Nat) : Attempt :=
  if m.bound then
    m.recordAllocation c allocator (pages.take (pages.length - (m.freePages allocator).length)) locations
  else m

/-- `record_rows` -/
def recordRows (rows : List Nat) : Attempt :=
  { m with requestRows := m.requestRows ++ rows }

/-- `record_lock` -/
def recordLock (receipt : DecLockRefParams) : Attempt :=
  match receipt.nodeId with
  | some node => { m with lockReceipts := (node, receipt) :: m.lockReceipts }
  | none => m

/-- `commit` -/
def commit : Option Attempt :=
  if !m.active || m.committed || m.rolledBack then none
  else
    some
      { m with
        committed := true
        checkpoints := []
        pageAllocations := []
        mappingSnapshots := []
        requestRows := []
        lockReceipts := []
        waitingPositions := []
        decodeRows := none }

end Operations

/-! ## Rollback -/

inductive RollbackError
  /-- `RuntimeError` -/
  | outside
  /-- whatever a cleanup step raised -/
  | cleanup
deriving DecidableEq, Repr

abbrev Rollback :=
  EStateM RollbackError Attempt PUnit

/-- A step that may raise, without effect. -/
def cleanup (effect : Attempt → Attempt) : Rollback := do
  let m ← get
  modify fun m => { m with calls := m.calls + 1 }
  if m.fails m.calls then throw .cleanup else modify effect

/-- Write zeros to the request table. -/
def clearTable (places : Nat × Nat → Bool) (m : Attempt) : Attempt :=
  { m with reqToToken := fun place => if places place then 0 else m.reqToToken place }

/-- The entries of the Decode rows past their lengths. -/
def decodePlaces (rows : List (Nat × Nat) × Nat) (place : Nat × Nat) : Bool :=
  rows.1.any fun row => row.1 = place.1 && row.2 ≤ place.2 && place.2 < row.2 + rows.2

/-- The entries of a watched request past its former length. -/
def tailPlaces (m : Attempt) (entry : Nat × SglangRequestCheckpoint) (place : Nat × Nat) : Bool :=
  entry.2.reqPoolIdx = some place.1 && max entry.2.kvAllocatedLen (m.prefixLen entry.1) ≤ place.2 &&
    place.2 < (m.requests entry.1).kvAllocatedLen

def undoMappings : Rollback := do
  (← get).mappingSnapshots.forM fun entries => do
    cleanup fun m => { m with fullToSwaMapping := assign m.fullToSwaMapping entries }
    modify fun m => { m with mappingSnapshots := m.mappingSnapshots.tail }

def undoTable : Rollback := do
  let m ← get
  match m.decodeRows with
  | some rows => do
    cleanup (clearTable (decodePlaces rows))
    modify fun m => { m with decodeRows := none }
  | none =>
    m.checkpoints.forM fun entry =>
      if entry.2.reqPoolIdx.isSome then cleanup fun m => clearTable (tailPlaces m entry) m else pure ⟨⟩

def undoPages : Rollback := do
  (← get).pageAllocations.forM fun entry => do
    cleanup fun m => { m with freePages := Function.update m.freePages entry.1 (m.freePages entry.1 ++ entry.2) }
    modify fun m => { m with pageAllocations := m.pageAllocations.tail }

def undoRows : Rollback := do
  let m ← get
  if m.requestRows.isEmpty then pure ⟨⟩
  else do
    cleanup (clearTable fun place => place.1 ∈ m.requestRows)
    cleanup fun m => { m with freeRows := m.freeRows ++ m.requestRows }
    modify fun m => { m with requestRows := [] }

def undoLocks : Rollback := do
  (← get).lockReceipts.forM fun key => do
    cleanup fun m => { m with lockRefs := Function.update m.lockRefs key (m.lockRefs key - 1) }
    modify fun m => { m with lockReceipts := m.lockReceipts.tail }

/-- The last part, which calls nothing that raises. -/
def restore (m : Attempt) : Attempt :=
  { m with
    requests := assign m.requests m.checkpoints
    waitingQueue :=
      if c.scheduled then
        reinsert m.waitingQueue (m.waitingPositions.insertionSort fun first second => first.2 ≤ second.2)
      else m.waitingQueue
    chunkedReq := if c.scheduled then m.priorChunkOwner else m.chunkedReq
    checkpoints := []
    waitingPositions := []
    rolledBack := true }

/-- `rollback` -/
def rollback : Rollback := do
  let m ← get
  if !m.active || m.committed then throw .outside
  else if m.rolledBack then pure ⟨⟩
  else do
    undoMappings
    undoTable
    undoPages
    undoRows
    undoLocks
    modify (restore c)

/-! ## Runs -/

inductive Effect
  | watch (requests : List Nat)
  /-- the complete allocation wrapper takes the attempt over for a batch -/
  | bind (requests : List Nat) (decodeRows : Option (List (Nat × Nat) × Nat))
  | unbind
  /-- a child allocator hands out the first of its free pages, sorted or merged before -/
  | alloc (allocator : Nat) (pages : List Nat) (count : Nat) (locations : List Nat)
  | writeMapping (location value : Nat)
  | writeTable (place : Nat × Nat) (location : Nat)
  | takeRows (rows : List Nat)
  | incLock (receipt : DecLockRefParams)
  | changeRequest (request : Nat) (fields : SglangRequestCheckpoint) (prefixLen : Nat)
  | dequeue (requests : List Nat)
  | changeChunkOwner (owner : Option Nat)
  | commit
  | leave
  | rollback
deriving Repr

/-- The entry is one that `rollback` clears. -/
def covered (m : Attempt) (place : Nat × Nat) : Bool :=
  place.1 ∈ m.requestRows ||
    match m.decodeRows with
    | some rows => decodePlaces rows place
    | none => m.checkpoints.any fun entry => tailPlaces m entry place

/-- The attempt is still open. -/
def effective (m : Attempt) : Bool :=
  m.active && !m.committed && !m.rolledBack && !m.unwinding

/-- The entry is not as it was, and names a page that was free at entry. -/
def strays (m : Attempt) (place : Nat × Nat) : Bool :=
  m.reqToToken place ≠ m.before.reqToToken place &&
    decide (m.reqToToken place / c.pageSize ∈ m.before.freePages c.fullAllocator)

/-- A rollback of the open attempt clears every entry that it wrote and that strays. -/
def ready (m : Attempt) : Bool :=
  !m.effective || m.written.all fun place => !m.strays c place || m.covered place

/-- One effect of the attempt; `none` where it is not one the journal is for. A child
writes the mapping only at locations that it has recorded, and a request is watched
before it is changed or taken out of the queue. -/
def next (m : Attempt) : Effect → Option Attempt
  | .watch requests => if m.effective then some (m.watch c requests) else none
  | .bind requests decodeRows =>
    if m.effective then some { m.watch c requests with bound := true, decodeRows } else none
  | .unbind => if m.effective then some { m with bound := false } else none
  | .alloc allocator pages count locations =>
    if m.effective && m.bound && pages.isPerm (m.freePages allocator) && decide (count ≤ pages.length) then
      some
        ({ m with freePages := Function.update m.freePages allocator (pages.drop count) }.recordAcquisition c allocator
          pages locations)
    else none
  | .writeMapping location value =>
    if m.effective && m.mappingSnapshots.any fun entries => decide (location ∈ entries.map Prod.fst) then
      some { m with fullToSwaMapping := Function.update m.fullToSwaMapping location value }
    else none
  | .writeTable place location =>
    if m.effective then
      some
        { m with
          reqToToken := Function.update m.reqToToken place location
          written := place :: m.written }
    else none
  | .takeRows rows =>
    if m.effective && m.bound && decide (rows.Subperm m.freeRows) then
      some ({ m with freeRows := m.freeRows.diff rows }.recordRows rows)
    else none
  | .incLock receipt =>
    if m.effective then
      match receipt.nodeId with
      | some node =>
        some
          ({ m with lockRefs := Function.update m.lockRefs (node, receipt) (m.lockRefs (node, receipt) + 1) }.recordLock
            receipt)
      | none => some (m.recordLock receipt)
    else none
  | .changeRequest request fields prefixLen =>
    if m.effective && decide (request ∈ m.watched) then
      some
        { m with
          requests := Function.update m.requests request fields
          prefixLen := Function.update m.prefixLen request prefixLen }
    else none
  | .dequeue requests =>
    if m.effective && c.scheduled && requests.all fun request => decide (request ∈ m.watched) then
      some { m with waitingQueue := m.waitingQueue.filter (· ∉ requests) }
    else none
  | .changeChunkOwner owner => if m.effective && c.scheduled then some { m with chunkedReq := owner } else none
  | .commit => if m.unwinding then none else m.commit
  | .leave => some { m with active := false }
  | .rollback =>
    match rollback c { m with unwinding := true } with
    | .ok _ t => some t
    | .error _ t => some t

/-- What an engine is like when an attempt is entered: a request waits once, and pages
are counted from one. -/
structure Entry (engine : Engine) : Prop where
  waiting : engine.waitingQueue.Nodup
  oneBased : 0 ∉ engine.freePages c.fullAllocator

/-- All runs of an attempt, with any of its cleanup steps raising. -/
def journal : System Attempt Effect where
  init m := ∃ engine fails, Entry c engine ∧ m = enter c engine fails
  step m effect t := m.next c effect = some t

/-- The requests that an effect takes out of the queue. -/
def Effect.dequeued : Effect → List Nat
  | .dequeue requests => requests
  | _ => []

def Effect.unwinds : Effect → Bool
  | .rollback => true
  | _ => false

/-- No request is taken out of the queue that was watched after one ahead of it had
been taken out, and a rollback finds the straying entries where it clears them. -/
def Orderly (m : Attempt) (effect : Effect) : Prop :=
  (∀ request ∈ effect.dequeued, request ∉ m.late) ∧ (effect.unwinds → m.ready c)

/-! ## What the receipts stand for -/

section Receipts

variable (m : Attempt)

/-- The pages of an allocator that the journal holds. -/
def journaledPages (allocator : Nat) : List Nat :=
  m.pageAllocations.flatMap fun entry => if entry.1 = allocator then entry.2 else []

/-- What was acquired is either in the journal or given back. -/
structure Accounted : Prop where
  pages : ∀ allocator, (m.freePages allocator ++ m.journaledPages allocator).Perm (m.before.freePages allocator)
  rows : (m.freeRows ++ m.requestRows).Perm m.before.freeRows
  locks : ∀ key, m.lockRefs key = m.before.lockRefs key + m.lockReceipts.count key

/-- What the journal knows of the engine at entry. -/
structure Pending : Prop extends Accounted m where
  mapping : undo m.fullToSwaMapping m.mappingSnapshots = m.before.fullToSwaMapping
  captured : ∀ entry ∈ m.checkpoints, entry.2 = m.before.requests entry.1
  unwatched : ∀ request, request ∉ m.watched → m.requests request = m.before.requests request
  queued : m.waitingQueue = m.before.waitingQueue.filter fun request => decide (request ∈ m.waitingQueue)
  known : ∀ entry ∈ m.waitingPositions, entry.1 ∈ m.watched
  placed : ∀ entry ∈ m.waitingPositions,
    entry.1 ∈ m.before.waitingQueue ∧ (entry.1 ∉ m.late → entry.2 = m.before.waitingQueue.idxOf entry.1)
  positioned : c.scheduled → ∀ request ∈ m.watched, request ∈ m.before.waitingQueue →
    ∃ position, (request, position) ∈ m.waitingPositions
  removed : ∀ request ∈ m.before.waitingQueue, request ∉ m.waitingQueue →
    c.scheduled ∧ request ∈ m.watched ∧ request ∉ m.late
  owner : c.scheduled → m.priorChunkOwner = m.before.chunkedReq
  unscheduled : c.scheduled = false → m.chunkedReq = m.before.chunkedReq
  entry : Entry c m.before

/-- An entry of the request table that strays is one that `rollback` clears. -/
def Coverable : Prop :=
  ∀ place, m.strays c place → m.covered place

/-- An entry of the request table strays in an acquired row only. -/
def Cleared : Prop :=
  ∀ place, m.strays c place → place.1 ∈ m.requestRows

/-- Within a rollback, where steps raise unless it is `quiet`. -/
structure Midway (quiet : Prop) : Prop extends Pending c m where
  coverable : m.Coverable c
  calm : quiet → ∀ call, m.calls ≤ call → m.fails call = false
  active : m.active = true
  uncommitted : m.committed = false
  unresolved : m.rolledBack = false
  unwinding : m.unwinding = true

/-- The engine owns what it owned at entry: all of the mapping, the requests, the queue
and the chunk owner are back, every page, row and lock is given back once, and an entry
of the request table is as it was or names no free page. -/
structure Restored : Prop where
  mapping : m.fullToSwaMapping = m.before.fullToSwaMapping
  requests : m.requests = m.before.requests
  queue : m.waitingQueue = m.before.waitingQueue
  owner : m.chunkedReq = m.before.chunkedReq
  pages : ∀ allocator, (m.freePages allocator).Perm (m.before.freePages allocator)
  rows : m.freeRows.Perm m.before.freeRows
  locks : m.lockRefs = m.before.lockRefs
  entries : ∀ place, m.reqToToken place = m.before.reqToToken place ∨
    m.reqToToken place / c.pageSize ∉ m.freePages c.fullAllocator

end Receipts

/-! ## The parts of a rollback -/

section Unwinding

variable {c} {quiet : Prop} {m : Attempt}

theorem Cleared.coverable (cleared : m.Cleared c) : m.Coverable c := by
  intro place strays
  simp [covered, cleared place strays]

/-- Zeros name no page. -/
theorem strays_clearTable (entry : Entry c m.before) {places : Nat × Nat → Bool} {place : Nat × Nat}
    (strays : (clearTable places m).strays c place) : places place = false ∧ m.strays c place := by
  by_cases inside : places place
  · have oneBased := entry.oneBased
    simp [Attempt.strays, clearTable, inside, oneBased] at strays
  · simp only [Attempt.strays, clearTable, inside, Bool.false_eq_true, if_false] at strays
    exact ⟨by simpa using inside, strays⟩

/-- A step that raises leaves the rollback where it was. -/
theorem wp_cleanup {effect : Attempt → Attempt} {post : PUnit → Attempt → Prop} (mid : Midway c m quiet)
    (goes : Midway c { m with calls := m.calls + 1 } quiet → post ⟨⟩ (effect { m with calls := m.calls + 1 })) :
    wp (cleanup effect) post (fun t => Midway c t quiet ∧ ¬quiet) m := by
  have called : Midway c { m with calls := m.calls + 1 } quiet :=
    { mid with
      calm := by
        intro calm call later
        apply mid.calm calm
        exact Nat.le_of_succ_le later
      coverable := mid.coverable }
  simp only [cleanup, wp_bind, wp_get, wp_modify]
  split
  · rename_i fails
    rw [wp_throw]
    refine ⟨called, ?_⟩
    intro calm
    rw [mid.calm calm m.calls (Nat.le_refl _)] at fails
    cases fails
  · rw [wp_modify]
    exact goes called

theorem wp_undoMappings (mid : Midway c m quiet) :
    wp undoMappings (fun _ t => Midway c t quiet ∧ t.mappingSnapshots = []) (fun t => Midway c t quiet ∧ ¬quiet) m := by
  simp only [undoMappings, wp_bind, wp_get]
  apply wp_forM_rest (fun rest t => Midway c t quiet ∧ t.mappingSnapshots = rest) ?_ ⟨mid, rfl⟩
  rintro entries rest t ⟨mid, left⟩
  rw [wp_bind]
  apply wp_cleanup mid
  intro called
  rw [wp_modify]
  refine ⟨{ called with mapping := ?_, coverable := called.coverable }, ?_⟩
  · have whole := mid.mapping
    rw [left, undo] at whole
    simpa [left] using whole
  · simp [left]

/-- Zeros at places that `rollback` clears lose nothing. -/
theorem Midway.clear (mid : Midway c m quiet) (places : Nat × Nat → Bool) : Midway c (clearTable places m) quiet := by
  refine { mid with coverable := ?_ }
  intro place strays
  exact mid.coverable place (strays_clearTable mid.entry strays).2

/-- What the entries of the checkpoints' tails left to clear cover. -/
def Tailed (c : AllocationScope) (m : Attempt) (rest : List (Nat × SglangRequestCheckpoint)) : Prop :=
  ∀ place, m.strays c place → place.1 ∈ m.requestRows ∨ ∃ entry ∈ rest, tailPlaces m entry place

theorem Tailed.clear {entry : Nat × SglangRequestCheckpoint} {rest : List (Nat × SglangRequestCheckpoint)}
    (tailed : Tailed c m (entry :: rest)) (counted : Entry c m.before) :
    Tailed c (clearTable (tailPlaces m entry) m) rest := by
  intro place strays
  obtain ⟨outside, strays⟩ := strays_clearTable counted strays
  rcases tailed place strays with row | ⟨other, member, inside⟩
  · exact .inl row
  · rcases List.mem_cons.mp member with rfl | later
    · rw [outside] at inside
      cases inside
    · exact .inr ⟨other, later, inside⟩

theorem wp_undoTable (mid : Midway c m quiet) (mapped : m.mappingSnapshots = []) :
    wp undoTable (fun _ t => Midway c t quiet ∧ t.mappingSnapshots = [] ∧ t.Cleared c)
      (fun t => Midway c t quiet ∧ ¬quiet) m := by
  simp only [undoTable, wp_bind, wp_get]
  split
  · rename_i rows bound
    rw [wp_bind]
    apply wp_cleanup mid
    intro called
    rw [wp_modify]
    have cleared : Cleared c { clearTable (decodePlaces rows) { m with calls := m.calls + 1 } with decodeRows := none } := by
      intro place strays
      obtain ⟨outside, strays⟩ := strays_clearTable (m := { m with calls := m.calls + 1 }) mid.entry strays
      have inside : place.1 ∈ m.requestRows := by simpa [covered, bound, outside] using mid.coverable place strays
      exact inside
    exact ⟨{ called with coverable := cleared.coverable }, mapped, cleared⟩
  · rename_i unbound
    have start : Tailed c m m.checkpoints := by
      intro place strays
      have inside := mid.coverable place strays
      simpa [covered, unbound] using inside
    refine wp_mono
      (wp_forM_rest (fun rest t => Midway c t quiet ∧ t.mappingSnapshots = [] ∧ Tailed c t rest) ?_ ⟨mid, mapped, start⟩) ?_
      fun _ raised => raised
    · rintro entry rest t ⟨mid, mapped, tailed⟩
      split
      · apply wp_cleanup mid
        intro called
        have tailed : Tailed c { t with calls := t.calls + 1 } (entry :: rest) := tailed
        exact ⟨called.clear _, mapped, tailed.clear called.entry⟩
      · rename_i rowless
        rw [wp_pure]
        refine ⟨mid, mapped, ?_⟩
        intro place strays
        rcases tailed place strays with row | ⟨other, member, inside⟩
        · exact .inl row
        · rcases List.mem_cons.mp member with rfl | later
          · rw [Option.not_isSome_iff_eq_none] at rowless
            simp [tailPlaces, rowless] at inside
          · exact .inr ⟨other, later, inside⟩
    · rintro _ t ⟨mid, mapped, tailed⟩
      refine ⟨mid, mapped, ?_⟩
      intro place strays
      rcases tailed place strays with row | ⟨_, none, -⟩
      · exact row
      · cases none

/-- What is left to do after the request table. -/
structure Tabled (c : AllocationScope) (m : Attempt) (quiet : Prop) : Prop extends Midway c m quiet where
  mapped : m.mappingSnapshots = []
  cleared : m.Cleared c

theorem wp_undoPages (done : Tabled c m quiet) :
    wp undoPages (fun _ t => Tabled c t quiet ∧ t.pageAllocations = []) (fun t => Midway c t quiet ∧ ¬quiet) m := by
  simp only [undoPages, wp_bind, wp_get]
  apply wp_forM_rest (fun rest t => Tabled c t quiet ∧ t.pageAllocations = rest) ?_ ⟨done, rfl⟩
  rintro ⟨allocator, pages⟩ rest t ⟨done, left⟩
  rw [wp_bind]
  apply wp_cleanup done.toMidway
  intro called
  rw [wp_modify]
  refine ⟨{ called with
    mapped := done.mapped
    cleared := done.cleared
    pages := ?_
    coverable := called.coverable }, ?_⟩
  · intro other
    have whole := done.pages other
    simp only [journaledPages, left, List.flatMap_cons] at whole
    simp only [journaledPages, left, List.tail_cons]
    by_cases same : allocator = other
    · subst same
      simpa using whole
    · rw [Function.update_of_ne (Ne.symm same)]
      simpa [same] using whole
  · simp [left]

theorem wp_undoRows (done : Tabled c m quiet) (paged : m.pageAllocations = []) :
    wp undoRows (fun _ t => Tabled c t quiet ∧ t.pageAllocations = [] ∧ t.requestRows = [])
      (fun t => Midway c t quiet ∧ ¬quiet) m := by
  simp only [undoRows, wp_bind, wp_get]
  split
  · rename_i empty
    rw [wp_pure]
    exact ⟨done, paged, List.isEmpty_iff.mp empty⟩
  · rw [wp_bind]
    apply wp_cleanup done.toMidway
    intro called
    have mid := called.clear fun place => decide (place.1 ∈ m.requestRows)
    rw [wp_bind]
    apply wp_cleanup mid
    intro called
    rw [wp_modify]
    -- the rows are all zeros by now
    have cleared (place : Nat × Nat) :
        ¬(clearTable (fun place => decide (place.1 ∈ m.requestRows)) { m with calls := m.calls + 1 }).strays c place := by
      intro strays
      obtain ⟨outside, strays⟩ := strays_clearTable (m := { m with calls := m.calls + 1 }) done.entry strays
      rw [decide_eq_false_iff_not] at outside
      exact outside (done.cleared place strays)
    refine ⟨{ called with
      mapped := done.mapped
      cleared := ?_
      rows := ?_
      coverable := ?_ }, paged, rfl⟩
    · have whole := done.rows
      simpa [clearTable] using whole
    · intro place strays
      exact absurd strays (cleared place)
    · intro place strays
      exact absurd strays (cleared place)

theorem wp_undoLocks (done : Tabled c m quiet) (paged : m.pageAllocations = []) (rowless : m.requestRows = []) :
    wp undoLocks
      (fun _ t => Tabled c t quiet ∧ t.pageAllocations = [] ∧ t.requestRows = [] ∧ t.lockReceipts = [])
      (fun t => Midway c t quiet ∧ ¬quiet) m := by
  simp only [undoLocks, wp_bind, wp_get]
  refine wp_mono
    (wp_forM_rest
      (fun rest t => (Tabled c t quiet ∧ t.pageAllocations = [] ∧ t.requestRows = []) ∧ t.lockReceipts = rest) ?_
      ⟨⟨done, paged, rowless⟩, rfl⟩)
    (fun _ t after => ⟨after.1.1, after.1.2.1, after.1.2.2, after.2⟩) fun _ raised => raised
  rintro key rest t ⟨⟨done, paged, rowless⟩, left⟩
  rw [wp_bind]
  apply wp_cleanup done.toMidway
  intro called
  rw [wp_modify]
  refine ⟨⟨{ called with
    mapped := done.mapped
    cleared := done.cleared
    locks := ?_
    coverable := called.coverable }, paged, rowless⟩, ?_⟩
  · intro other
    have whole := done.locks other
    rw [left, List.count_cons] at whole
    simp only [left, List.tail_cons]
    by_cases same : key = other
    · subst same
      rw [Function.update_self]
      simp only [beq_self_eq_true, if_true] at whole
      push_cast at whole
      omega
    · rw [Function.update_of_ne (Ne.symm same)]
      simpa [same] using whole
  · simp [left]

/-- The queue comes back in its order. -/
theorem Pending.reinsert (pending : Pending c m) :
    reinsert m.waitingQueue (m.waitingPositions.insertionSort fun first second => first.2 ≤ second.2) =
      m.before.waitingQueue := by
  have sorted := (List.perm_insertionSort (fun first second : Nat × Nat => first.2 ≤ second.2) m.waitingPositions)
  rw [pending.queued]
  apply reinsert_eq pending.entry.waiting
  · have total : Std.Total fun first second : Nat × Nat => first.2 ≤ second.2 := ⟨fun _ _ => Nat.le_total _ _⟩
    have transitive : IsTrans (Nat × Nat) fun first second => first.2 ≤ second.2 := ⟨fun _ _ _ => Nat.le_trans⟩
    exact List.pairwise_insertionSort _ _
  · intro entry member gone
    rw [← pending.queued] at gone
    have member := sorted.mem_iff.mp member
    obtain ⟨waited, position⟩ := pending.placed entry member
    have timely := (pending.removed entry.1 waited gone).2.2
    exact ⟨waited, position timely⟩
  · intro request member gone
    rw [decide_eq_false_iff_not] at gone
    obtain ⟨scheduled, watched, -⟩ := pending.removed request member gone
    obtain ⟨position, listed⟩ := pending.positioned scheduled request watched member
    exact ⟨position, sorted.mem_iff.mpr listed⟩

/-- A rollback with all receipts used up ends in the engine at entry. -/
theorem Tabled.restored (done : Tabled c m quiet) (paged : m.pageAllocations = []) (rowless : m.requestRows = [])
    (unlocked : m.lockReceipts = []) : Restored c (restore c m) ∧ Pending c (restore c m) := by
  have mapping : m.fullToSwaMapping = m.before.fullToSwaMapping := by
    have whole := done.mapping
    rwa [done.mapped, undo] at whole
  have requests : assign m.requests m.checkpoints = m.before.requests :=
    assign_eq done.captured done.unwatched
  have queue : (restore c m).waitingQueue = m.before.waitingQueue := by
    simp only [restore]
    split
    · exact done.reinsert
    · rename_i unscheduled
      rw [done.queued]
      apply List.filter_eq_self.mpr
      intro request member
      by_contra gone
      rw [decide_eq_true_eq] at gone
      exact unscheduled (done.removed request member gone).1
  have owner : (restore c m).chunkedReq = m.before.chunkedReq := by
    simp only [restore]
    split
    · rename_i scheduled
      exact done.owner scheduled
    · rename_i unscheduled
      exact done.unscheduled (Bool.not_eq_true _ ▸ unscheduled)
  have pages (allocator : Nat) : (m.freePages allocator).Perm (m.before.freePages allocator) := by
    simpa [journaledPages, paged] using done.pages allocator
  have rows : m.freeRows.Perm m.before.freeRows := by
    simpa [rowless] using done.rows
  have locks : m.lockRefs = m.before.lockRefs := by
    funext key
    simpa [unlocked] using done.locks key
  have entries (place : Nat × Nat) : m.reqToToken place = m.before.reqToToken place ∨
      m.reqToToken place / c.pageSize ∉ m.freePages c.fullAllocator := by
    rw [(pages c.fullAllocator).mem_iff, or_iff_not_imp_left]
    intro changed named
    have row := done.cleared place (by simp [strays, changed, named])
    rw [rowless] at row
    cases row
  constructor
  · exact ⟨mapping, requests, queue, owner, pages, rows, locks, entries⟩
  · refine
      { done with
        captured := by intro _ none; cases none
        unwatched := fun request _ => congrFun requests request
        queued := ?_
        known := by intro _ none; cases none
        placed := by intro _ none; cases none
        positioned := by intro _ _ none; cases none
        removed := ?_
        unscheduled := fun _ => owner }
    · rw [queue]
      exact (List.filter_eq_self.mpr fun request member => decide_eq_true member).symm
    · intro request member gone
      rw [queue] at gone
      exact absurd member gone

/-- A rollback in the attempt's scope either ends in the engine at entry or stays
within. -/
theorem wp_rollback (mid : Midway c m quiet) :
    wp (rollback c) (fun _ t => Restored c t ∧ Pending c t ∧ t.rolledBack ∧ t.committed = false ∧ t.unwinding)
      (fun t => Midway c t quiet ∧ ¬quiet) m := by
  simp only [rollback, wp_bind, wp_get, mid.active, mid.uncommitted, mid.unresolved, Bool.not_true, Bool.or_self,
    Bool.false_eq_true, if_false]
  apply wp_mono (wp_undoMappings mid) ?_ fun _ raised => raised
  rintro _ t ⟨mid, mapped⟩
  apply wp_mono (wp_undoTable mid mapped) ?_ fun _ raised => raised
  rintro _ t ⟨mid, mapped, cleared⟩
  have done : Tabled c t quiet := { mid with mapped, cleared, coverable := mid.coverable }
  apply wp_mono (wp_undoPages done) ?_ fun _ raised => raised
  rintro _ t ⟨done, paged⟩
  apply wp_mono (wp_undoRows done paged) ?_ fun _ raised => raised
  rintro _ t ⟨done, paged, rowless⟩
  apply wp_mono (wp_undoLocks done paged rowless) ?_ fun _ raised => raised
  rintro _ t ⟨done, paged, rowless, unlocked⟩
  rw [wp_modify]
  obtain ⟨restored, pending⟩ := done.restored paged rowless unlocked
  exact ⟨restored, pending, rfl, done.uncommitted, done.unwinding⟩

end Unwinding

/-! ## Effects -/

section Effects

variable {c} {m : Attempt}

/-- While the attempt is open, no entry of the request table has changed but those
written. -/
structure Open (c : AllocationScope) (m : Attempt) : Prop extends Pending c m where
  clean : ∀ place, place ∉ m.written → m.reqToToken place = m.before.reqToToken place
  active : m.active = true
  uncommitted : m.committed = false
  unresolved : m.rolledBack = false
  unbegun : m.unwinding = false

/-- The positions after one more request is watched. -/
theorem mem_watchOne_positions {request : Nat} (fresh : request ∉ m.watched) {entry : Nat × Nat} :
    entry ∈ (m.watchOne c request).waitingPositions ↔
      entry ∈ m.waitingPositions ∨
        c.scheduled ∧ request ∈ m.waitingQueue ∧ entry = (request, m.waitingQueue.idxOf request) := by
  rw [watchOne, if_neg fresh]
  dsimp only
  split
  · rename_i scheduled
    rw [List.mem_append, position]
    split
    · rename_i waits
      simp [scheduled, waits]
    · rename_i waits
      simp [waits]
  · rename_i unscheduled
    simp [unscheduled]

theorem watchOne_watched {request : Nat} (fresh : request ∉ m.watched) :
    (m.watchOne c request).watched = m.watched ++ [request] := by
  rw [watchOne, if_neg fresh]
  simp [watched]

theorem mem_watchOne_late {request other : Nat} (fresh : request ∉ m.watched) :
    other ∈ (m.watchOne c request).late ↔ other ∈ m.late ∨ other = request ∧ m.overtakes request := by
  rw [watchOne, if_neg fresh]
  dsimp only
  split
  · rename_i overtakes
    simp [overtakes, or_comm]
  · rename_i orderly
    simp [orderly]

/-- A request that overtakes none has its position at entry. -/
theorem Open.idxOf_eq (opened : Open c m) {request : Nat} (waits : request ∈ m.waitingQueue)
    (orderly : ¬m.overtakes request) : m.waitingQueue.idxOf request = m.before.waitingQueue.idxOf request := by
  rw [opened.queued]
  apply idxOf_filter
  · exact decide_eq_true waits
  · intro other member ahead
    by_contra gone
    apply orderly
    rw [decide_eq_true_eq] at gone
    apply List.any_eq_true.mpr
    exact ⟨other, member, by simp [ahead, gone]⟩

theorem Open.watchOne (opened : Open c m) (request : Nat) : Open c (m.watchOne c request) := by
  by_cases fresh : request ∈ m.watched
  · rw [Attempt.watchOne, if_pos fresh]
    exact opened
  · have waits (member : request ∈ m.before.waitingQueue) : request ∈ m.waitingQueue := by
      by_contra gone
      exact fresh (opened.removed request member gone).2.1
    have waited (member : request ∈ m.waitingQueue) : request ∈ m.before.waitingQueue := by
      rw [opened.queued] at member
      exact (List.mem_filter.mp member).1
    have same : (m.watchOne c request).toEngine = m.toEngine ∧ (m.watchOne c request).before = m.before := by
      rw [Attempt.watchOne, if_neg fresh]
      exact ⟨rfl, rfl⟩
    have unwatched : ∀ other, other ∉ (m.watchOne c request).watched → m.requests other = m.before.requests other := by
      intro other absent
      rw [watchOne_watched fresh, List.mem_append, not_or] at absent
      exact opened.unwatched other absent.1
    have known : ∀ entry ∈ (m.watchOne c request).waitingPositions, entry.1 ∈ (m.watchOne c request).watched := by
      intro entry member
      rw [watchOne_watched fresh, List.mem_append]
      rcases (mem_watchOne_positions fresh).mp member with earlier | ⟨-, -, rfl⟩
      · exact .inl (opened.known entry earlier)
      · exact .inr List.mem_cons_self
    have placed : ∀ entry ∈ (m.watchOne c request).waitingPositions, entry.1 ∈ m.before.waitingQueue ∧
        (entry.1 ∉ (m.watchOne c request).late → entry.2 = m.before.waitingQueue.idxOf entry.1) := by
      intro entry member
      rw [mem_watchOne_late fresh, not_or, not_and]
      rcases (mem_watchOne_positions fresh).mp member with earlier | ⟨-, queued, rfl⟩
      · obtain ⟨waited, position⟩ := opened.placed entry earlier
        exact ⟨waited, fun timely => position timely.1⟩
      · exact ⟨waited queued, fun timely => opened.idxOf_eq queued (timely.2 rfl)⟩
    have positioned : c.scheduled → ∀ other ∈ (m.watchOne c request).watched, other ∈ m.before.waitingQueue →
        ∃ position, (other, position) ∈ (m.watchOne c request).waitingPositions := by
      intro scheduled other member entered
      rw [watchOne_watched fresh, List.mem_append, List.mem_singleton] at member
      rcases member with earlier | rfl
      · obtain ⟨position, listed⟩ := opened.positioned scheduled other earlier entered
        exact ⟨position, (mem_watchOne_positions fresh).mpr (.inl listed)⟩
      · exact ⟨_, (mem_watchOne_positions fresh).mpr (.inr ⟨scheduled, waits entered, rfl⟩)⟩
    have removed : ∀ other ∈ m.before.waitingQueue, other ∉ m.waitingQueue →
        c.scheduled ∧ other ∈ (m.watchOne c request).watched ∧ other ∉ (m.watchOne c request).late := by
      intro other member gone
      obtain ⟨scheduled, earlier, timely⟩ := opened.removed other member gone
      rw [watchOne_watched fresh, mem_watchOne_late fresh, List.mem_append, not_or, not_and]
      refine ⟨scheduled, .inl earlier, timely, ?_⟩
      rintro rfl
      exact absurd earlier fresh
    have captured : ∀ entry ∈ (m.watchOne c request).checkpoints, entry.2 = m.before.requests entry.1 := by
      rw [Attempt.watchOne, if_neg fresh]
      intro entry member
      rcases List.mem_append.mp member with earlier | new
      · exact opened.captured entry earlier
      · rw [List.mem_singleton.mp new]
        exact opened.unwatched request fresh
    rw [Attempt.watchOne, if_neg fresh] at *
    exact { opened with captured, unwatched, known, placed, positioned, removed }

theorem Open.watch (opened : Open c m) (requests : List Nat) : Open c (m.watch c requests) := by
  rw [Attempt.watch]
  induction requests generalizing m with
  | nil => exact opened
  | cons request rest ih => exact ih (opened.watchOne request)

theorem Open.recordAllocation (opened : Open c m) {allocator : Nat} {pages : List Nat} {count : Nat}
    (locations : List Nat) (same : pages.Perm (m.freePages allocator)) :
    Open c
      ({ m with freePages := Function.update m.freePages allocator (pages.drop count) }.recordAllocation c allocator
        (pages.take count) locations) := by
  refine { opened with pages := ?_, mapping := ?_ }
  · intro other
    refine List.Perm.trans ?_ (opened.pages other)
    by_cases here : allocator = other
    · subst here
      have split : (pages.drop count ++ (pages.take count ++ m.journaledPages allocator)).Perm
          (m.freePages allocator ++ m.journaledPages allocator) := by
        rw [← List.append_assoc]
        apply List.Perm.append_right
        refine List.perm_append_comm.trans ?_
        rwa [List.take_append_drop]
      refine List.Perm.trans (List.Perm.of_eq ?_) split
      simp only [Attempt.recordAllocation, Function.update_self, journaledPages]
      split
      · simp
      · rename_i none
        rw [not_not, List.length_eq_zero_iff] at none
        simp [none]
    · apply List.Perm.of_eq
      simp only [Attempt.recordAllocation, Function.update_of_ne (Ne.symm here), journaledPages]
      split
      · simp [here]
      · rfl
  · simp only [Attempt.recordAllocation]
    split
    · rw [undo_snapshot]
      exact opened.mapping
    · exact opened.mapping

theorem Open.recordAcquisition (opened : Open c m) (bound : m.bound) {allocator : Nat} {pages : List Nat} {count : Nat}
    (locations : List Nat) (same : pages.Perm (m.freePages allocator)) (enough : count ≤ pages.length) :
    Open c
      ({ m with freePages := Function.update m.freePages allocator (pages.drop count) }.recordAcquisition c allocator
        pages locations) := by
  have taken : pages.length - (pages.drop count).length = count := by
    rw [List.length_drop]
    omega
  simp only [Attempt.recordAcquisition, bound, if_true, Function.update_self, taken]
  exact opened.recordAllocation locations same

theorem Open.takeRows (opened : Open c m) {rows : List Nat} (free : rows.Subperm m.freeRows) :
    Open c ({ m with freeRows := m.freeRows.diff rows }.recordRows rows) := by
  refine { opened with rows := ?_ }
  have back : (rows ++ m.freeRows.diff rows).Perm m.freeRows := by
    apply List.subperm_append_diff_self_of_count_le
    intro row _
    exact free.count_le row
  calc
    (m.freeRows.diff rows ++ (m.requestRows ++ rows)).Perm (m.freeRows.diff rows ++ (rows ++ m.requestRows)) :=
      List.Perm.append_left _ List.perm_append_comm
    List.Perm _ (m.freeRows ++ m.requestRows) := by
      rw [← List.append_assoc]
      exact (List.perm_append_comm.trans back).append_right _
    List.Perm _ m.before.freeRows := opened.rows

theorem Open.incLock (opened : Open c m) (node : Nat) (receipt : DecLockRefParams) (named : receipt.nodeId = some node) :
    Open c
      ({ m with lockRefs := Function.update m.lockRefs (node, receipt) (m.lockRefs (node, receipt) + 1) }.recordLock
        receipt) := by
  rw [recordLock, named]
  refine { opened with locks := ?_ }
  intro key
  have whole := opened.locks key
  rw [List.count_cons]
  by_cases same : (node, receipt) = key
  · subst same
    simp only [Function.update_self, beq_self_eq_true, if_true]
    push_cast
    omega
  · simp only [Function.update_of_ne (Ne.symm same), beq_eq_false_iff_ne.mpr same, Bool.false_eq_true, if_false]
    exact whole

theorem Open.dequeue (opened : Open c m) {requests : List Nat} (scheduled : c.scheduled)
    (watched : ∀ request ∈ requests, request ∈ m.watched) (orderly : ∀ request ∈ requests, request ∉ m.late) :
    Open c { m with waitingQueue := m.waitingQueue.filter (· ∉ requests) } := by
  refine { opened with queued := ?_, removed := ?_, unscheduled := ?_ }
  · conv_lhs => rw [opened.queued]
    rw [List.filter_filter]
    apply List.filter_congr
    intro request _
    simp [and_comm]
  · intro request member gone
    by_cases waits : request ∈ m.waitingQueue
    · have taken : request ∈ requests := by
        by_contra kept
        exact gone (List.mem_filter.mpr ⟨waits, decide_eq_true kept⟩)
      exact ⟨scheduled, watched request taken, orderly request taken⟩
    · exact opened.removed request member waits
  · intro unscheduled
    rw [scheduled] at unscheduled
    cases unscheduled

/-- An open attempt stays open with each of its effects. -/
theorem Open.next (opened : Open c m) {effect : Effect} {t : Attempt}
    (orderly : ∀ request ∈ effect.dequeued, request ∉ m.late)
    (ongoing : effect ≠ .commit ∧ effect ≠ .leave ∧ effect ≠ .rollback) (taken : m.next c effect = some t) : Open c t := by
  cases effect with
  | watch requests =>
    simp only [Attempt.next, Option.ite_none_right_eq_some, Option.some.injEq] at taken
    obtain ⟨-, rfl⟩ := taken
    exact opened.watch requests
  | bind requests decodeRows =>
    simp only [Attempt.next, Option.ite_none_right_eq_some, Option.some.injEq] at taken
    obtain ⟨-, rfl⟩ := taken
    exact { opened.watch requests with }
  | unbind =>
    simp only [Attempt.next, Option.ite_none_right_eq_some, Option.some.injEq] at taken
    obtain ⟨-, rfl⟩ := taken
    exact { opened with }
  | alloc allocator pages count locations =>
    simp only [Attempt.next, Option.ite_none_right_eq_some, Option.some.injEq, Bool.and_eq_true, decide_eq_true_eq,
      List.isPerm_iff] at taken
    obtain ⟨⟨⟨⟨-, bound⟩, same⟩, enough⟩, rfl⟩ := taken
    exact opened.recordAcquisition bound locations same enough
  | writeMapping location value =>
    simp only [Attempt.next, Option.ite_none_right_eq_some, Option.some.injEq, Bool.and_eq_true, List.any_eq_true,
      decide_eq_true_eq] at taken
    obtain ⟨⟨-, named⟩, rfl⟩ := taken
    refine { opened with mapping := ?_ }
    rw [← opened.mapping]
    exact undo_update value named
  | writeTable place location =>
    simp only [Attempt.next, Option.ite_none_right_eq_some, Option.some.injEq] at taken
    obtain ⟨-, rfl⟩ := taken
    refine { opened with clean := ?_ }
    intro other unwritten
    rw [List.mem_cons, not_or] at unwritten
    simp only [Function.update_of_ne unwritten.1]
    exact opened.clean other unwritten.2
  | takeRows rows =>
    simp only [Attempt.next, Option.ite_none_right_eq_some, Option.some.injEq, Bool.and_eq_true, decide_eq_true_eq]
      at taken
    obtain ⟨⟨-, free⟩, rfl⟩ := taken
    exact opened.takeRows free
  | incLock receipt =>
    simp only [Attempt.next, Option.ite_none_right_eq_some] at taken
    obtain ⟨-, taken⟩ := taken
    split at taken
    · rename_i node named
      cases taken
      exact opened.incLock node receipt named
    · rename_i unnamed
      cases taken
      rw [recordLock, unnamed]
      exact opened
  | changeRequest request fields prefixLen =>
    simp only [Attempt.next, Option.ite_none_right_eq_some, Option.some.injEq, Bool.and_eq_true, decide_eq_true_eq]
      at taken
    obtain ⟨⟨-, known⟩, rfl⟩ := taken
    refine { opened with unwatched := ?_ }
    intro other absent
    have differs : other ≠ request := fun same => absent (same ▸ known)
    simp only [Function.update_of_ne differs]
    exact opened.unwatched other absent
  | dequeue requests =>
    simp only [Attempt.next, Option.ite_none_right_eq_some, Option.some.injEq, Bool.and_eq_true, List.all_eq_true,
      decide_eq_true_eq] at taken
    obtain ⟨⟨⟨-, scheduled⟩, watched⟩, rfl⟩ := taken
    exact opened.dequeue scheduled watched orderly
  | changeChunkOwner owner =>
    simp only [Attempt.next, Option.ite_none_right_eq_some, Option.some.injEq, Bool.and_eq_true] at taken
    obtain ⟨⟨-, scheduled⟩, rfl⟩ := taken
    refine { opened with unscheduled := ?_ }
    intro unscheduled
    rw [scheduled] at unscheduled
    cases unscheduled
  | commit => exact absurd rfl ongoing.1
  | leave => exact absurd rfl ongoing.2.1
  | rollback => exact absurd rfl ongoing.2.2

theorem effective_of_next {effect : Effect} {t : Attempt}
    (ongoing : effect ≠ .commit ∧ effect ≠ .leave ∧ effect ≠ .rollback) (taken : m.next c effect = some t) :
    m.effective := by
  by_contra closed
  rw [Bool.not_eq_true] at closed
  cases effect <;> simp_all [Attempt.next]

end Effects

/-! ## Every run -/

section Run

variable {c} {m : Attempt}

/-- What holds in every state of a run. -/
structure Sound (c : AllocationScope) (m : Attempt) : Prop where
  pending : m.committed = false → Pending c m
  clean : m.committed = false → m.unwinding = false →
    ∀ place, place ∉ m.written → m.reqToToken place = m.before.reqToToken place
  coverable : m.active → m.committed = false → m.unwinding → m.rolledBack = false → m.Coverable c
  restored : m.rolledBack → Restored c m ∧ m.committed = false

theorem Sound.opened (sound : Sound c m) (effective : m.effective) : Open c m := by
  simp only [Attempt.effective, Bool.and_eq_true, Bool.not_eq_true'] at effective
  obtain ⟨⟨⟨active, uncommitted⟩, unresolved⟩, unbegun⟩ := effective
  exact
    { sound.pending uncommitted with
      clean := sound.clean uncommitted unbegun
      active, uncommitted, unresolved, unbegun }

theorem Open.sound (opened : Open c m) : Sound c m where
  pending _ := opened.toPending
  clean _ _ := opened.clean
  coverable _ _ begun _ := by
    rw [opened.unbegun] at begun
    cases begun
  restored resolved := by
    rw [opened.unresolved] at resolved
    cases resolved

/-- When a rollback is called, it clears every entry that strays. -/
theorem Sound.ready (sound : Sound c m) (active : m.active) (uncommitted : m.committed = false)
    (unresolved : m.rolledBack = false) (ready : m.ready c) : m.Coverable c := by
  by_cases begun : m.unwinding
  · exact sound.coverable active uncommitted begun unresolved
  · rw [Bool.not_eq_true] at begun
    have effective : m.effective := by simp [Attempt.effective, active, uncommitted, unresolved, begun]
    rw [Attempt.ready, effective, Bool.not_true, Bool.false_or, List.all_eq_true] at ready
    intro place strays
    by_cases written : place ∈ m.written
    · have covered := ready place written
      rwa [strays, Bool.not_true, Bool.false_or] at covered
    · simp [Attempt.strays, sound.clean uncommitted begun place written] at strays

theorem Sound.midway (sound : Sound c m) {quiet : Prop} (active : m.active) (uncommitted : m.committed = false)
    (unresolved : m.rolledBack = false) (ready : m.ready c)
    (calm : quiet → ∀ call, m.calls ≤ call → m.fails call = false) : Midway c { m with unwinding := true } quiet :=
  { sound.pending uncommitted with
    coverable := sound.ready active uncommitted unresolved ready
    unwinding := rfl
    active, uncommitted, unresolved, calm }

theorem Midway.sound (mid : Midway c m quiet) : Sound c m where
  pending _ := mid.toPending
  clean _ unbegun := by
    rw [mid.unwinding] at unbegun
    cases unbegun
  coverable _ _ _ _ := mid.coverable
  restored resolved := by
    rw [mid.unresolved] at resolved
    cases resolved

theorem sound_of_commit {t : Attempt} (taken : m.commit = some t) : Sound c t := by
  simp only [Attempt.commit, Option.ite_none_left_eq_some, Option.some.injEq, Bool.or_eq_true, not_or,
    Bool.not_eq_true] at taken
  obtain ⟨⟨-, unresolved⟩, rfl⟩ := taken
  constructor
  · intro uncommitted
    cases uncommitted
  · intro uncommitted
    cases uncommitted
  · intro _ uncommitted
    cases uncommitted
  · intro resolved
    rw [unresolved] at resolved
    cases resolved

theorem Sound.begin (sound : Sound c m) (ready : m.ready c) :
    Sound c { m with unwinding := true } where
  pending uncommitted := { sound.pending uncommitted with }
  clean _ unbegun := by cases unbegun
  coverable active uncommitted _ unresolved := sound.ready active uncommitted unresolved ready
  restored resolved := ⟨{ (sound.restored resolved).1 with }, (sound.restored resolved).2⟩

/-- A rollback, however it ends, leaves a state of a run. -/
theorem Sound.rollback (sound : Sound c m) (ready : m.ready c) :
    wp (rollback c) (fun _ t => Sound c t) (fun t => Sound c t) { m with unwinding := true } := by
  by_cases outside : !m.active || m.committed
  · simp only [Attempt.rollback, wp_bind, wp_get, outside, if_true, wp_throw]
    exact sound.begin ready
  · by_cases resolved : m.rolledBack
    · simp only [Attempt.rollback, wp_bind, wp_get, outside, Bool.false_eq_true, if_false, resolved, if_true, wp_pure]
      exact sound.begin ready
    · rw [Bool.or_eq_true, not_or, Bool.not_eq_true, Bool.not_eq_true] at outside
      obtain ⟨active, uncommitted⟩ := outside
      have mid := sound.midway (by simpa using active) uncommitted (by simpa using resolved) ready (False.elim)
      refine wp_mono (wp_rollback mid) ?_ fun _ raised => raised.1.sound
      rintro _ t ⟨restored, pending, resolved, uncommitted, unwinding⟩
      constructor
      · exact fun _ => pending
      · intro _ unbegun
        rw [unwinding] at unbegun
        cases unbegun
      · intro _ _ _ unresolved
        rw [resolved] at unresolved
        cases unresolved
      · exact fun _ => ⟨restored, uncommitted⟩

theorem Sound.next (sound : Sound c m) {effect : Effect} {t : Attempt} (orderly : Orderly c m effect)
    (taken : m.next c effect = some t) : Sound c t := by
  by_cases ongoing : effect ≠ .commit ∧ effect ≠ .leave ∧ effect ≠ .rollback
  · exact ((sound.opened (effective_of_next ongoing taken)).next orderly.1 ongoing taken).sound
  · cases effect with
    | commit =>
      simp only [Attempt.next, Option.ite_none_left_eq_some] at taken
      exact sound_of_commit taken.2
    | leave =>
      simp only [Attempt.next, Option.some.injEq] at taken
      subst taken
      exact
        { pending := fun uncommitted => { sound.pending uncommitted with }
          clean := sound.clean
          coverable := fun active => absurd active Bool.false_ne_true
          restored := fun resolved => ⟨{ (sound.restored resolved).1 with }, (sound.restored resolved).2⟩ }
    | rollback =>
      simp only [Attempt.next] at taken
      have ends := sound.rollback (orderly.2 rfl)
      unfold wp at ends
      split at taken <;> rename_i ran <;> rw [ran] at ends <;> cases taken <;> exact ends
    | _ => exact absurd ⟨nofun, nofun, nofun⟩ ongoing

theorem enter_sound {engine : Engine} (entry : Entry c engine) (fails : Nat → Bool) :
    Sound c (enter c engine fails) := by
  have pending : Pending c (enter c engine fails) := by
    refine
      { pages := fun _ => by simp [enter, journaledPages]
        rows := by simp [enter]
        locks := by simp [enter]
        mapping := rfl
        captured := by intro _ none; cases none
        unwatched := fun _ _ => rfl
        queued := ?_
        known := by intro _ none; cases none
        placed := by intro _ none; cases none
        positioned := by intro _ _ none; cases none
        removed := fun _ member gone => absurd member gone
        owner := fun scheduled => if_pos scheduled
        unscheduled := fun _ => rfl
        entry }
    exact (List.filter_eq_self.mpr fun request member => decide_eq_true member).symm
  have opened : Open c (enter c engine fails) :=
    { pending with
      clean := fun _ _ => rfl
      active := rfl
      uncommitted := rfl
      unresolved := rfl
      unbegun := rfl }
  exact opened.sound

theorem reachable_sound (reached : (journal c).ReachableUnder (Orderly c) m) : Sound c m := by
  apply System.ReachableUnder.invariant ?_ ?_ reached
  · rintro _ ⟨engine, fails, entry, rfl⟩
    exact enter_sound entry fails
  · intro s effect t _ sound orderly taken
    exact sound.next orderly taken

theorem rollback_resolved (active : m.active) (uncommitted : m.committed = false) (resolved : m.rolledBack) :
    rollback c m = .ok ⟨⟩ m := by
  have returns : wp (rollback c) (fun _ t => t = m) (fun _ => False) m := by
    simp only [rollback, wp_bind, wp_get, active, uncommitted, resolved, Bool.not_true, Bool.or_self, Bool.false_eq_true,
      if_false, if_true, wp_pure]
  obtain ⟨_, t, ran, rfl⟩ := ok_of_wp returns
  exact ran

/-- A call of `rollback` in the attempt's scope. -/
theorem Sound.called (sound : Sound c m) {quiet : Prop} (active : m.active) (uncommitted : m.committed = false)
    (ready : m.ready c) (calm : quiet → ∀ call, m.calls ≤ call → m.fails call = false) :
    wp (Attempt.rollback c) (fun _ t => t.rolledBack ∧ Restored c t)
      (fun t => (t.active ∧ t.committed = false ∧ t.ready c) ∧ ¬quiet) { m with unwinding := true } := by
  by_cases resolved : m.rolledBack
  · have restored : Restored c { m with unwinding := true } := { (sound.restored resolved).1 with }
    simp only [Attempt.rollback, wp_bind, wp_get, active, uncommitted, resolved, Bool.not_true, Bool.or_self,
      Bool.false_eq_true, if_false, if_true, wp_pure]
    exact ⟨trivial, restored⟩
  · have mid := sound.midway active uncommitted (by simpa using resolved) ready calm
    apply wp_mono (wp_rollback mid)
    · rintro _ t ⟨restored, -, resolved, -⟩
      exact ⟨resolved, restored⟩
    · rintro t ⟨mid, loud⟩
      refine ⟨⟨mid.active, mid.uncommitted, ?_⟩, loud⟩
      simp [Attempt.ready, Attempt.effective, mid.unwinding]

/-- A rollback that returns has restored the engine, whatever steps raised before, and
another one changes nothing. At no time is anything given back twice; a rollback that
raises may be called again, and returns once no step raises. -/
theorem rollback_exact (reached : (journal c).ReachableUnder (Orderly c) m) :
    (m.rolledBack → Restored c m ∧ (m.active → rollback c m = .ok ⟨⟩ m)) ∧
      (m.committed = false → Accounted m) ∧
        (m.active → m.committed = false → m.ready c →
          (∀ t, rollback c { m with unwinding := true } = .ok ⟨⟩ t → t.rolledBack ∧ Restored c t) ∧
            (∀ error t, rollback c { m with unwinding := true } = .error error t →
              t.active ∧ t.committed = false ∧ t.ready c) ∧
              ((∀ call, m.calls ≤ call → m.fails call = false) →
                ∃ t, rollback c { m with unwinding := true } = .ok ⟨⟩ t)) := by
  have sound := reachable_sound reached
  refine ⟨?_, ?_, ?_⟩
  · intro resolved
    obtain ⟨restored, uncommitted⟩ := sound.restored resolved
    exact ⟨restored, fun active => rollback_resolved active uncommitted resolved⟩
  · intro uncommitted
    exact (sound.pending uncommitted).toAccounted
  · intro active uncommitted ready
    have ends := sound.called active uncommitted ready False.elim
    refine ⟨?_, ?_, ?_⟩
    · intro t returned
      rw [wp, returned] at ends
      exact ends
    · intro error t raised
      rw [wp, raised] at ends
      exact ends.1
    · intro calm
      have quiet := sound.called active uncommitted ready fun _ : True => calm
      obtain ⟨_, t, returned, -⟩ := ok_of_wp (wp_mono quiet (fun _ _ after => after) fun _ raised => raised.2 trivial)
      exact ⟨t, returned⟩

end Run

/-! ## Two requests -/

section TwoRequests

/-- An attempt of the scheduler over a paired mapping. -/
def scheduledScope : AllocationScope where
  fullAllocator := 0
  pageSize := 4
  paired := true
  scheduled := true

/-- Requests 1 and 2 wait, in this order. -/
def twoWaiting : Engine where
  fullToSwaMapping _ := 0
  reqToToken _ := 0
  requests _ := ⟨none, none, ⟨0, none⟩, 0, 0, 0⟩
  prefixLen _ := 0
  freePages allocator := if allocator ≤ 1 then [3, 1, 2] else []
  freeRows := [5, 6]
  lockRefs _ := 0
  waitingQueue := [1, 2]
  chunkedReq := none

theorem twoWaiting_entry : Entry scheduledScope twoWaiting where
  waiting := by decide
  oneBased := by decide

/-- The second is watched when the first has been taken out already. -/
def lateWatch : List Effect :=
  [.watch [1], .dequeue [1], .watch [2], .dequeue [2], .rollback]

/-- A location of an acquired page is written past the length of the request's row. -/
def strayWrite : List Effect :=
  [.watch [1], .bind [1] none, .alloc 0 [1, 2, 3] 1 [4], .writeTable (3, 0) 4, .rollback]

/-- Both requests come back, in the other order; the entry goes on naming a page that is
free again. -/
theorem rollback_misses :
    (∃ m, (journal scheduledScope).Reachable m ∧ m.rolledBack ∧ m.before.waitingQueue = [1, 2] ∧ m.waitingQueue = [2, 1]) ∧
      ∃ m, (journal scheduledScope).Reachable m ∧ m.rolledBack ∧ m.before.reqToToken (3, 0) = 0 ∧
        m.reqToToken (3, 0) / scheduledScope.pageSize = 1 ∧ 1 ∈ m.freePages scheduledScope.fullAllocator := by
  have start : (journal scheduledScope).Reachable (enter scheduledScope twoWaiting fun _ => false) :=
    .start ⟨twoWaiting, fun _ => false, twoWaiting_entry, rfl⟩
  constructor
  · obtain ⟨m, reached, ends⟩ := start.run (fun m effect => m.next scheduledScope effect) (fun _ _ _ taken => ⟨trivial, taken⟩)
      lateWatch (fun m => m.rolledBack && m.before.waitingQueue = [1, 2] && m.waitingQueue = [2, 1]) (by decide +kernel)
    simp only [Bool.and_eq_true, decide_eq_true_eq] at ends
    exact ⟨m, reached, ends.1.1, ends.1.2, ends.2⟩
  · obtain ⟨m, reached, ends⟩ := start.run (fun m effect => m.next scheduledScope effect) (fun _ _ _ taken => ⟨trivial, taken⟩)
      strayWrite
      (fun m => m.rolledBack && m.before.reqToToken (3, 0) = 0 && m.reqToToken (3, 0) / scheduledScope.pageSize = 1 &&
        1 ∈ m.freePages scheduledScope.fullAllocator) (by decide +kernel)
    simp only [Bool.and_eq_true, decide_eq_true_eq] at ends
    exact ⟨m, reached, ends.1.1.1, ends.1.1.2, ends.1.2, ends.2⟩

/-- Pages, a row and a lock are taken for both, which leave the queue; the second step
of the first rollback raises. -/
def orderlyAttempt : List Effect :=
  [.watch [1, 2], .bind [1, 2] none, .alloc 0 [1, 2, 3] 2 [4, 5, 8], .alloc 1 [3, 1, 2] 1 [12], .writeMapping 5 12,
    .alloc 0 [3] 1 [5, 12], .writeMapping 5 13, .takeRows [6], .writeTable (6, 0) 4, .incLock ⟨7, some 9⟩,
    .changeRequest 1 ⟨some 6, some (0, 3), ⟨7, some 9⟩, 3, 3, 1⟩ 0, .dequeue [2, 1], .changeChunkOwner (some 1),
    .rollback, .rollback]

theorem rollback_exact_orderlyAttempt :
    ∃ m : Attempt, m.rolledBack ∧ Restored scheduledScope m ∧ rollback scheduledScope m = .ok ⟨⟩ m := by
  have start : (journal scheduledScope).ReachableUnder (Orderly scheduledScope) (enter scheduledScope twoWaiting (· = 1)) :=
    .start ⟨twoWaiting, (· = 1), twoWaiting_entry, rfl⟩
  obtain ⟨m, reached, ends⟩ := start.run
    (fun m effect =>
      if (∀ request ∈ effect.dequeued, request ∉ m.late) ∧ (effect.unwinds → m.ready scheduledScope) then
        m.next scheduledScope effect
      else none)
    (fun _ _ _ taken => Option.ite_none_right_eq_some.mp taken) orderlyAttempt (fun m => m.rolledBack && m.active)
    (by decide +kernel)
  rw [Bool.and_eq_true] at ends
  obtain ⟨restored, again⟩ := (rollback_exact reached).1 ends.1
  exact ⟨m, ends.1, restored, again ends.2⟩

end TwoRequests

end Attempt

end CrossPool.Ecs
