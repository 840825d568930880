import Mathlib.Algebra.Order.Ring.Int
import Mathlib.Data.List.Dedup
import Mathlib.Data.List.Perm.Subperm
import CrossPool.Lib.Procedure
import CrossPool.Lib.Runs

/-!
# Physical bundles under a shared quota

A `KvVmmBacking` owns physical bundles by id, and all backings of a rank charge
one `MemoryQuota`. Any driver call may fail, also during a rollback, and a raise
keeps what was written before it.
-/

namespace CrossPool.Ecs.Vmm

open CrossPool.Lib

structure PoolProfile where
  bundleBytes : Nat
  bundleCapacity : Nat
  floorBundles : Nat
  valid : bundleBytes ≠ 0 ∧ floorBundles ≤ bundleCapacity ∧ bundleBytes * bundleCapacity ≤ 2 ^ 64 - 1

structure MemoryQuota where
  limitBytes : Nat
  chargedBytes : Nat
deriving DecidableEq, Repr

/-- A driver result: out of memory, one that ends the process, or another error. -/
inductive Status where
  | success
  | outOfMemory
  | terminal
  | other
deriving DecidableEq, Repr

inductive Failure where
  | driver (status : Status)
  | memory
  | value
  | runtime
deriving DecidableEq, Repr

structure KvVmmBundle where
  mapped : Bool
deriving DecidableEq, Repr

/-- `bundles` in insertion order; `reserved` is a base address other than zero. -/
structure KvVmmBacking where
  profile : PoolProfile
  reserved : Bool
  bundles : List (Nat × KvVmmBundle)

namespace KvVmmBacking

variable (b : KvVmmBacking)

def bundleIds : List Nat :=
  b.bundles.map Prod.fst

def backedBytes : Nat :=
  b.bundles.length * b.profile.bundleBytes

def isMapped (id : Nat) : Bool :=
  b.bundles.any fun entry => entry.1 = id && entry.2.mapped

def insert (id : Nat) : KvVmmBacking :=
  { b with bundles := b.bundles ++ [(id, ⟨false⟩)] }

def setMapped (id : Nat) (mapped : Bool) : KvVmmBacking :=
  { b with bundles := b.bundles.map fun entry => if entry.1 = id then (id, ⟨mapped⟩) else entry }

def delete (id : Nat) : KvVmmBacking :=
  { b with bundles := b.bundles.filter fun entry => entry.1 ≠ id }

end KvVmmBacking

/-- What a method of one backing sees: itself, the quota and the driver, whose
results are arbitrary. `overdrawn` is history: a refund was refused. -/
structure Scope where
  quota : MemoryQuota
  backing : KvVmmBacking
  outcomes : Nat → Status
  calls : Nat
  overdrawn : Bool

abbrev M := EStateM Failure Scope

/-! ## Quota -/

/-- `try_reserve`, whose argument is within uint64. -/
def tryReserve (byteCount : Nat) : M Bool := do
  let s ← get
  if 2 ^ 64 - 1 < byteCount then throw .value
  if s.quota.limitBytes < s.quota.chargedBytes + byteCount then return false
  modify fun s => { s with quota.chargedBytes := s.quota.chargedBytes + byteCount }
  return true

/-- `release`; a refused refund is noted. -/
def release (byteCount : Nat) : M Unit := do
  let s ← get
  if 2 ^ 64 - 1 < byteCount ∨ s.quota.chargedBytes < byteCount then
    modify fun s => { s with overdrawn := true }
    throw .value
  modify fun s => { s with quota.chargedBytes := s.quota.chargedBytes - byteCount }

/-! ## Backing -/

/-- One driver call. -/
def callDriver : M Status := do
  let s ← get
  modify fun s => { s with calls := s.calls + 1 }
  return s.outcomes s.calls

def checkDriver : M Unit := do
  let status ← callDriver
  if status = .success then return () else throw (.driver status)

def modifyBacking (f : KvVmmBacking → KvVmmBacking) : M Unit :=
  modify fun s => { s with backing := f s.backing }

/-- `KvVmmBundle.close`: unmap what is mapped, then release the handle. -/
def closeBundle (id : Nat) : M Unit := do
  let s ← get
  if s.backing.isMapped id then
    checkDriver
    modifyBacking (·.setMapped id false)
  checkDriver

/-- Close a bundle, drop it and refund it. -/
def retireBundle (id : Nat) : M Unit := do
  closeBundle id
  modifyBacking (·.delete id)
  let s ← get
  release s.backing.profile.bundleBytes

/-- The loop of `try_map`, with the ids acquired and the error it left by. -/
def mapBundles : List Nat → List Nat → M (List Nat × Option Failure)
  | [], acquired => return (acquired, none)
  | id :: rest, acquired => do
    -- cuMemCreate
    match ← callDriver with
    | .success =>
      modifyBacking (·.insert id)
      -- cuMemMap
      match ← callDriver with
      | .success =>
        modifyBacking (·.setMapped id true)
        -- cuMemSetAccess
        match ← callDriver with
        | .success => mapBundles rest (acquired ++ [id])
        | status => return (acquired ++ [id], some (.driver status))
      | status => return (acquired ++ [id], some (.driver status))
    | status => return (acquired, some (.driver status))

/-- `sorted(set(ids).difference(bundles))`. -/
def missingIds (b : KvVmmBacking) (ids : List Nat) : List Nat :=
  (ids.dedup.filter fun id => id ∉ b.bundleIds).mergeSort

def tryMap (ids : List Nat) : M Bool := do
  let s ← get
  let profile := s.backing.profile
  if ids.any fun id => 2 ^ 64 - 1 < id then throw .value
  if ids.any fun id => profile.bundleCapacity ≤ id then throw .value
  if !s.backing.reserved then throw .runtime
  let missing := missingIds s.backing ids
  if !(← tryReserve (missing.length * profile.bundleBytes)) then return false
  match ← mapBundles missing [] with
  | (_, none) => return true
  | (acquired, some error) =>
    release ((missing.length - acquired.length) * profile.bundleBytes)
    if error = .driver .terminal then throw error
    acquired.reverse.forM retireBundle
    if error = .driver .outOfMemory then return false
    throw error

/-- `sorted(set(ids).intersection(bundles))`. -/
def presentIds (b : KvVmmBacking) (ids : List Nat) : List Nat :=
  (ids.dedup.filter fun id => id ∈ b.bundleIds).mergeSort

def unmap (ids : List Nat) : M Nat := do
  let s ← get
  let profile := s.backing.profile
  if ids.any fun id => 2 ^ 64 - 1 < id then throw .value
  if ids.any fun id => id < profile.floorBundles || profile.bundleCapacity ≤ id then throw .value
  if !s.backing.reserved then throw .runtime
  let present := presentIds s.backing ids
  present.forM retireBundle
  return present.length * profile.bundleBytes

def close : M Unit := do
  let s ← get
  if s.backing.reserved then
    s.backing.bundleIds.forM retireBundle
    checkDriver
    modifyBacking ({ · with reserved := false })

/-- Run to the end, whatever the result. -/
def attempt {α : Type} (m : M α) : M (Except Failure α) := fun s =>
  match m s with
  | .ok a t => .ok (.ok a) t
  | .error e t => .ok (.error e) t

/-- The part of `__init__` under its handler: the views, whose construction may
fail, and the floor. -/
def bootstrap : M Unit := do
  checkDriver
  let s ← get
  if !(← tryMap (List.range s.backing.profile.floorBundles)) then throw .memory

/-- The handler of `__init__`: close an object without bundles, and raise again. -/
def recover (error : Failure) : M Unit := do
  let s ← get
  if s.backing.bundles.isEmpty ∧ error ≠ .driver .terminal then close
  throw error

/-- `__init__` on a fresh object. -/
def construct : M Unit := do
  checkDriver
  modifyBacking ({ · with reserved := true })
  match ← attempt bootstrap with
  | .ok () => return ()
  | .error error => recover error

/-! ## The ledger of one backing -/

/-- The charge covers this backing, `others` of the other backings and `pending`
bytes that are charged ahead of their bundles. -/
structure Ledger (others pending : Nat) (s : Scope) : Prop where
  charged : s.quota.chargedBytes = others + s.backing.backedBytes + pending
  bounded : s.quota.chargedBytes ≤ s.quota.limitBytes
  limit : s.quota.limitBytes ≤ 2 ^ 64 - 1
  distinct : s.backing.bundleIds.Nodup
  capacity : ∀ id ∈ s.backing.bundleIds, id < s.backing.profile.bundleCapacity
  refunds : s.overdrawn = false

section Ledger

variable {others pending : Nat} {s t : Scope} {id : Nat} {raised : Scope → Prop}

@[simp] theorem wp_callDriver {post : Status → Scope → Prop} :
    wp callDriver post raised s = post (s.outcomes s.calls) { s with calls := s.calls + 1 } :=
  rfl

@[simp] theorem wp_modifyBacking {f : KvVmmBacking → KvVmmBacking} {post : Unit → Scope → Prop} :
    wp (modifyBacking f) post raised s = post () { s with backing := f s.backing } :=
  rfl

theorem wp_checkDriver {post : Unit → Scope → Prop} (returns : post () { s with calls := s.calls + 1 })
    (raises : raised { s with calls := s.calls + 1 }) : wp checkDriver post raised s := by
  simp only [checkDriver, wp_bind, wp_callDriver]
  split
  · exact returns
  · exact raises

theorem wp_attempt {α : Type} {m : M α} {post : Except Failure α → Scope → Prop}
    (holds : wp m (fun a t => post (.ok a) t) (fun t => ∀ e, post (.error e) t) s) : wp (attempt m) post raised s := by
  unfold wp attempt at *
  split at holds
  · next a t ran => simpa [ran] using holds
  · next e t ran => simpa [ran] using holds e

theorem bundleIds_setMapped (b : KvVmmBacking) (mapped : Bool) : (b.setMapped id mapped).bundleIds = b.bundleIds := by
  simp only [KvVmmBacking.bundleIds, KvVmmBacking.setMapped, List.map_map]
  apply List.map_congr_left
  intro entry _
  simp only [Function.comp]
  split
  · next same => exact same.symm
  · rfl

theorem bundleIds_delete (b : KvVmmBacking) : (b.delete id).bundleIds = b.bundleIds.filter (· ≠ id) := by
  simp only [KvVmmBacking.bundleIds, KvVmmBacking.delete, List.filter_map]
  rfl

/-- Bundles are counted by their ids. -/
theorem backedBytes_eq (b : KvVmmBacking) : b.backedBytes = b.bundleIds.length * b.profile.bundleBytes := by
  simp [KvVmmBacking.backedBytes, KvVmmBacking.bundleIds]

/-- The ledger only looks at the ids. -/
theorem Ledger.congr (ledger : Ledger others pending s) (quota : t.quota = s.quota) (profile : t.backing.profile = s.backing.profile)
    (ids : t.backing.bundleIds = s.backing.bundleIds) (refunds : t.overdrawn = s.overdrawn) : Ledger others pending t := by
  obtain ⟨charged, bounded, limit, distinct, capacity, noRefusal⟩ := ledger
  refine ⟨?_, ?_, ?_, ?_, ?_, ?_⟩
  · rw [quota, charged, backedBytes_eq, backedBytes_eq, ids, profile]
  · rwa [quota]
  · rwa [quota]
  · rwa [ids]
  · rwa [ids, profile]
  · rwa [refunds]

/-- A refund within what is pending goes through. -/
theorem wp_release {byteCount : Nat} {post : Unit → Scope → Prop} (ledger : Ledger others (pending + byteCount) s)
    (returns :
      ∀ t, Ledger others pending t → t.backing = s.backing →
        t.quota = ⟨s.quota.limitBytes, s.quota.chargedBytes - byteCount⟩ → post () t) :
    wp (release byteCount) post raised s := by
  have charged := ledger.charged
  have bounded := ledger.bounded
  have limit := ledger.limit
  simp only [release, wp_bind, wp_get]
  rw [if_neg (by omega)]
  refine returns _ ?_ rfl rfl
  refine ⟨?_, ?_, limit, ledger.distinct, ledger.capacity, ledger.refunds⟩
  · show s.quota.chargedBytes - byteCount = others + s.backing.backedBytes + pending
    omega
  · show s.quota.chargedBytes - byteCount ≤ s.quota.limitBytes
    omega

/-- `KvVmmBundle.close` changes at most whether the bundle is mapped. -/
theorem wp_closeBundle {post : Unit → Scope → Prop}
    (returns :
      ∀ t, t.quota = s.quota → t.overdrawn = s.overdrawn →
        (t.backing = s.backing ∨ t.backing = s.backing.setMapped id false) → post () t)
    (raises :
      ∀ t, t.quota = s.quota → t.overdrawn = s.overdrawn →
        (t.backing = s.backing ∨ t.backing = s.backing.setMapped id false) → raised t) :
    wp (closeBundle id) post raised s := by
  simp only [closeBundle, wp_bind, wp_get]
  split
  · simp only [wp_bind]
    apply wp_checkDriver
    · simp only [wp_modifyBacking]
      apply wp_checkDriver
      · exact returns _ rfl rfl (.inr rfl)
      · exact raises _ rfl rfl (.inr rfl)
    · exact raises _ rfl rfl (.inl rfl)
  · apply wp_checkDriver
    · exact returns _ rfl rfl (.inl rfl)
    · exact raises _ rfl rfl (.inl rfl)

theorem length_filter_ne {ids : List Nat} (distinct : ids.Nodup) (member : id ∈ ids) :
    (ids.filter (· ≠ id)).length + 1 = ids.length := by
  have erased : ids.filter (· ≠ id) = ids.erase id := by
    rw [distinct.erase_eq_filter]
    apply List.filter_congr
    intro other _
    by_cases same : other = id <;> simp [same]
  rw [erased, List.length_erase_of_mem member]
  have := List.length_pos_of_mem member
  omega

/-- Retiring a bundle drops and refunds it, or keeps both. -/
theorem wp_retireBundle {post : Unit → Scope → Prop} (ledger : Ledger others pending s) (member : id ∈ s.backing.bundleIds)
    (returns :
      ∀ t, Ledger others pending t → t.backing.profile = s.backing.profile →
        t.backing.bundles = s.backing.bundles.filter (fun entry => entry.1 ≠ id) →
        t.quota = ⟨s.quota.limitBytes, s.quota.chargedBytes - s.backing.profile.bundleBytes⟩ → post () t)
    (raises : ∀ t, Ledger others pending t → raised t) : wp (retireBundle id) post raised s := by
  have keeps : ∀ t : Scope, t.backing = s.backing ∨ t.backing = s.backing.setMapped id false →
      t.backing.profile = s.backing.profile ∧ t.backing.bundleIds = s.backing.bundleIds ∧
        t.backing.bundles.filter (fun entry => entry.1 ≠ id) = s.backing.bundles.filter (fun entry => entry.1 ≠ id) := by
    rintro t (same | same)
    · rw [same]
      exact ⟨rfl, rfl, rfl⟩
    · rw [same, bundleIds_setMapped]
      refine ⟨rfl, rfl, ?_⟩
      simp only [KvVmmBacking.setMapped, List.filter_map]
      rw [List.filter_congr (q := fun entry => decide (entry.1 ≠ id))]
      · rw [List.map_congr_left (g := fun entry => entry) ?_]
        · simp
        · intro entry kept
          have differs := (List.mem_filter.mp kept).2
          simp only [ne_eq, decide_eq_true_eq] at differs
          simp [differs]
      · intro entry _
        simp only [Function.comp]
        split
        · next same => simp [same]
        · rfl
  simp only [retireBundle, wp_bind]
  apply wp_closeBundle
  · intro t quota refunds backing
    obtain ⟨profile, ids, rest⟩ := keeps t backing
    have now : Ledger others pending t := ledger.congr quota profile ids refunds
    simp only [wp_modifyBacking, wp_get]
    have count := length_filter_ne now.distinct (ids ▸ member)
    have dropped : Ledger others (pending + t.backing.profile.bundleBytes) { t with backing := t.backing.delete id } := by
      refine ⟨?_, now.bounded, now.limit, ?_, ?_, now.refunds⟩
      · have charged := now.charged
        rw [backedBytes_eq, ← count, Nat.succ_mul] at charged
        rw [backedBytes_eq, bundleIds_delete]
        show t.quota.chargedBytes = others + _ * t.backing.profile.bundleBytes + (pending + t.backing.profile.bundleBytes)
        omega
      · rw [bundleIds_delete]
        exact now.distinct.filter _
      · rw [bundleIds_delete]
        exact fun id member => now.capacity id (List.mem_of_mem_filter member)
    apply wp_release dropped
    intro u later same refunded
    refine returns u later ?_ ?_ ?_
    · rw [same]
      exact profile
    · rw [same]
      exact rest
    · rw [refunded]
      show (⟨t.quota.limitBytes, t.quota.chargedBytes - t.backing.profile.bundleBytes⟩ : MemoryQuota) = _
      rw [quota, profile]
  · intro t quota refunds backing
    obtain ⟨profile, ids, -⟩ := keeps t backing
    exact raises t (ledger.congr quota profile ids refunds)

/-- The loops that retire bundles one after the other. -/
theorem wp_retireAll {post : Unit → Scope → Prop} (ids : List Nat) (distinct : ids.Nodup) {s : Scope}
    (members : ids ⊆ s.backing.bundleIds) (ledger : Ledger others pending s)
    (returns :
      ∀ t, Ledger others pending t → t.backing.profile = s.backing.profile → t.quota.limitBytes = s.quota.limitBytes →
        t.backing.bundles = s.backing.bundles.filter (fun entry => entry.1 ∉ ids) → post () t)
    (raises : ∀ t, Ledger others pending t → raised t) : wp (ids.forM retireBundle) post raised s := by
  induction ids generalizing s with
  | nil => exact returns s ledger rfl rfl (by simp)
  | cons id rest ih =>
    obtain ⟨fresh, distinctRest⟩ := List.nodup_cons.mp distinct
    show wp (retireBundle id >>= fun _ => rest.forM retireBundle) post raised s
    rw [wp_bind]
    refine wp_retireBundle ledger (members List.mem_cons_self) ?_ raises
    intro t now profile bundles quota
    have kept : rest ⊆ t.backing.bundleIds := by
      intro other member
      have before := members (List.mem_cons_of_mem _ member)
      have ne : other ≠ id := fun same => fresh (same ▸ member)
      simp only [KvVmmBacking.bundleIds, List.mem_map] at before ⊢
      obtain ⟨entry, found, rfl⟩ := before
      exact ⟨entry, by rw [bundles]; exact List.mem_filter.mpr ⟨found, by simpa using ne⟩, rfl⟩
    refine ih distinctRest kept now ?_
    intro u later profile' limit rest'
    refine returns u later (profile'.trans profile) (limit.trans (by rw [quota])) ?_
    rw [rest', bundles, List.filter_filter]
    apply List.filter_congr
    intro entry _
    by_cases same : entry.1 = id <;> simp [same]

/-- What the mapping loop leaves: the bundles it added, and the bytes that it has
charged for none. -/
structure Acquired (others total : Nat) (s t : Scope) (old : List (Nat × KvVmmBundle)) (acquired : List Nat) : Prop where
  ledger : Ledger others ((total - acquired.length) * s.backing.profile.bundleBytes) t
  profile : t.backing.profile = s.backing.profile
  quota : t.quota = s.quota
  bundles : ∃ new : List (Nat × KvVmmBundle), t.backing.bundles = old ++ new ∧ new.map Prod.fst = acquired
  bound : acquired.length ≤ total

theorem Acquired.insert {total : Nat} {old : List (Nat × KvVmmBundle)} {acquired : List Nat}
    (before : Acquired others total s t old acquired) (room : acquired.length < total) (fresh : id ∉ t.backing.bundleIds)
    (bound : id < s.backing.profile.bundleCapacity) (mapped : Bool) (calls : Nat) :
    Acquired others total s
      { t with
        backing := { t.backing with bundles := t.backing.bundles ++ [(id, ⟨mapped⟩)] }
        calls := calls } old (acquired ++ [id]) := by
  obtain ⟨ledger, profile, quota, ⟨new, bundles, ids⟩, le⟩ := before
  refine ⟨?_, profile, quota, ⟨new ++ [(id, ⟨mapped⟩)], by simp [bundles], by simp [ids]⟩, ?_⟩
  on_goal 2 =>
    rw [List.length_append, List.length_singleton]
    omega
  have charged := ledger.charged
  refine ⟨?_, ledger.bounded, ledger.limit, ?_, ?_, ledger.refunds⟩
  · have split : total - acquired.length = (total - (acquired ++ [id]).length) + 1 := by
      rw [List.length_append, List.length_singleton]
      omega
    rw [split, Nat.succ_mul] at charged
    show t.quota.chargedBytes =
      others + (t.backing.bundles ++ [(id, (⟨mapped⟩ : KvVmmBundle))]).length * t.backing.profile.bundleBytes + _
    simp only [KvVmmBacking.backedBytes] at charged
    rw [List.length_append, List.length_singleton, Nat.succ_mul, profile]
    rw [profile] at charged
    omega
  · simp only [KvVmmBacking.bundleIds, List.map_append, List.map_cons, List.map_nil]
    exact List.nodup_append.mpr ⟨ledger.distinct, List.nodup_singleton _, by
      intro a inOld b inNew same
      rw [List.mem_singleton.mp inNew] at same
      exact fresh (same ▸ inOld)⟩
  · intro other member
    simp only [KvVmmBacking.bundleIds, List.map_append, List.map_cons, List.map_nil, List.mem_append,
      List.mem_singleton] at member
    rcases member with old | rfl
    · exact ledger.capacity other old
    · exact profile.symm ▸ bound

theorem wp_mapBundles {post : List Nat × Option Failure → Scope → Prop} {total : Nat} {old : List (Nat × KvVmmBundle)}
    {s : Scope} (rest acquired : List Nat) {t : Scope} (distinct : rest.Nodup)
    (fresh : ∀ id ∈ rest, id ∉ t.backing.bundleIds) (bound : ∀ id ∈ rest, id < s.backing.profile.bundleCapacity)
    (size : acquired.length + rest.length = total) (before : Acquired others total s t old acquired)
    (mapped : ∀ u acquired, acquired.length = total → Acquired others total s u old acquired → post (acquired, none) u)
    (failed : ∀ u acquired error, Acquired others total s u old acquired → post (acquired, some error) u) :
    wp (mapBundles rest acquired) post raised t := by
  induction rest generalizing acquired t with
  | nil => exact mapped t acquired (by simpa using size) before
  | cons id rest ih =>
    obtain ⟨unrepeated, distinctRest⟩ := List.nodup_cons.mp distinct
    have freshId := fresh id List.mem_cons_self
    have room : acquired.length < total := by
      rw [← size, List.length_cons]
      omega
    have inserted := fun mapped calls => before.insert room freshId (bound id List.mem_cons_self) mapped calls
    have flagged : (t.backing.insert id).setMapped id true =
        { t.backing with bundles := t.backing.bundles ++ [(id, ⟨true⟩)] } := by
      simp only [KvVmmBacking.insert, KvVmmBacking.setMapped, List.map_append, List.map_cons, List.map_nil, if_true]
      congr 1
      rw [List.map_congr_left (g := fun entry => entry) ?_]
      · simp
      · intro entry member
        have ne : entry.1 ≠ id := fun same => freshId (same ▸ List.mem_map_of_mem member)
        simp [ne]
    simp only [mapBundles, wp_bind, wp_callDriver]
    split
    · simp only [wp_bind, wp_modifyBacking, wp_callDriver]
      split
      · simp only [wp_bind, wp_modifyBacking, wp_callDriver, flagged]
        split
        · refine ih (acquired ++ [id]) distinctRest ?_ (fun other member => bound other (List.mem_cons_of_mem _ member)) ?_
            (inserted true _)
          · intro other member
            simp only [KvVmmBacking.bundleIds, List.map_append, List.map_cons, List.map_nil, List.mem_append,
              List.mem_singleton, not_or]
            exact ⟨fresh other (List.mem_cons_of_mem _ member), fun same => unrepeated (same ▸ member)⟩
          · rw [List.length_append, List.length_singleton, ← size, List.length_cons]
            omega
        · exact failed _ _ _ (inserted true _)
      · exact failed _ _ _ (inserted false _)
    · obtain ⟨ledger, profile, quota, bundles, le⟩ := before
      exact failed _ _ _ ⟨ledger.congr rfl rfl rfl rfl, profile, quota, bundles, le⟩

/-! ## Methods -/

theorem missingIds_spec (b : KvVmmBacking) (ids : List Nat) :
    (missingIds b ids).Nodup ∧ ∀ id, id ∈ missingIds b ids ↔ id ∈ ids ∧ id ∉ b.bundleIds := by
  have perm := List.mergeSort_perm (ids.dedup.filter fun id => decide (id ∉ b.bundleIds)) (fun a b => decide (a ≤ b))
  refine ⟨perm.nodup_iff.mpr ((List.nodup_dedup ids).filter _), fun id => ?_⟩
  rw [missingIds, perm.mem_iff, List.mem_filter, List.mem_dedup]
  simp

theorem presentIds_spec (b : KvVmmBacking) (ids : List Nat) :
    (presentIds b ids).Nodup ∧ presentIds b ids ⊆ b.bundleIds := by
  have perm := List.mergeSort_perm (ids.dedup.filter fun id => decide (id ∈ b.bundleIds)) (fun a b => decide (a ≤ b))
  refine ⟨perm.nodup_iff.mpr ((List.nodup_dedup ids).filter _), fun id member => ?_⟩
  have member := perm.mem_iff.mp member
  simpa using (List.mem_filter.mp member).2

/-- A list of distinct numbers below a bound is no longer than the bound. -/
theorem length_le_of_lt {ids : List Nat} {bound : Nat} (distinct : ids.Nodup) (below : ∀ id ∈ ids, id < bound) :
    ids.length ≤ bound := by
  have within : ids ⊆ List.range bound := fun id member => List.mem_range.mpr (below id member)
  have := (List.Nodup.subperm distinct within).length_le
  simpa using this

theorem wp_tryMap {ids : List Nat} (ledger : Ledger others 0 s) :
    wp (tryMap ids)
      (fun result t =>
        Ledger others 0 t ∧
          (result = false →
            t.backing.bundles = s.backing.bundles ∧ t.quota.chargedBytes = s.quota.chargedBytes))
      (Ledger others 0) s := by
  obtain ⟨distinct, members⟩ := missingIds_spec s.backing ids
  simp only [tryMap, wp_bind, wp_get]
  split
  · exact ledger
  split
  · exact ledger
  next within =>
  split
  · exact ledger
  simp only [wp_bind, tryReserve, wp_get]
  generalize missing : missingIds s.backing ids = absent at distinct members
  have below : ∀ id ∈ absent, id < s.backing.profile.bundleCapacity := by
    intro id member
    simp only [List.any_eq_true, decide_eq_true_eq, not_exists, not_and] at within
    exact Nat.lt_of_not_le (within id ((members id).mp member).1)
  have fits : absent.length * s.backing.profile.bundleBytes ≤ 2 ^ 64 - 1 := by
    have count := length_le_of_lt distinct below
    have valid := s.backing.profile.valid.2.2
    calc
      absent.length * s.backing.profile.bundleBytes
        ≤ s.backing.profile.bundleCapacity * s.backing.profile.bundleBytes := Nat.mul_le_mul_right _ count
      _ = s.backing.profile.bundleBytes * s.backing.profile.bundleCapacity := Nat.mul_comm _ _
      _ ≤ 2 ^ 64 - 1 := valid
  rw [if_neg (by omega)]
  split
  · exact ⟨ledger, fun _ => ⟨rfl, rfl⟩⟩
  next affordable =>
  simp only [wp_bind, wp_modify, wp_pure, Bool.not_true, Bool.false_eq_true, if_false]
  -- the charge is ahead of the bundles by all that is missing
  have start : Acquired others absent.length
      { s with quota.chargedBytes := s.quota.chargedBytes + absent.length * s.backing.profile.bundleBytes }
      { s with quota.chargedBytes := s.quota.chargedBytes + absent.length * s.backing.profile.bundleBytes }
      s.backing.bundles [] := by
    refine ⟨⟨?_, by simpa using Nat.le_of_not_lt affordable, ledger.limit, ledger.distinct, ledger.capacity, ledger.refunds⟩,
      rfl, rfl, ⟨[], by simp, rfl⟩, Nat.zero_le _⟩
    have charged := ledger.charged
    simp only [List.length_nil, Nat.sub_zero]
    omega
  have size : ([] : List Nat).length + absent.length = absent.length := by simp
  refine wp_mapBundles
    (s := { s with quota.chargedBytes := s.quota.chargedBytes + absent.length * s.backing.profile.bundleBytes }) absent []
    distinct (fun id member => ((members id).mp member).2) below size start ?_ ?_
  · intro u acquired all done
    have ledger := done.ledger
    rw [all, Nat.sub_self, Nat.zero_mul] at ledger
    exact ⟨ledger, fun impossible => by cases impossible⟩
  · intro u acquired error done
    obtain ⟨ledgerU, profile, quota, ⟨new, bundles, ids'⟩, le⟩ := done
    dsimp only at profile ledgerU
    simp only [wp_bind]
    rw [← Nat.zero_add ((absent.length - acquired.length) * s.backing.profile.bundleBytes)] at ledgerU
    refine wp_release ledgerU ?_
    intro v now backing refunded
    split
    · exact now
    simp only [wp_bind]
    have distinctIds := now.distinct
    have whole : v.backing.bundleIds = s.backing.bundleIds ++ acquired := by
      rw [backing, KvVmmBacking.bundleIds, bundles, List.map_append, ids']
      rfl
    rw [whole] at distinctIds
    refine wp_retireAll acquired.reverse ?_ ?_ now ?_ (fun _ ledger => ledger)
    · exact List.nodup_reverse.mpr (List.nodup_append.mp distinctIds).2.1
    · intro id member
      rw [whole]
      exact List.mem_append_right _ (List.mem_reverse.mp member)
    · intro x final profile' limit rest
      have restored : x.backing.bundles = s.backing.bundles := by
        rw [rest, backing, bundles, List.filter_append]
        have gone : new.filter (fun entry => entry.1 ∉ acquired.reverse) = [] := by
          apply List.filter_eq_nil_iff.mpr
          intro entry member
          have := List.mem_map_of_mem (f := Prod.fst) member
          rw [ids'] at this
          simpa using this
        have kept : s.backing.bundles.filter (fun entry => entry.1 ∉ acquired.reverse) = s.backing.bundles := by
          apply List.filter_eq_self.mpr
          intro entry member
          have old : entry.1 ∈ s.backing.bundleIds := List.mem_map_of_mem member
          have := (List.nodup_append.mp distinctIds).2.2 entry.1 old
          simp only [List.mem_reverse, decide_eq_true_eq]
          exact fun again => this entry.1 again rfl
        rw [gone, kept, List.append_nil]
      split
      · refine ⟨final, fun _ => ⟨restored, ?_⟩⟩
        have charged := final.charged
        rw [KvVmmBacking.backedBytes, restored, profile', backing, profile] at charged
        rw [charged, ledger.charged]
        rfl
      · exact final

theorem wp_unmap {ids : List Nat} (ledger : Ledger others 0 s) :
    wp (unmap ids) (fun _ => Ledger others 0) (Ledger others 0) s := by
  obtain ⟨distinct, members⟩ := presentIds_spec s.backing ids
  simp only [unmap, wp_bind, wp_get]
  split
  · exact ledger
  split
  · exact ledger
  split
  · exact ledger
  simp only [wp_bind, wp_pure]
  exact wp_retireAll _ distinct members ledger (fun t now _ _ _ => now) fun _ now => now

theorem wp_close (ledger : Ledger others 0 s) : wp close (fun _ => Ledger others 0) (Ledger others 0) s := by
  simp only [close, wp_bind, wp_get]
  split
  · simp only [wp_bind]
    refine wp_retireAll _ ledger.distinct (List.Subset.refl _) ledger ?_ fun _ now => now
    intro t now _ _ _
    apply wp_checkDriver
    · exact now.congr rfl rfl rfl rfl
    · exact now.congr rfl rfl rfl rfl
  · exact ledger

theorem wp_recover (ledger : Ledger others 0 s) (error : Failure) :
    wp (recover error) (fun _ => Ledger others 0) (Ledger others 0) s := by
  simp only [recover, wp_bind, wp_get]
  split
  · simp only [wp_bind]
    exact wp_mono (wp_close ledger) (fun _ _ closed => closed) fun _ failed => failed
  · exact ledger

theorem wp_construct (ledger : Ledger others 0 s) : wp construct (fun _ => Ledger others 0) (Ledger others 0) s := by
  simp only [construct, wp_bind]
  apply wp_checkDriver
  on_goal 2 => exact ledger.congr rfl rfl rfl rfl
  simp only [wp_modifyBacking]
  apply wp_attempt
  simp only [bootstrap, wp_bind]
  apply wp_checkDriver
  · simp only [wp_get]
    refine wp_mono (wp_tryMap (ledger.congr rfl rfl rfl rfl)) ?_ ?_
    · intro result t now
      split
      · exact fun error => wp_recover now.1 error
      · exact now.1
    · exact fun t now error => wp_recover now error
  · intro error
    apply wp_recover
    exact ledger.congr rfl rfl rfl rfl

end Ledger

/-! ## All backings of a rank -/

structure Rank where
  quota : MemoryQuota
  backings : List KvVmmBacking
  outcomes : Nat → Status
  calls : Nat
  overdrawn : Bool

/-- A grant and the methods of the backings, each of which may return or raise. A
backing whose construction raised still owns what it retained. -/
inductive Operation where
  | setLimit (limitBytes : Nat)
  | construct (profile : PoolProfile)
  | tryMap (index : Nat) (ids : List Nat)
  | unmap (index : Nat) (ids : List Nat)
  | close (index : Nat)

namespace Rank

def scope (s : Rank) (backing : KvVmmBacking) : Scope where
  quota := s.quota
  backing := backing
  outcomes := s.outcomes
  calls := s.calls
  overdrawn := s.overdrawn

/-- The state a method leaves, whether it returns or raises. -/
def leaves {α : Type} (m : M α) (s : Scope) : Scope :=
  match m s with
  | .ok _ t => t
  | .error _ t => t

def install (backings : KvVmmBacking → List KvVmmBacking) (t : Scope) : Rank where
  quota := t.quota
  backings := backings t.backing
  outcomes := t.outcomes
  calls := t.calls
  overdrawn := t.overdrawn

/-- Run a method of one of the backings. -/
def invoke {α : Type} (s : Rank) (index : Nat) (m : M α) : Option Rank :=
  s.backings[index]?.map fun backing => install (s.backings.set index) (leaves m (s.scope backing))

def next (s : Rank) : Operation → Option Rank
  | .setLimit limitBytes =>
    if limitBytes ≤ 2 ^ 64 - 1 ∧ s.quota.chargedBytes ≤ limitBytes then some { s with quota.limitBytes := limitBytes }
    else some s
  | .construct profile =>
    some (install (fun backing => s.backings ++ [backing]) (leaves Vmm.construct (s.scope ⟨profile, false, []⟩)))
  | .tryMap index ids => s.invoke index (Vmm.tryMap ids)
  | .unmap index ids => s.invoke index (Vmm.unmap ids)
  | .close index => s.invoke index Vmm.close

/-- A new ledger, no backing, and any driver. -/
def system : System Rank Operation where
  init s := s.quota.limitBytes ≤ 2 ^ 64 - 1 ∧ s.quota.chargedBytes = 0 ∧ s.backings = [] ∧ s.overdrawn = false
  step s operation t := s.next operation = some t

def backedBytes (s : Rank) : Nat :=
  (s.backings.map KvVmmBacking.backedBytes).sum

/-- The charge is what the backings retain, within the limit, and no refund was
refused. -/
structure Conserved (s : Rank) : Prop where
  charged : s.quota.chargedBytes = s.backedBytes
  bounded : s.quota.chargedBytes ≤ s.quota.limitBytes
  limit : s.quota.limitBytes ≤ 2 ^ 64 - 1
  inventory :
    ∀ backing ∈ s.backings, backing.bundleIds.Nodup ∧ ∀ id ∈ backing.bundleIds, id < backing.profile.bundleCapacity
  refunds : s.overdrawn = false

variable {s t : Rank}

theorem ledger_leaves {α : Type} {m : M α} {others : Nat} {s : Scope}
    (method : wp m (fun _ => Ledger others 0) (Ledger others 0) s) : Ledger others 0 (leaves m s) := by
  unfold wp at method
  unfold leaves
  split at method
  · next ran => simpa [ran] using method
  · next ran => simpa [ran] using method

/-- The other terms of a sum stay when one of them is replaced. -/
theorem sum_map_set {α : Type} (f : α → Nat) {items : List α} {index : Nat} {old : α} (found : items[index]? = some old) :
    ∃ others, (items.map f).sum = others + f old ∧ ∀ new, ((items.set index new).map f).sum = others + f new := by
  induction items generalizing index with
  | nil => cases found
  | cons item rest ih =>
    cases index with
    | zero =>
      obtain rfl := Option.some.inj found
      refine ⟨(rest.map f).sum, ?_, fun new => ?_⟩
      · rw [List.map_cons, List.sum_cons, Nat.add_comm]
      · rw [List.set_cons_zero, List.map_cons, List.sum_cons, Nat.add_comm]
    | succ index =>
      obtain ⟨others, before, after⟩ := ih (show rest[index]? = some old from found)
      refine ⟨f item + others, ?_, fun new => ?_⟩
      · rw [List.map_cons, List.sum_cons, before, Nat.add_assoc]
      · rw [List.set_cons_succ, List.map_cons, List.sum_cons, after, Nat.add_assoc]

theorem Conserved.invoke {α : Type} {m : M α} {index : Nat} (conserved : Conserved s)
    (method : ∀ others s, Ledger others 0 s → wp m (fun _ => Ledger others 0) (Ledger others 0) s)
    (taken : s.invoke index m = some t) : Conserved t := by
  obtain ⟨backing, found, rfl⟩ := Option.map_eq_some_iff.mp taken
  obtain ⟨distinct, capacity⟩ := conserved.inventory backing (List.mem_of_getElem? found)
  obtain ⟨others, before, after⟩ := sum_map_set KvVmmBacking.backedBytes found
  have start : Ledger others 0 (s.scope backing) :=
    ⟨conserved.charged.trans before, conserved.bounded, conserved.limit, distinct, capacity, conserved.refunds⟩
  have left := ledger_leaves (method others _ start)
  refine ⟨?_, left.bounded, left.limit, ?_, left.refunds⟩
  · rw [Rank.backedBytes, show (install _ _).backings = s.backings.set index _ from rfl, after]
    exact left.charged
  · intro other member
    rcases List.mem_or_eq_of_mem_set member with old | rfl
    · exact conserved.inventory other old
    · exact ⟨left.distinct, left.capacity⟩

theorem Conserved.next {operation : Operation} (conserved : Conserved s) (taken : s.next operation = some t) :
    Conserved t := by
  cases operation with
  | setLimit limitBytes =>
    simp only [Rank.next] at taken
    split at taken
    · next fits =>
      obtain rfl := Option.some.inj taken
      exact ⟨conserved.charged, fits.2, fits.1, conserved.inventory, conserved.refunds⟩
    · obtain rfl := Option.some.inj taken
      exact conserved
  | construct profile =>
    obtain rfl := Option.some.inj taken
    have start : Ledger s.backedBytes 0 (s.scope ⟨profile, false, []⟩) := by
      refine ⟨?_, conserved.bounded, conserved.limit, List.nodup_nil, fun id member => ?_, conserved.refunds⟩
      · simpa [KvVmmBacking.backedBytes, Rank.scope] using conserved.charged
      · cases member
    have left := ledger_leaves (wp_construct start)
    refine ⟨?_, left.bounded, left.limit, ?_, left.refunds⟩
    · have charged := left.charged
      simpa [Rank.backedBytes, install] using charged
    · intro other member
      rcases List.mem_append.mp member with old | new
      · exact conserved.inventory other old
      · rw [List.mem_singleton.mp new]
        exact ⟨left.distinct, left.capacity⟩
  | tryMap index ids =>
    refine conserved.invoke (fun others s ledger => ?_) taken
    exact wp_mono (wp_tryMap ledger) (fun _ _ done => done.1) fun _ failed => failed
  | unmap index ids => exact conserved.invoke (fun others s ledger => wp_unmap ledger) taken
  | close index => exact conserved.invoke (fun others s ledger => wp_close ledger) taken

theorem reachable_conserved (reached : system.Reachable s) : Conserved s := by
  apply System.ReachableUnder.invariant ?_ ?_ reached
  · rintro s ⟨limit, charged, backings, refunds⟩
    refine ⟨?_, by omega, limit, ?_, refunds⟩
    · rw [charged, Rank.backedBytes, backings]
      rfl
    · rw [backings]
      intro backing member
      cases member
  · intro s operation t _ conserved _ taken
    exact conserved.next taken

/-- Whatever the driver does, after every call the charge is what the backings
retain and within the limit, no refund is refused, and a `try_map` that returns
False has changed nothing. -/
theorem charge_conserved (reached : system.Reachable s) :
    Conserved s ∧
      ∀ (index : Nat) (backing : KvVmmBacking) (ids : List Nat) (t : Scope), s.backings[index]? = some backing →
        Vmm.tryMap ids (s.scope backing) = .ok false t →
        t.backing.bundles = backing.bundles ∧ t.quota.chargedBytes = s.quota.chargedBytes := by
  have conserved := reachable_conserved reached
  refine ⟨conserved, ?_⟩
  intro index backing ids t found ran
  obtain ⟨distinct, capacity⟩ := conserved.inventory backing (List.mem_of_getElem? found)
  obtain ⟨others, before, -⟩ := sum_map_set KvVmmBacking.backedBytes found
  have start : Ledger others 0 (s.scope backing) :=
    ⟨conserved.charged.trans before, conserved.bounded, conserved.limit, distinct, capacity, conserved.refunds⟩
  have done : wp (Vmm.tryMap ids) _ _ _ := wp_tryMap start
  unfold wp at done
  rw [ran] at done
  exact done.2 rfl

/-- A floor of one bundle was mapped, a second one ran out of memory. -/
theorem charge_conserved_exhausted :
    ∃ s, system.Reachable s ∧ s.quota.chargedBytes = 2 ∧ s.calls = 6 ∧ Conserved s := by
  let start : Rank := ⟨⟨8, 0⟩, [], fun call => if call = 5 then .outOfMemory else .success, 0, false⟩
  have starts : system.Reachable start := .start ⟨by decide, rfl, rfl, rfl⟩
  obtain ⟨s, reached, holds⟩ :=
    System.ReachableUnder.run Rank.next (fun _ _ _ taken => ⟨trivial, taken⟩) starts
      [.construct ⟨2, 4, 1, by decide⟩, .tryMap 0 [1]] (fun s => s.quota.chargedBytes = 2 ∧ s.calls = 6) (by decide +kernel)
  have holds : s.quota.chargedBytes = 2 ∧ s.calls = 6 := by simpa using holds
  exact ⟨s, reached, holds.1, holds.2, (charge_conserved reached).1⟩

end Rank

end CrossPool.Ecs.Vmm
