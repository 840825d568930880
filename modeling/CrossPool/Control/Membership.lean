import CrossPool.Control.Plane

/-!
# What a membership is captured from

A captured membership depends on what the registrations declare: their keys,
their processes and their contracts. Heartbeats and observed liveness are written
to registrations without a new membership revision, and so is a retried
registration that declares the same again.
-/

namespace CrossPool.Control

section Tables

variable {κ C : Type}

/-- What a registration contributes to a membership. -/
def Registration.declared (registration : Registration κ C) : κ × ProcUniqId × C :=
  (registration.key, registration.proc, registration.contract)

variable [DecidableEq κ]

/-- What a table declares under one key. -/
def RegistrationTable.declaredAt (table : RegistrationTable κ C) (key : κ) : Option (κ × ProcUniqId × C) :=
  (table.lookup key).map Registration.declared

/-- Both tables declare the same. -/
def RegistrationTable.Agrees (table table' : RegistrationTable κ C) : Prop :=
  ∀ key, table.declaredAt key = table'.declaredAt key

namespace RegistrationTable

variable {table table' table'' : RegistrationTable κ C} {registration : Registration κ C}

theorem Agrees.refl (table : RegistrationTable κ C) : Agrees table table :=
  fun _ => rfl

theorem Agrees.trans (first : Agrees table table') (second : Agrees table' table'') : Agrees table table'' :=
  fun key => (first key).trans (second key)

/-- Putting an entry under its key changes nothing when it declares the same. -/
theorem insert_agrees {key : κ} {old new : Registration κ C} (found : table.lookup key = some old)
    (same : new.declared = old.declared) : Agrees table (table.insert key new) := by
  intro other
  unfold declaredAt
  by_cases here : other = key
  · subst here
    rw [AList.lookup_insert, found, Option.map_some, Option.map_some, same]
  · rw [AList.lookup_insert_ne here]

theorem write_agrees (key : κ) {f : Registration κ C → Registration κ C} (same : ∀ r, (f r).declared = r.declared) :
    Agrees table (table.write key f) := by
  unfold write
  split
  · rename_i old found
    exact insert_agrees found (same old)
  · exact .refl table

/-- Observed liveness is no part of a declaration. -/
theorem observe_agrees (table : RegistrationTable κ C) (seen : List (Nat × Bool)) : Agrees table (table.observe seen) := by
  unfold observe
  generalize table.keys = keys
  induction keys generalizing table with
  | nil => exact .refl table
  | cons key rest ih =>
    rw [List.foldl_cons]
    refine Agrees.trans (write_agrees key fun r => ?_) (ih _)
    split
    · rfl
    · rfl

theorem commitHeartbeat_agrees {key : κ} {now : Nat} (committed : table.commitHeartbeat key registration now = .ok table') :
    Agrees table table' := by
  unfold commitHeartbeat at committed
  split at committed
  · cases committed
  · obtain rfl := Except.ok.inj committed
    exact write_agrees key fun _ => rfl

/-- Every entry stands under its own key. -/
def Keyed (table : RegistrationTable κ C) : Prop :=
  ∀ key registration, table.lookup key = some registration → registration.key = key

theorem Keyed.agrees (keyed : Keyed table) (agrees : Agrees table table') : Keyed table' := by
  intro key registration found
  have same := agrees key
  unfold declaredAt at same
  rw [found, Option.map_some, Option.map_eq_some_iff] at same
  obtain ⟨old, earlier, declared⟩ := same
  have key_eq : old.key = registration.key := congrArg Prod.fst declared
  rw [← key_eq]
  exact keyed key old earlier

theorem Keyed.insert (keyed : Keyed table) : Keyed (table.insert registration.key registration) := by
  intro key entry found
  by_cases here : key = registration.key
  · subst here
    rw [AList.lookup_insert] at found
    rw [← Option.some.inj found]
  · rw [AList.lookup_insert_ne here] at found
    exact keyed key entry found

theorem Keyed.erase (keyed : Keyed table) (removed : κ) : Keyed (table.erase removed : RegistrationTable κ C) := by
  intro key entry found
  by_cases here : key = removed
  · subst here
    simp at found
  · rw [AList.lookup_erase_ne here] at found
    exact keyed key entry found

theorem removeSnapshot_keyed {key : κ} (keyed : Keyed table) (removed : table.removeSnapshot key registration = .ok table') :
    Keyed table' := by
  unfold removeSnapshot at removed
  split at removed
  · cases removed
  · obtain rfl := Except.ok.inj removed
    exact keyed.erase key

variable [DecidableEq C] {existing : Option (Registration κ C)} {alive changed : Bool}

theorem installSnapshot_keyed (keyed : Keyed table)
    (installed : table.installSnapshot registration existing alive = .ok (changed, table')) : Keyed table' := by
  unfold installSnapshot at installed
  split at installed
  · cases installed
  split at installed
  · obtain ⟨-, rfl⟩ := Prod.mk.inj (Except.ok.inj installed)
    exact keyed.insert
  split at installed
  · obtain ⟨-, rfl⟩ := Prod.mk.inj (Except.ok.inj installed)
    exact keyed.insert
  split at installed
  · cases installed
  · obtain ⟨-, rfl⟩ := Prod.mk.inj (Except.ok.inj installed)
    exact keyed.agrees (write_agrees _ fun _ => rfl)

/-- The key of a committed candidate is taken. -/
theorem installSnapshot_present (installed : table.installSnapshot registration existing alive = .ok (changed, table')) :
    ∃ entry, table'.lookup registration.key = some entry := by
  unfold installSnapshot at installed
  split at installed
  · cases installed
  split at installed
  · obtain ⟨-, rfl⟩ := Prod.mk.inj (Except.ok.inj installed)
    exact ⟨registration, AList.lookup_insert _⟩
  rename_i old found
  split at installed
  · obtain ⟨-, rfl⟩ := Prod.mk.inj (Except.ok.inj installed)
    exact ⟨registration, AList.lookup_insert _⟩
  split at installed
  · cases installed
  · obtain ⟨-, rfl⟩ := Prod.mk.inj (Except.ok.inj installed)
    unfold write
    rw [found]
    exact ⟨_, AList.lookup_insert _⟩

/-- A registration that does not count as a change found an entry, and leaves
what the table declares, unless it redeclares. -/
theorem installSnapshot_unchanged (keyed : Keyed table)
    (installed : table.installSnapshot registration existing alive = .ok (false, table')) :
    (∃ old, table.lookup registration.key = some old) ∧
      (table.redeclares registration alive = false → Agrees table table') := by
  unfold installSnapshot at installed
  split at installed
  · cases installed
  split at installed
  · cases installed
  rename_i old found
  refine ⟨⟨old, found⟩, fun kept => ?_⟩
  unfold redeclares at kept
  rw [found] at kept
  split at installed
  · rename_i dead
    obtain ⟨unmoved, rfl⟩ := Prod.mk.inj (Except.ok.inj installed)
    have proc : old.proc = registration.proc := by simpa using unmoved
    have contract : old.contract = registration.contract := by
      by_contra differs
      simp [dead, proc, differs] at kept
    refine insert_agrees found ?_
    unfold Registration.declared
    rw [keyed _ _ found, proc, contract]
  split at installed
  · cases installed
  · obtain ⟨-, rfl⟩ := Prod.mk.inj (Except.ok.inj installed)
    exact write_agrees _ fun _ => rfl

end RegistrationTable

end Tables

/-! ## Captured memberships -/

section Books

variable {Doc : Type}

/-- Both books declare the same membership. -/
structure SameMembership (book book' : RegistrationBook Doc) : Prop where
  instances : RegistrationTable.Agrees book.instances book'.instances
  atnagents : RegistrationTable.Agrees book.atnagents book'.atnagents
  ffnagents : RegistrationTable.Agrees book.ffnagents book'.ffnagents
  ffnModelSpecs : book'.ffnModelSpecs = book.ffnModelSpecs

theorem SameMembership.refl (book : RegistrationBook Doc) : SameMembership book book :=
  ⟨.refl _, .refl _, .refl _, rfl⟩

theorem SameMembership.trans {book book' book'' : RegistrationBook Doc} (first : SameMembership book book')
    (second : SameMembership book' book'') : SameMembership book book'' where
  instances := first.instances.trans second.instances
  atnagents := first.atnagents.trans second.atnagents
  ffnagents := first.ffnagents.trans second.ffnagents
  ffnModelSpecs := second.ffnModelSpecs.trans first.ffnModelSpecs

/-- Entries are well kept: under their own keys, and with the Model Specs once an
FfnAgent is registered. -/
structure WellKept (book : RegistrationBook Doc) : Prop where
  instances : RegistrationTable.Keyed book.instances
  atnagents : RegistrationTable.Keyed book.atnagents
  ffnagents : RegistrationTable.Keyed book.ffnagents
  specified : ∀ device registration, book.ffnagents.lookup device = some registration → book.ffnModelSpecs ≠ none

theorem WellKept.same {book book' : RegistrationBook Doc} (kept : WellKept book) (same : SameMembership book book') :
    WellKept book' where
  instances := kept.instances.agrees same.instances
  atnagents := kept.atnagents.agrees same.atnagents
  ffnagents := kept.ffnagents.agrees same.ffnagents
  specified := by
    intro device registration found
    have declared := same.ffnagents device
    unfold RegistrationTable.declaredAt at declared
    rw [found, Option.map_some, Option.map_eq_some_iff] at declared
    obtain ⟨old, earlier, -⟩ := declared
    rw [same.ffnModelSpecs]
    exact kept.specified device old earlier

section Capture

variable {κ C α β γ : Type} [DecidableEq κ]

/-- Lookups of agreeing tables, one after the other, declare the same. -/
theorem mapM_lookup_agrees {table table' : RegistrationTable κ C} (agrees : RegistrationTable.Agrees table table')
    (keys : List κ) :
    (keys.mapM fun key => table.lookup key).map (List.map Registration.declared) =
      (keys.mapM fun key => table'.lookup key).map (List.map Registration.declared) := by
  induction keys with
  | nil => simp
  | cons key rest ih =>
    have here := agrees key
    unfold RegistrationTable.declaredAt at here
    simp only [List.mapM_cons, Option.bind_eq_bind, Option.pure_def]
    cases first : table.lookup key with
    | none =>
      rw [first, Option.map_none, eq_comm, Option.map_eq_none_iff] at here
      simp [here]
    | some entry =>
      rw [first, Option.map_some, eq_comm, Option.map_eq_some_iff] at here
      obtain ⟨entry', first', same⟩ := here
      rw [first']
      simp only [Option.bind_some]
      revert ih
      cases rest.mapM fun key => table.lookup key with
      | none => intro ih; rw [Option.map_none, eq_comm, Option.map_eq_none_iff] at ih; simp [ih]
      | some entries =>
        intro ih
        rw [Option.map_some, eq_comm, Option.map_eq_some_iff] at ih
        obtain ⟨entries', rest', sames⟩ := ih
        simp [rest', same, sames]

/-- The same, entry by entry. -/
theorem mapM_lookup_cases {table table' : RegistrationTable κ C} (agrees : RegistrationTable.Agrees table table')
    (keys : List κ) :
    (keys.mapM (fun key => table.lookup key) = none ∧ keys.mapM (fun key => table'.lookup key) = none) ∨
      ∃ entries entries', keys.mapM (fun key => table.lookup key) = some entries ∧
        keys.mapM (fun key => table'.lookup key) = some entries' ∧
          entries.map Registration.declared = entries'.map Registration.declared := by
  have same := mapM_lookup_agrees agrees keys
  cases first : keys.mapM fun key => table.lookup key with
  | none =>
    rw [first, Option.map_none, eq_comm, Option.map_eq_none_iff] at same
    exact Or.inl ⟨rfl, same⟩
  | some entries =>
    rw [first, Option.map_some, eq_comm, Option.map_eq_some_iff] at same
    obtain ⟨entries', second, declared⟩ := same
    exact Or.inr ⟨entries, entries', rfl, second, declared.symm⟩

omit [DecidableEq κ] in
/-- What is read from declarations is the same for lists that declare the same. -/
theorem map_eq_of_declared {entries entries' : List (Registration κ C)}
    (same : entries.map Registration.declared = entries'.map Registration.declared) (f : κ × ProcUniqId × C → α) :
    (entries.map fun r => f r.declared) = entries'.map fun r => f r.declared := by
  calc (entries.map fun r => f r.declared) = (entries.map Registration.declared).map f := by simp
    _ = (entries'.map Registration.declared).map f := by rw [same]
    _ = entries'.map fun r => f r.declared := by simp

end Capture

namespace FabricMembership

variable [DecidableEq Doc] {book book' : RegistrationBook Doc}

theorem captureInstance_congr (config : Config) (same : SameMembership book book') (modelId : String) :
    captureInstance config book modelId = captureInstance config book' modelId := by
  have ranked (table : RegistrationTable InstanceRankId (InstanceContract Doc)) :
      ((List.range config.atnWorldSize).map fun rank => table.lookup ⟨modelId, rank⟩).mapM id =
        ((List.range config.atnWorldSize).map fun rank => (⟨modelId, rank⟩ : InstanceRankId)).mapM
          fun key => table.lookup key := by
    simp only [List.mapM_map, Function.comp_def, id_eq]
  unfold captureInstance
  simp only [ranked]
  rcases mapM_lookup_cases same.instances ((List.range config.atnWorldSize).map fun rank => ⟨modelId, rank⟩)
    with ⟨first, second⟩ | ⟨entries, entries', first, second, declared⟩
  · rw [first, second]
  · rw [first, second]
    cases entries with
    | nil =>
      obtain rfl : entries' = [] := by simpa using declared.symm
      rfl
    | cons head rest =>
      cases entries' with
      | nil => simp at declared
      | cons head' rest' =>
        have heads : head.declared = head'.declared := (List.cons.inj declared).1
        have tails : rest.map Registration.declared = rest'.map Registration.declared := (List.cons.inj declared).2
        have contract : head.contract = head'.contract := congrArg (fun d => d.2.2) heads
        have profiles : (rest.map fun r => r.contract.ffnProfile) = rest'.map fun r => r.contract.ffnProfile :=
          map_eq_of_declared tails fun d => d.2.2.ffnProfile
        have disagree (profile : Doc) : (rest.any fun r => r.contract.ffnProfile ≠ profile) =
            rest'.any fun r => r.contract.ffnProfile ≠ profile := by
          have read (entries : List (Registration InstanceRankId (InstanceContract Doc))) :
              (entries.any fun r => r.contract.ffnProfile ≠ profile) =
                (entries.map fun r => r.contract.ffnProfile).any fun p => p ≠ profile := by
            rw [List.any_map]
            rfl
          rw [read rest, read rest', profiles]
        have coordinates : ((head :: rest).map fun r => (r.contract.transport.atnTpRank, r.contract.transport.atnDpRank)) =
            (head' :: rest').map fun r => (r.contract.transport.atnTpRank, r.contract.transport.atnDpRank) :=
          map_eq_of_declared declared fun d => (d.2.2.transport.atnTpRank, d.2.2.transport.atnDpRank)
        have owners : ((head :: rest).map fun r => (r.key, r.proc)) = (head' :: rest').map fun r => (r.key, r.proc) :=
          map_eq_of_declared declared fun d => (d.1, d.2.1)
        simp only [contract, disagree, coordinates, owners]

theorem captureInstances_congr (config : Config) (same : SameMembership book book') (models : List String) :
    captureInstances config book models = captureInstances config book' models := by
  induction models with
  | nil => rfl
  | cons modelId rest ih => simp only [captureInstances, captureInstance_congr config same, ih]

/-- Books that declare the same give the same membership. -/
theorem capture_congr (config : Config) (same : SameMembership book book') (revision : Nat) :
    capture config book revision = capture config book' revision := by
  unfold capture
  rw [captureInstances_congr config same, same.ffnModelSpecs]
  rcases mapM_lookup_cases same.atnagents config.atnDevices
    with ⟨first, second⟩ | ⟨atnagents, atnagents', first, second, atnDeclared⟩
  · rw [first, second]
  rw [first, second]
  rcases mapM_lookup_cases same.ffnagents config.ffnDevices
    with ⟨first, second⟩ | ⟨ffnagents, ffnagents', first, second, ffnDeclared⟩
  · rw [first, second]
  rw [first, second]
  have atnEnvironments : (atnagents.map fun r => r.contract.calibrationEnvironment) =
      atnagents'.map fun r => r.contract.calibrationEnvironment :=
    map_eq_of_declared atnDeclared fun d => d.2.2.calibrationEnvironment
  have ffnEnvironments : (ffnagents.map fun r => r.contract.calibrationEnvironment) =
      ffnagents'.map fun r => r.contract.calibrationEnvironment :=
    map_eq_of_declared ffnDeclared fun d => d.2.2.calibrationEnvironment
  have memory : (ffnagents.map fun r => r.contract.deviceFreeMemoryBytes) =
      ffnagents'.map fun r => r.contract.deviceFreeMemoryBytes :=
    map_eq_of_declared ffnDeclared fun d => d.2.2.deviceFreeMemoryBytes
  have execution : (ffnagents.map fun r => r.contract.executionContract) =
      ffnagents'.map fun r => r.contract.executionContract :=
    map_eq_of_declared ffnDeclared fun d => d.2.2.executionContract
  have atnProcs : (atnagents.map fun r => r.proc) = atnagents'.map fun r => r.proc :=
    map_eq_of_declared atnDeclared fun d => d.2.1
  have ffnProcs : (ffnagents.map fun r => r.proc) = ffnagents'.map fun r => r.proc :=
    map_eq_of_declared ffnDeclared fun d => d.2.1
  have counts : atnagents.length + ffnagents.length = atnagents'.length + ffnagents'.length := by
    have atnCount := congrArg List.length atnProcs
    have ffnCount := congrArg List.length ffnProcs
    simp only [List.length_map] at atnCount ffnCount
    omega
  simp only [atnEnvironments, ffnEnvironments, memory, execution, atnProcs, ffnProcs, counts]

end FabricMembership

end Books

end CrossPool.Control
