import CrossPool.Transport.Ownership

/-!
# Drain

A draining block publishes shutdown, looks at its mailbox once more and leaves.
The Instance reads the shutdown flag and publishes in two steps. If the block's
last look falls between them, it sees Staging, leaves, and the request published
afterwards is never answered. If it never does, every published round has been
answered when the block leaves, and no round is published later.
-/

namespace CrossPool.Transport

open CrossPool.Control (ResultCode)
open CrossPool.Lib

/-- The Instance has read the shutdown flag as clear and is about to publish. -/
def KernelPc.publishing {Payload : Type*} : KernelPc Payload → Bool
  | check .publishRequest => true
  | write .publishRequest => true
  | store .publishRequest => true
  | _ => false

/-- The block has published shutdown. -/
def BlockPc.finishing : BlockPc → Bool
  | finishObserve => true
  | finishCloseIdle => true
  | finishReadFailure => true
  | answerCheck (.terminal _) => true
  | answerWrite (.terminal _) => true
  | answerStore (.terminal _) => true
  | converged => true
  | exited => true
  | _ => false

variable {Payload : Type*} {e e' : Endpoint Payload}

/-- What the draining block leaves behind. -/
structure Settled (e : Endpoint Payload) : Prop where
  shutdown : e.block.finishing → e.arena.shutdown
  unpublished : e.block.left → e.arena.mailbox.status ≠ .published
  informed : e.block.left → e.kernel.publishing = false

theorem create_settled (zero : Payload) : Settled (Endpoint.create zero) := by
  constructor <;> simp [Endpoint.create, BlockPc.finishing, BlockPc.left]

theorem finishing_of_left {pc : BlockPc} (left : pc.left) : pc.finishing := by
  cases pc <;> simp [BlockPc.left, BlockPc.finishing] at left ⊢

/-- The kernel comes to publish only by reading the shutdown flag as clear. -/
theorem kernelStep_publishing (stepped : e.kernelStep = some e') (publishing : e'.kernel.publishing) :
    e.kernel.publishing ∨ e.arena.shutdown = false := by
  cases pc : e.kernel with
  | readPublishShutdown failure =>
    simp only [Endpoint.kernelStep, pc] at stepped
    split at stepped <;> cases stepped
    · simp [KernelPc.publishing] at publishing
    · simp_all
  | check move =>
    simp only [Endpoint.kernelStep, pc] at stepped
    split at stepped <;> cases stepped
    · cases move <;> simp_all [KernelPc.publishing]
    · simp [KernelPc.publishing] at publishing
  | write move =>
    simp only [Endpoint.kernelStep, pc] at stepped
    cases stepped
    cases move <;> simp_all [KernelPc.publishing]
  | store move =>
    simp only [Endpoint.kernelStep, pc] at stepped
    cases stepped
    cases move <;> simp [KernelPc.publishing, Endpoint.afterMove] at publishing
  | _ =>
    simp only [Endpoint.kernelStep, pc] at stepped
    (try split at stepped) <;> cases stepped <;> simp [KernelPc.publishing, Endpoint.fail] at publishing

/-- Only the publishing kernel makes a mailbox Published. -/
theorem kernelStep_published (own : Ownership e) (stepped : e.kernelStep = some e')
    (published : e'.arena.mailbox.status = .published) :
    e.arena.mailbox.status = .published ∨ e.kernel.publishing := by
  cases kernelStep_effect own stepped with
  | quiet status _ _ => exact Or.inl (status ▸ published)
  | claim _ after _ _ => simp [after] at published
  | publish pc _ _ _ _ => exact Or.inr (by simp [pc, KernelPc.publishing])
  | consume status _ _ _ => simp [status] at published
  | release _ after _ _ => simp [published] at after
  | abort status _ _ => exact Or.inl (status ▸ published)

theorem afterPoll_finishing (returned : Bool) (site : PollSite) :
    (Endpoint.afterPoll returned site).finishing = false := by
  cases site <;> simp only [Endpoint.afterPoll] <;> split <;> simp [BlockPc.finishing]

section

variable {fabricFailure : Option ResultCode} {draining : Bool}

/-- A block comes to finish its mailbox only by publishing shutdown. -/
theorem blockStep_finishing (stepped : e.blockStep fabricFailure draining = some e') (finishing : e'.block.finishing) :
    e.block.finishing ∨ e'.arena.shutdown := by
  cases pc : e.block with
  | answerCheck answer =>
    simp only [Endpoint.blockStep, pc] at stepped
    split at stepped <;> cases stepped
    · simp [BlockPc.finishing] at finishing
    · cases answer <;> simp_all [BlockPc.finishing]
  | answerWrite answer =>
    simp only [Endpoint.blockStep, pc] at stepped
    cases stepped
    cases answer <;> simp_all [BlockPc.finishing]
  | answerStore answer =>
    cases answer <;> simp only [Endpoint.blockStep, pc] at stepped <;> cases stepped <;>
      simp_all [BlockPc.finishing]
  | requestDrain resume =>
    cases resume <;> simp only [Endpoint.blockStep, pc] at stepped <;> cases stepped <;>
      simp [BlockPc.finishing] at finishing
  | _ =>
    simp only [Endpoint.blockStep, pc] at stepped
    (try split at stepped) <;> (try split at stepped) <;> (try split at stepped) <;> cases stepped <;>
      first
      | exact Or.inl rfl
      | exact Or.inr rfl
      | cases finishing
      | simp [afterPoll_finishing] at finishing

/-- The three ways out of the service loop. -/
theorem blockStep_left (stepped : e.blockStep fabricFailure draining = some e') (left : e'.block.left) :
    (e.block = .finishObserve ∧ e.arena.mailbox.status ≠ .published ∧ e'.arena = e.arena) ∨
      (e.arena.mailbox.status = .idle ∧ e'.arena.mailbox.status = .closed) ∨
      (∃ result, e.block = .answerStore (.terminal result)) ∧ e'.arena.mailbox.status = .evaluated := by
  cases pc : e.block with
  | finishObserve =>
    simp only [Endpoint.blockStep, pc] at stepped
    split at stepped <;> cases stepped <;> first | exact Or.inl ⟨rfl, by assumption, rfl⟩ | cases left
  | finishCloseIdle =>
    simp only [Endpoint.blockStep, pc] at stepped
    split at stepped <;> cases stepped
    · rename_i idle
      exact Or.inr (Or.inl ⟨idle, rfl⟩)
    · cases left
  | answerStore answer =>
    cases answer <;> simp only [Endpoint.blockStep, pc] at stepped <;> cases stepped
    · cases left
    · exact Or.inr (Or.inr ⟨⟨_, rfl⟩, rfl⟩)
  | requestDrain resume =>
    cases resume <;> simp only [Endpoint.blockStep, pc] at stepped <;> cases stepped <;> cases left
  | _ =>
    simp only [Endpoint.blockStep, pc] at stepped
    (try split at stepped) <;> (try split at stepped) <;> (try split at stepped) <;> cases stepped <;>
      first
      | cases left
      | exact absurd (finishing_of_left left) (by simp [afterPoll_finishing])

end

/-! ## Runs whose last look is in time -/

/-- The block does not take its last look at the mailbox while the Instance
stands between its reading of the shutdown flag and the publication. -/
def looksInTime {ι : Type*} (s : State ι Payload) : Event ι Payload → Bool
  | .act i .block => !((s.endpoint i).block = .finishObserve && (s.endpoint i).kernel.publishing)
  | _ => true

theorem kernelStep_settled (own : Ownership e) (settled : Settled e) (stepped : e.kernelStep = some e') :
    Settled e' := by
  have frame := kernelStep_frame stepped
  refine ⟨?_, ?_, ?_⟩
  · rw [frame.block, frame.shutdown]
    exact settled.shutdown
  · intro left published
    rw [frame.block] at left
    rcases kernelStep_published own stepped published with before | publishing
    · exact settled.unpublished left before
    · simp [settled.informed left] at publishing
  · intro left
    rw [frame.block] at left
    by_contra publishing
    rcases kernelStep_publishing stepped (by simpa using publishing) with before | clear
    · simp [settled.informed left] at before
    · simp [settled.shutdown (finishing_of_left left)] at clear

/-- A kernel that is about to publish holds Staging. -/
theorem Ownership.status_of_publishing (own : Ownership e) (publishing : e.kernel.publishing) :
    e.arena.mailbox.status = .staging := by
  apply own.staging
  cases pc : e.kernel <;> simp only [pc, KernelPc.publishing, Bool.false_eq_true] at publishing
  all_goals
    rename_i move
    cases move <;> simp [KernelPc.standing, Move.standing] at publishing ⊢

theorem blockStep_settled {fabricFailure : Option ResultCode} {draining : Bool} (own : Ownership e) (settled : Settled e)
    (looks : e.block = .finishObserve → e.kernel.publishing = false)
    (stepped : e.blockStep fabricFailure draining = some e') : Settled e' := by
  have frame := blockStep_frame stepped
  refine ⟨?_, ?_, ?_⟩
  · intro finishing
    rcases blockStep_finishing stepped finishing with before | shutdown
    · exact frame.shutdown (settled.shutdown before)
    · exact shutdown
  · intro left
    rcases blockStep_left stepped left with ⟨-, unpublished, same⟩ | ⟨-, closed⟩ | ⟨-, evaluated⟩
    · rw [same]
      exact unpublished
    · simp [closed]
    · simp [evaluated]
  · intro left
    rw [frame.kernel]
    rcases blockStep_left stepped left with ⟨pc, -, -⟩ | ⟨idle, -⟩ | ⟨⟨result, pc⟩, -⟩
    · exact looks pc
    · by_contra publishing
      have staging := own.status_of_publishing (by simpa using publishing)
      simp [idle] at staging
    · by_contra publishing
      have staging := own.status_of_publishing (by simpa using publishing)
      have published := own.answering (by simp [pc, BlockPc.answering])
      simp [published] at staging

/-- A step that touches neither the mailbox nor the flags and does not leave. -/
theorem Settled.congr (settled : Settled e) (arena : e'.arena = e.arena)
    (kernel : e'.kernel.publishing → e.kernel.publishing) (finishing : e'.block.finishing → e.block.finishing)
    (left : e'.block.left → e.block.left) : Settled e' where
  shutdown now := by rw [arena]; exact settled.shutdown (finishing now)
  unpublished now := by rw [arena]; exact settled.unpublished (left now)
  informed now := by
    have before := settled.informed (left now)
    cases publishing : e'.kernel.publishing
    · rfl
    · rw [kernel publishing] at before
      exact before

theorem step_settled {layout : ArenaLayout} {fabricFailure : Option ResultCode} {draining : Bool}
    {action : Endpoint.Action Payload} (own : Ownership e) (settled : Settled e)
    (looks : action = .block → e.block = .finishObserve → e.kernel.publishing = false)
    (stepped : e.step layout fabricFailure draining action = some e') : Settled e' := by
  cases Endpoint.step_taken e stepped with
  | kernel stepped => exact kernelStep_settled own settled stepped
  | block stepped => exact blockStep_settled own settled (looks rfl) stepped
  | execute result output pc valid => constructor <;> simp [BlockPc.finishing, BlockPc.left]
  | reject result output pc => constructor <;> simp [BlockPc.finishing, BlockPc.left]
  | expire wait failed => exact settled.congr rfl (by simp [Endpoint.fail, KernelPc.publishing]) id id
  | abort wait unset => exact settled.congr rfl (by simp [KernelPc.publishing]) id id
  | attach idle => exact settled.congr rfl id id id
  | launch request attached resting submits => exact settled.congr rfl (by simp [KernelPc.publishing]) id id
  | start pc => exact settled.congr rfl id (by simp [BlockPc.finishing]) (by simp [BlockPc.left])
  | exit pc => exact settled.congr rfl id (by simp [pc, BlockPc.finishing]) (by simp [pc, BlockPc.left])

section Runs

variable {ι : Type*} [DecidableEq ι] [Fintype ι] {layout : ι → ArenaLayout} {s t : State ι Payload}

theorem reachable_settled (reached : (transport layout).ReachableUnder (fun s event => looksInTime s event) s) (i : ι) :
    Settled (s.endpoint i) := by
  refine (endpoint_invariant (fun _ _ _ e => Ownership e ∧ Settled e)
    (fun _ zero => ⟨create_ownership zero, create_settled zero⟩) ?_ (fun _ _ _ kept => kept)
    (fun _ _ _ _ _ kept => kept) reached i).2
  intro s i action e meets kept stepped
  refine ⟨step_ownership kept.1 stepped, step_settled kept.1 kept.2 ?_ stepped⟩
  intro block observes
  simpa [looksInTime, block, observes] using meets

/-- A block that has left takes no further step of its own. -/
theorem step_left {layout : ArenaLayout} {fabricFailure : Option ResultCode} {draining : Bool}
    {action : Endpoint.Action Payload} (stepped : e.step layout fabricFailure draining action = some e')
    (left : e.block.left) : e'.block.left ∧ e'.answered = e.answered := by
  cases Endpoint.step_taken e stepped with
  | kernel stepped =>
    have frame := kernelStep_frame stepped
    exact ⟨frame.block ▸ left, frame.answered⟩
  | block stepped =>
    cases pc : e.block <;> simp [pc, BlockPc.left] at left <;> simp [Endpoint.blockStep, pc] at stepped
  | execute result output pc valid => simp [pc, BlockPc.left] at left
  | reject result output pc => simp [pc, BlockPc.left] at left
  | start pc => simp [pc, BlockPc.left] at left
  | exit pc => exact ⟨rfl, rfl⟩
  | expire wait failed => exact ⟨left, rfl⟩
  | abort wait unset => exact ⟨left, rfl⟩
  | attach idle => exact ⟨left, rfl⟩
  | launch request attached resting submits => exact ⟨left, rfl⟩

/-- Once its block has left, an endpoint's answers stay as they are. -/
def Departed (i : ι) (s t : State ι Payload) : Prop :=
  (s.endpoint i).block.left → (t.endpoint i).block.left ∧ (t.endpoint i).answered = (s.endpoint i).answered

theorem later_departed {guard : State ι Payload → Event ι Payload → Prop}
    (reached : (transport layout).ReachableUnder guard s) (later : (transport layout).LaterUnder guard s t) (i : ι) :
    Departed i s t := by
  refine System.LaterUnder.relation ?_ ?_ ?_ reached later
  · intro s left
    exact ⟨left, rfl⟩
  · intro s t u first second left
    obtain ⟨left', answered⟩ := first left
    obtain ⟨left'', answered'⟩ := second left'
    exact ⟨left'', answered'.trans answered⟩
  · intro s event t _ taken left
    rcases step_endpoint taken i with same | ⟨action, -, stepped⟩
    · rw [same]
      exact ⟨left, rfl⟩
    · exact step_left stepped left

/-- In a run whose last looks are in time, every round published at an endpoint
was answered before its block left, and none is published afterwards: the
Instance sees the shutdown flag first. -/
theorem left_stays_answered (reached : (transport layout).ReachableUnder (fun s event => looksInTime s event) s) {i : ι}
    (left : (s.endpoint i).block.left)
    (later : (transport layout).LaterUnder (fun s event => looksInTime s event) s t) :
    (t.endpoint i).arena.mailbox.status ≠ .published ∧ (t.endpoint i).published = (s.endpoint i).answered ∧
      (t.endpoint i).kernel.publishing = false ∧ (t.endpoint i).arena.shutdown := by
  obtain ⟨left', answered⟩ := later_departed reached later i left
  have reached' := later.reachable reached
  have settled := reachable_settled reached' i
  have rounds := (reachable_ownership reached' i).rounds
  have unpublished := settled.unpublished left'
  rw [if_neg unpublished] at rounds
  exact ⟨unpublished, by omega, settled.informed left', settled.shutdown (finishing_of_left left')⟩

/-- A publishing kernel needs nobody else to publish. -/
theorem kernelSteps_publishing (own : Ownership e) {arena : ArenaLayout} (staged : Staged arena e)
    (publishing : e.kernel.publishing) :
    ∃ n e', Endpoint.kernelSteps n e = some e' ∧ e'.block = e.block ∧ e'.arena.mailbox.status = .published := by
  have stored {e : Endpoint Payload} (pc : e.kernel = .store .publishRequest) :
      ∃ n e', Endpoint.kernelSteps n e = some e' ∧ e'.block = e.block ∧ e'.arena.mailbox.status = .published := by
    refine ⟨1, { e.setStatus .published with
      kernel := .wait
      published := e.published + 1 }, ?_, rfl, rfl⟩
    simp [Endpoint.kernelSteps, Endpoint.kernelStep, pc, Move.target, Endpoint.afterMove]
  have written {e : Endpoint Payload} (pc : e.kernel = .write .publishRequest) :
      ∃ n e', Endpoint.kernelSteps n e = some e' ∧ e'.block = e.block ∧ e'.arena.mailbox.status = .published := by
    obtain ⟨n, e', runs, block, published⟩ := stored (e := { e with kernel := .store .publishRequest }) rfl
    refine ⟨n + 1, e', ?_, block, published⟩
    simpa [Endpoint.kernelSteps, Endpoint.kernelStep, pc, Move.fields] using runs
  have status := own.status_of_publishing publishing
  cases pc : e.kernel with
  | check move =>
    cases move <;> simp only [pc, KernelPc.publishing, Bool.false_eq_true] at publishing
    obtain ⟨rows, request⟩ := staged.filled (by simp [pc, KernelPc.filled])
    obtain ⟨n, e', runs, block, published⟩ := written (e := { e with kernel := .write .publishRequest }) rfl
    refine ⟨n + 1, e', ?_, block, published⟩
    simpa [Endpoint.kernelSteps, Endpoint.kernelStep, pc, Move.permits, Move.expects, status, rows, request] using runs
  | write move =>
    cases move <;> simp only [pc, KernelPc.publishing, Bool.false_eq_true] at publishing
    exact written pc
  | store move =>
    cases move <;> simp only [pc, KernelPc.publishing, Bool.false_eq_true] at publishing
    exact stored pc
  | _ => simp [pc, KernelPc.publishing] at publishing

/-- A last look that is not in time strands the request. -/
theorem late_look_strands (reached : (transport layout).Reachable s) {i : ι} (last : (s.endpoint i).block = .finishObserve)
    (publishing : (s.endpoint i).kernel.publishing) :
    ∃ t, (transport layout).Later s t ∧ (t.endpoint i).block.left ∧ (t.endpoint i).arena.mailbox.status = .published := by
  have status := (reachable_ownership reached i).status_of_publishing publishing
  have leaves : (s.endpoint i).step (layout i) s.fabricFailure s.draining .block =
      some { s.endpoint i with block := .converged } := by
    simp only [Endpoint.step, Endpoint.blockStep, last, status]
  obtain ⟨t, first, endpoint⟩ := later_act layout .block rfl leaves
  have reached' := first.reachable reached
  have publishing' : (t.endpoint i).kernel.publishing := by
    rw [endpoint]
    exact publishing
  obtain ⟨n, e, runs, block, published⟩ :=
    kernelSteps_publishing (reachable_ownership reached' i) (reachable_staged reached' i) publishing'
  obtain ⟨u, second, endpoint'⟩ := later_kernelSteps layout runs
  refine ⟨u, first.trans second, ?_, ?_⟩
  · rw [endpoint', block, endpoint]
    rfl
  · rw [endpoint', published]

end Runs

/-- Where no block takes its last look between an Instance's reading of the
shutdown flag and its publication, every round is answered before the block
leaves and none is published later. Such a look strands the request, from every
reachable state. -/
theorem no_stranded_request {ι : Type*} [DecidableEq ι] [Fintype ι] (layout : ι → ArenaLayout) (s : State ι Payload)
    (i : ι) :
    ((transport layout).ReachableUnder (fun s event => looksInTime s event) s → (s.endpoint i).block.left →
      ∀ t, (transport layout).LaterUnder (fun s event => looksInTime s event) s t →
        (t.endpoint i).arena.mailbox.status ≠ .published ∧ (t.endpoint i).published = (s.endpoint i).answered ∧
          (t.endpoint i).kernel.publishing = false ∧ (t.endpoint i).arena.shutdown) ∧
    ((transport layout).Reachable s → looksInTime s (.act i .block) = false →
      ∃ t, (transport layout).Later s t ∧ (t.endpoint i).block.left ∧
        (t.endpoint i).arena.mailbox.status = .published) := by
  refine ⟨?_, ?_⟩
  · intro reached left t later
    exact left_stays_answered reached left later
  · intro reached late
    simp only [looksInTime, Bool.not_eq_eq_eq_not, Bool.not_false, Bool.and_eq_true, decide_eq_true_eq] at late
    exact late_look_strands reached late.1 late.2

/-! ## One request and one drain, in two orders -/

/-- A decode request of one row. -/
def oneRow : Request Unit :=
  ⟨(), 1, [], ⟨0, .decode, .perRankComplete, .none⟩⟩

/-- An arena of one row and DP size one. -/
def oneRowLayout : ArenaLayout :=
  ⟨1, 1, Nat.one_pos⟩

def created : State Unit Unit :=
  ⟨fun _ => Endpoint.create (), false, none⟩

/-- The Resident opens its mailbox and the Instance attaches. -/
def attachment : List (Event Unit Unit) :=
  [.act () .block, .act () .block, .act () .startBarrier, .act () .attach]

/-- The Instance launches a request and runs `n` steps of its kernel. -/
def request (n : Nat) : List (Event Unit Unit) :=
  .act () (.launch oneRow) :: List.replicate n (.act () .kernel)

/-- Drain is requested; the block samples it, publishes shutdown, takes its last
look and leaves. -/
def departure : List (Event Unit Unit) :=
  .drain :: List.replicate 5 (.act () .block) ++ [.act () .exitBarrier]

/-- The steps of a run whose last looks are in time. -/
def timelyNext (s : State Unit Unit) (event : Event Unit Unit) : Option (State Unit Unit) :=
  if looksInTime s event then s.next (fun _ => oneRowLayout) event else none

/-- A request in Staging when the block takes its last look is closed by its own
kernel, which has yet to read the shutdown flag. -/
theorem no_stranded_request_timely :
    ∃ s : State Unit Unit, (transport fun _ => oneRowLayout).ReachableUnder (fun s event => looksInTime s event) s ∧
      (s.endpoint ()).block.left ∧ (s.endpoint ()).arena.mailbox.status ≠ .published ∧
      (s.endpoint ()).published = (s.endpoint ()).answered := by
  have agrees (s : State Unit Unit) (event : Event Unit Unit) (t : State Unit Unit)
      (taken : timelyNext s event = some t) :
      looksInTime s event ∧ (transport fun _ => oneRowLayout).step s event t := by
    unfold timelyNext at taken
    split at taken
    · exact ⟨by assumption, taken⟩
    · cases taken
  have start : (transport fun _ => oneRowLayout).ReachableUnder (fun s event => looksInTime s event) created :=
    .start ⟨rfl, rfl, (), rfl⟩
  obtain ⟨s, reached, left⟩ := start.run timelyNext agrees (attachment ++ request 7 ++ departure)
    (fun s => (s.endpoint ()).block.left) (by decide)
  obtain ⟨unpublished, answered, -, -⟩ :=
    (no_stranded_request (fun _ => oneRowLayout) s ()).1 reached left s (.refl s)
  exact ⟨s, reached, left, unpublished, answered⟩

theorem stranded_after_exit :
    ∃ s : State Unit Unit, (transport fun _ => oneRowLayout).Reachable s ∧
      (s.endpoint ()).block = .exited ∧ (s.endpoint ()).arena.mailbox.status = .published ∧
      (s.endpoint ()).published = 1 ∧ (s.endpoint ()).answered = 0 := by
  have start : (transport fun _ => oneRowLayout).Reachable created := .start ⟨rfl, rfl, (), rfl⟩
  obtain ⟨s, reached, stranded⟩ := start.run (State.next fun _ => oneRowLayout)
    (fun _ _ _ taken => ⟨trivial, taken⟩)
    (attachment ++ request 8 ++ departure ++ List.replicate 3 (.act () .kernel))
    (fun s => (s.endpoint ()).block = .exited && (s.endpoint ()).arena.mailbox.status = .published &&
      (s.endpoint ()).published = 1 && (s.endpoint ()).answered = 0) (by decide)
  simp only [Bool.and_eq_true, decide_eq_true_eq] at stranded
  obtain ⟨⟨⟨exited, published⟩, one⟩, none⟩ := stranded
  exact ⟨s, reached, exited, published, one, none⟩

end CrossPool.Transport
