import Mathlib.Data.List.Nodup
import Mathlib.Data.Nat.ModEq
import Mathlib.Order.Monotone.Basic
import Mathlib.Tactic.Ring

/-!
# Dividing work

Workers that split a range by its bounds cover it once; threads that stride over a
range cover it; writes that agree wherever they meet may land in any order.
-/

namespace CrossPool.Lib

/-! ## Tiles -/

section Tiles

variable {bound : Nat → Nat} {n x : Nat}

/-- Consecutive ranges of a monotone bound hold each point of the whole once. -/
theorem count_tiles (mono : Monotone bound) :
    (List.range n).countP (fun tile => bound tile ≤ x ∧ x < bound (tile + 1)) =
      if bound 0 ≤ x ∧ x < bound n then 1 else 0 := by
  induction n with
  | zero =>
    have empty : ¬(bound 0 ≤ x ∧ x < bound 0) := by omega
    simp [empty]
  | succ n ih =>
    have first : bound 0 ≤ bound n := mono (Nat.zero_le n)
    have last : bound n ≤ bound (n + 1) := mono (Nat.le_succ n)
    rw [List.range_succ, List.countP_append, ih, List.countP_singleton]
    by_cases low : bound 0 ≤ x
    · by_cases before : x < bound n
      · have here : ¬(bound n ≤ x ∧ x < bound (n + 1)) := by omega
        have whole : x < bound (n + 1) := by omega
        simp [low, before, whole]
      · by_cases whole : x < bound (n + 1)
        · have reached : bound n ≤ x := by omega
          simp [low, before, whole, reached]
        · simp [before, whole]
    · have here : ¬(bound n ≤ x ∧ x < bound (n + 1)) := by omega
      simp [low, here]

end Tiles

/-- Where the share of a worker begins when a remainder goes to the first workers. -/
def shareBegin (total workers worker : Nat) : Nat :=
  worker * (total / workers) + min worker (total % workers)

section Shares

variable {total workers worker : Nat}

theorem shareBegin_zero : shareBegin total workers 0 = 0 := by
  simp [shareBegin]

theorem shareBegin_succ :
    shareBegin total workers (worker + 1) =
      shareBegin total workers worker + (total / workers + if worker < total % workers then 1 else 0) := by
  simp only [shareBegin, Nat.succ_mul]
  split <;> omega

theorem shareBegin_workers (some : 0 < workers) : shareBegin total workers workers = total := by
  have rest : total % workers < workers := Nat.mod_lt _ some
  have whole := Nat.div_add_mod total workers
  simp only [shareBegin, Nat.min_eq_right (Nat.le_of_lt rest)]
  omega

theorem shareBegin_mono : Monotone (shareBegin total workers) := by
  apply monotone_nat_of_le_succ
  intro worker
  rw [shareBegin_succ]
  exact Nat.le_add_right _ _

/-- A worker has no share only where there is less to share than workers. -/
theorem share_pos_iff (some : 0 < workers) (member : worker < workers) :
    0 < total / workers + (if worker < total % workers then 1 else 0) ↔ worker < min total workers := by
  by_cases few : total < workers
  · rw [Nat.div_eq_of_lt few, Nat.mod_eq_of_lt few]
    split <;> omega
  · have base : 0 < total / workers := Nat.div_pos (by omega) some
    omega

end Shares

/-- Where the part of a block begins when a range is cut in even parts. -/
def cutBegin (total blocks block : Nat) : Nat :=
  total * block / blocks

section Cuts

variable {total blocks block : Nat}

theorem cutBegin_zero : cutBegin total blocks 0 = 0 := by
  simp [cutBegin]

theorem cutBegin_blocks (some : 0 < blocks) : cutBegin total blocks blocks = total := by
  rw [cutBegin, Nat.mul_div_cancel _ some]

theorem cutBegin_mono : Monotone (cutBegin total blocks) := by
  intro first second le
  exact Nat.div_le_div_right (Nat.mul_le_mul_left total le)

end Cuts

/-- Where each part holds a point as often as its worker is picked, so does the whole. -/
theorem countP_flatMap_of {α β : Type*} {part : α → List β} {holds : β → Bool} {picked : α → Prop} [DecidablePred picked]
    (workers : List α) (each : ∀ worker ∈ workers, (part worker).countP holds = if picked worker then 1 else 0) :
    (workers.flatMap part).countP holds = workers.countP fun worker => picked worker := by
  induction workers with
  | nil => rfl
  | cons worker rest ih =>
    rw [List.flatMap_cons, List.countP_append, each worker List.mem_cons_self,
      ih fun other member => each other (List.mem_cons_of_mem _ member), List.countP_cons]
    by_cases here : picked worker
    · simp [here, Nat.add_comm]
    · simp [here]

/-- Parts that all come about make up the whole. -/
theorem mapM_flatten {α β : Type*} {make : α → Option (List β)} {part : α → List β} (workers : List α)
    (made : ∀ worker ∈ workers, make worker = some (part worker)) :
    (workers.mapM make).map List.flatten = some (workers.flatMap part) := by
  have each : workers.mapM make = some (workers.map part) := by
    induction workers with
    | nil => rfl
    | cons worker rest ih =>
      rw [List.mapM_cons, made worker List.mem_cons_self, ih fun other member => made other (List.mem_cons_of_mem _ member)]
      rfl
  rw [each, List.flatMap_def]
  rfl

/-! ## Strides -/

/-- The indices of a loop that strides. -/
def strided (step stop index : Nat) : List Nat :=
  if 0 < step ∧ index < stop then index :: strided step stop (index + step) else []
termination_by stop - index

section Strides

variable {step stop first i threads lanes : Nat}

theorem mem_strided (some : 0 < step) :
    i ∈ strided step stop first ↔ ∃ turn, i = first + turn * step ∧ i < stop := by
  induction first using strided.induct step stop with
  | case1 first inside ih =>
    rw [strided, if_pos inside, List.mem_cons, ih]
    constructor
    · rintro (rfl | ⟨turn, rfl, bound⟩)
      · exact ⟨0, by omega, inside.2⟩
      · exact ⟨turn + 1, by rw [Nat.succ_mul]; omega, bound⟩
    · rintro ⟨turn, rfl, bound⟩
      cases turn with
      | zero =>
        left
        omega
      | succ turn =>
        right
        exact ⟨turn, by rw [Nat.succ_mul]; omega, bound⟩
  | case2 first outside =>
    rw [strided, if_neg outside]
    constructor
    · intro member
      cases member
    · rintro ⟨turn, rfl, bound⟩
      exact absurd ⟨some, by omega⟩ outside

/-- Threads that stride by their number over steps of `lanes` cover a whole number of steps. -/
theorem exists_strided (some : 0 < threads) (wide : 0 < lanes) (whole : lanes ∣ stop - first) :
    (∃ thread < threads, ∃ index ∈ strided (threads * lanes) stop (first + thread * lanes),
        index ≤ i ∧ i < index + lanes) ↔ first ≤ i ∧ i < stop := by
  have stride : 0 < threads * lanes := Nat.mul_pos some wide
  obtain ⟨steps, whole⟩ := whole
  constructor
  · rintro ⟨thread, -, index, member, low, high⟩
    obtain ⟨turn, rfl, bound⟩ := (mem_strided stride).mp member
    refine ⟨by omega, ?_⟩
    -- the step that is begun ends within the range, since the range is a whole number of steps
    have position : first + thread * lanes + turn * (threads * lanes) = first + lanes * (thread + turn * threads) := by
      ring
    rw [position] at bound high
    have begun : lanes * (thread + turn * threads) < lanes * steps := by omega
    have ended : lanes * (thread + turn * threads + 1) ≤ lanes * steps :=
      Nat.mul_le_mul_left lanes (Nat.lt_of_mul_lt_mul_left begun)
    rw [Nat.mul_succ] at ended
    omega
  · rintro ⟨low, high⟩
    have split := Nat.div_add_mod (i - first) lanes
    have inner := Nat.mod_lt (i - first) wide
    have turns := Nat.div_add_mod ((i - first) / lanes) threads
    refine ⟨(i - first) / lanes % threads, Nat.mod_lt _ some, first + lanes * ((i - first) / lanes), ?_, by omega, by omega⟩
    refine (mem_strided stride).mpr ⟨(i - first) / lanes / threads, ?_, by omega⟩
    calc
      first + lanes * ((i - first) / lanes) =
          first + lanes * (threads * ((i - first) / lanes / threads) + (i - first) / lanes % threads) := by rw [turns]
      _ = first + (i - first) / lanes % threads * lanes + (i - first) / lanes / threads * (threads * lanes) := by ring

/-- The same, one index at a time. -/
theorem exists_strided_one (some : 0 < threads) :
    (∃ thread < threads, i ∈ strided threads stop (first + thread)) ↔ first ≤ i ∧ i < stop := by
  have single :
      (∃ thread < threads, ∃ index ∈ strided (threads * 1) stop (first + thread * 1), index ≤ i ∧ i < index + 1) ↔
        first ≤ i ∧ i < stop :=
    exists_strided some Nat.zero_lt_one (one_dvd _)
  simp only [Nat.mul_one] at single
  rw [← single]
  constructor
  · rintro ⟨thread, bound, member⟩
    exact ⟨thread, bound, i, member, by omega, by omega⟩
  · rintro ⟨thread, bound, index, member, low, high⟩
    obtain rfl : index = i := by omega
    exact ⟨thread, bound, member⟩

/-- A stride passes each index of its class once. -/
theorem count_strided (some : 0 < step) :
    (strided step stop first).count i = if first ≤ i ∧ i < stop ∧ (i - first) % step = 0 then 1 else 0 := by
  induction first using strided.induct step stop with
  | case1 first inside ih =>
    rw [strided, if_pos inside, List.count_cons, ih]
    by_cases here : first = i
    · have low : i < stop := by omega
      simp [here, low, some.ne']
    · have beq : (first == i) = false := by simpa using here
      rw [beq]
      by_cases later : first + step ≤ i
      · have same : (i - (first + step)) % step = (i - first) % step := by
          rw [← Nat.add_mod_right (i - (first + step)) step]
          congr 1
          omega
        have low : first ≤ i := by omega
        simp [same, later, low]
      · have missed : ¬(first ≤ i ∧ i < stop ∧ (i - first) % step = 0) := by
          rintro ⟨low, -, turn⟩
          rw [Nat.mod_eq_of_lt (by omega)] at turn
          omega
        simp [later, missed]
  | case2 first outside =>
    have missed : ¬(first ≤ i ∧ i < stop ∧ (i - first) % step = 0) := by
      rintro ⟨low, high, -⟩
      exact outside ⟨some, by omega⟩
    rw [strided, if_neg outside, if_neg missed, List.count_nil]

/-- A chunk has each of its indices once. -/
theorem count_chunk {index : Nat} :
    ((List.range lanes).map fun lane => index + lane).count i = if index ≤ i ∧ i < index + lanes then 1 else 0 := by
  have shifted : ((List.range lanes).map fun lane => index + lane) = List.range' index lanes := by
    rw [List.range_eq_range', List.map_add_range', Nat.add_zero]
  rw [shifted]
  by_cases inside : index ≤ i ∧ i < index + lanes
  · rw [if_pos inside, List.count_eq_one_of_mem List.nodup_range' (List.mem_range'_1.mpr inside)]
  · rw [if_neg inside, List.count_eq_zero_of_not_mem fun member => inside (List.mem_range'_1.mp member)]

/-- The chunks of one thread have an index once where the thread's turn comes to it. -/
theorem count_thread (some : 0 < threads) (wide : 0 < lanes) (whole : lanes ∣ stop - first) {thread : Nat}
    (member : thread < threads) :
    ((strided (threads * lanes) stop (first + thread * lanes)).flatMap fun index =>
      (List.range lanes).map fun lane => index + lane).count i =
      if first ≤ i ∧ i < stop ∧ (i - first) / lanes % threads = thread then 1 else 0 := by
  have stride : 0 < threads * lanes := Nat.mul_pos some wide
  have split := Nat.div_add_mod (i - first) lanes
  have inner := Nat.mod_lt (i - first) wide
  rw [List.count_eq_countP, @countP_flatMap_of _ _ _ _ (fun index => index ≤ i ∧ i < index + lanes) _ _ ?_]
  · -- of the chunks of this thread, only one can begin where the index's own does
    have owned : ∀ index ∈ strided (threads * lanes) stop (first + thread * lanes),
        decide (index ≤ i ∧ i < index + lanes) = true ↔
          (decide (first ≤ i) && index == first + lanes * ((i - first) / lanes)) = true := by
      intro index listed
      obtain ⟨turn, rfl, -⟩ := (mem_strided stride).mp listed
      have position : first + thread * lanes + turn * (threads * lanes) = first + lanes * (thread + turn * threads) := by
        ring
      rw [position, decide_eq_true_eq, Bool.and_eq_true, beq_iff_eq, decide_eq_true_eq]
      constructor
      · rintro ⟨low, high⟩
        have quotient : (i - first) / lanes = thread + turn * threads := by
          apply Nat.div_eq_of_lt_le
          · rw [Nat.mul_comm]
            omega
          · rw [Nat.add_mul, Nat.one_mul, Nat.mul_comm]
            omega
        rw [quotient]
        exact ⟨by omega, rfl⟩
      · rintro ⟨low, same⟩
        omega
    rw [List.countP_congr owned]
    by_cases low : first ≤ i
    · have counted : (strided (threads * lanes) stop (first + thread * lanes)).countP
          (fun index => decide (first ≤ i) && index == first + lanes * ((i - first) / lanes)) =
          (strided (threads * lanes) stop (first + thread * lanes)).count (first + lanes * ((i - first) / lanes)) := by
        simp [low, List.count]
      rw [counted, count_strided stride]
      apply if_congr ?_ rfl rfl
      obtain ⟨steps, whole⟩ := whole
      generalize (i - first) / lanes = turn at split
      have begins : first + lanes * turn < stop ↔ i < stop := by
        constructor
        · intro before
          have begun : lanes * turn < lanes * steps := by omega
          have ended : lanes * (turn + 1) ≤ lanes * steps := Nat.mul_le_mul_left lanes (Nat.lt_of_mul_lt_mul_left begun)
          rw [Nat.mul_succ] at ended
          omega
        · omega
      have reaches : first + thread * lanes ≤ first + lanes * turn ↔ thread ≤ turn := by
        rw [Nat.mul_comm thread, Nat.add_le_add_iff_left, Nat.mul_le_mul_left_iff wide]
      have distance : first + lanes * turn - (first + thread * lanes) = (turn - thread) * lanes := by
        rw [Nat.add_sub_add_left, Nat.mul_comm lanes, Nat.sub_mul]
      rw [begins, reaches, distance, Nat.mul_mod_mul_right, Nat.mul_eq_zero, or_iff_left wide.ne']
      constructor
      · rintro ⟨before, after, multiple⟩
        refine ⟨low, after, ?_⟩
        have again : (turn - thread + thread) % threads = thread % threads := by
          rw [Nat.add_mod, multiple, Nat.zero_add, Nat.mod_mod]
        rwa [Nat.sub_add_cancel before, Nat.mod_eq_of_lt member] at again
      · rintro ⟨-, after, rfl⟩
        exact ⟨Nat.mod_le _ _, after, Nat.mod_eq_zero_of_dvd (Nat.dvd_sub_mod turn)⟩
    · simp [low]
  · intro index _
    rw [← List.count_eq_countP]
    exact count_chunk

/-- Threads that stride over a range of chunks pass each index of the chunks once. -/
theorem count_strides (some : 0 < threads) (wide : 0 < lanes) (whole : lanes ∣ stop - first) :
    ((List.range threads).flatMap fun thread =>
      (strided (threads * lanes) stop (first + thread * lanes)).flatMap fun index =>
        (List.range lanes).map fun lane => index + lane).count i = if first ≤ i ∧ i < stop then 1 else 0 := by
  rw [List.count_eq_countP, @countP_flatMap_of _ _ _ _
    (fun thread => first ≤ i ∧ i < stop ∧ (i - first) / lanes % threads = thread) _ _ ?_]
  · by_cases inside : first ≤ i ∧ i < stop
    · rw [if_pos inside]
      have turn : (i - first) / lanes % threads < threads := Nat.mod_lt _ some
      have counted := List.count_eq_one_of_mem List.nodup_range (List.mem_range.mpr turn)
      rw [← counted, List.count_eq_countP]
      apply List.countP_congr
      intro thread _
      rw [decide_eq_true_eq, beq_iff_eq]
      exact ⟨fun held => held.2.2.symm, fun same => ⟨inside.1, inside.2, same.symm⟩⟩
    · rw [if_neg inside, List.countP_eq_zero]
      intro thread _ held
      rw [decide_eq_true_eq] at held
      exact inside ⟨held.1, held.2.1⟩
  · intro thread member
    rw [← List.count_eq_countP]
    exact count_thread some wide whole (List.mem_range.mp member)

/-- The same, one index at a time. -/
theorem count_strides_one (some : 0 < threads) :
    ((List.range threads).flatMap fun thread => strided threads stop (first + thread)).count i =
      if first ≤ i ∧ i < stop then 1 else 0 := by
  rw [← count_strides some Nat.zero_lt_one (one_dvd _)]
  simp

/-- Workers that do one thing after another count what is done of each. -/
theorem countP_flatMap_append {α β : Type*} {holds : β → Bool} {f g : α → List β} (workers : List α) :
    (workers.flatMap fun worker => f worker ++ g worker).countP holds =
      (workers.flatMap f).countP holds + (workers.flatMap g).countP holds := by
  induction workers with
  | nil => rfl
  | cons worker rest ih =>
    simp only [List.flatMap_cons, List.countP_append, ih]
    omega

end Strides

/-! ## Scattered writes -/

section Scatter

variable {ι α : Type*} [DecidableEq ι] {memory : ι → α} {writes : List (ι × α)} {place : ι} {value : α}

/-- Memory after writes that land in the order of the list. -/
def scatter (memory : ι → α) (writes : List (ι × α)) : ι → α :=
  writes.foldl (fun memory write => Function.update memory write.1 write.2) memory

theorem scatter_untouched (elsewhere : ∀ write ∈ writes, write.1 ≠ place) : scatter memory writes place = memory place := by
  induction writes generalizing memory with
  | nil => rfl
  | cons write rest ih =>
    have ne := elsewhere write List.mem_cons_self
    have later : scatter (Function.update memory write.1 write.2) rest place = Function.update memory write.1 write.2 place :=
      ih fun other member => elsewhere other (List.mem_cons_of_mem _ member)
    rw [scatter, List.foldl_cons, ← scatter, later, Function.update_of_ne ne.symm]

/-- Where all writes to a place agree, the last of them does. -/
theorem scatter_written (agree : ∀ write ∈ writes, write.1 = place → write.2 = value)
    (written : ∃ write ∈ writes, write.1 = place) : scatter memory writes place = value := by
  induction writes generalizing memory with
  | nil =>
    obtain ⟨write, member, -⟩ := written
    cases member
  | cons write rest ih =>
    rw [scatter, List.foldl_cons, ← scatter]
    by_cases later : ∃ other ∈ rest, other.1 = place
    · exact ih (fun other member => agree other (List.mem_cons_of_mem _ member)) later
    · rw [scatter_untouched fun other member same => later ⟨other, member, same⟩]
      obtain ⟨other, member, same⟩ := written
      rcases List.mem_cons.mp member with rfl | tail
      · rw [← same, Function.update_self]
        exact agree other List.mem_cons_self same
      · exact absurd ⟨other, tail, same⟩ later

end Scatter

end CrossPool.Lib
