import EquantOS.Proc.Apart
import EquantOS.Proc.Signals

/-!
# Waking futex waiters

`FUTEX_WAKE` of `sys_futex_handler` takes the first tasks of the task list that have the address on
record.  It looks neither at their address space nor at their state, and takes one even if asked for
none.
-/

open List

namespace Kernel

open Sched Function

def efault : ℤ := -14

/-- The loop of `FUTEX_WAKE`, with the number of tasks found. -/
def wakeLoop (uaddr val : ℕ) : ℕ → List Tid → Kernel → ℕ × Kernel
  | woken, [], k => (woken, k)
  | woken, t :: tasks, k =>
    if k.futexAddr t = uaddr then
      let k := k.setFutexAddr t 0
      let k :=
        if k.state t = .blocked ∨ k.state t = .sleeping then k.withSched (k.unblock t) else k
      if val ≤ woken + 1 then (woken + 1, k) else wakeLoop uaddr val (woken + 1) tasks k
    else wakeLoop uaddr val woken tasks k

/-- `sys_futex_handler`, `FUTEX_WAKE`, with what it returns. -/
def sysFutexWake (k : Kernel) (uaddr val : ℕ) : ℤ × Kernel :=
  if uaddr = 0 then (efault, k)
  else
    let r := wakeLoop uaddr val 0 k.taskList k
    (r.1, r.2)

variable {k k' : Kernel} {t : Tid} {uaddr val woken : ℕ}

lemma snd_wakeLoop (uaddr val : ℕ) : ∀ (woken : ℕ) (tasks : List Tid) (k : Kernel),
    (wakeLoop uaddr val woken tasks k).2 = futexWakeLoop uaddr val woken tasks k
  | _, [], _ => rfl
  | woken, t :: tasks, k => by
    rw [wakeLoop, futexWakeLoop]
    simp only [apply_ite Prod.snd, snd_wakeLoop uaddr val _ tasks]

/-- The effect is that of the call as the other operations of the kernel see it. -/
lemma snd_sysFutexWake (k : Kernel) (uaddr val : ℕ) : (k.sysFutexWake uaddr val).2 = k.futexWake uaddr val
  := by
  rw [sysFutexWake, futexWake, apply_ite Prod.snd, snd_wakeLoop]

/-! ### What is asked for -/

/-- The task is blocked or asleep. -/
def parked (k : Kernel) (t : Tid) : Bool := k.state t == .blocked || k.state t == .sleeping

/-- The tasks with the address on record. -/
def recorded (k : Kernel) (uaddr : ℕ) : List Tid :=
  k.taskList.filter fun t => k.futexAddr t == uaddr

/-- The address space of a task. -/
def space (k : Kernel) (t : Tid) : Option ℕ := (k.processOf t).map Process.cr3

/-- The task waits on the address in the address space of the caller. -/
def waitsOn (k : Kernel) (uaddr : ℕ) (t : Tid) : Bool :=
  k.futexAddr t == uaddr && k.parked t && k.space t == k.currentTask.bind k.space

/-- The tasks that wait on the address in the address space of the caller. -/
def waiters (k : Kernel) (uaddr : ℕ) : List Tid := k.taskList.filter (k.waitsOn uaddr)

/-- The tasks that have become runnable. -/
def roused (k k' : Kernel) : List Tid :=
  k.taskList.filter fun t => k.state t != .runnable && k'.state t == .runnable

/-- As many waiters as asked for, or all of them, have become runnable and wait no longer; nothing
has happened to other tasks. -/
structure WakesExactly (k : Kernel) (uaddr n : ℕ) (r : ℤ × Kernel) : Prop where
  result : r.1 = (min n (k.waiters uaddr).length : ℕ)
  count : (roused k r.2).length = min n (k.waiters uaddr).length
  waiting (t : Tid) : t ∈ roused k r.2 → t ∈ k.waiters uaddr ∧ t ∉ r.2.waiters uaddr
  others (t : Tid) : t ∉ roused k r.2 → r.2.state t = k.state t

/-- The run queues are linked properly, and no task of the task list that is blocked or asleep is on
one of them. -/
structure Parking (k : Kernel) : Prop where
  queues : ∃ q, Holds k.toSched q
  nodup : k.taskList.Nodup
  unqueued (t : Tid) : t ∈ k.taskList → k.parked t = true → k.queued t = false

/-! ### What the loop does -/

/-- The tasks `hit` have lost their record, and those of them that were parked are runnable. -/
structure Woken (k : Kernel) (hit : List Tid) (k' : Kernel) : Prop where
  cleared (t : Tid) : t ∈ hit → k'.futexAddr t = 0
  roused (t : Tid) : t ∈ hit → k.parked t = true → k'.state t = .runnable
  unparked (t : Tid) : k.parked t = false → k'.state t = k.state t
  kept (t : Tid) : t ∉ hit → k'.futexAddr t = k.futexAddr t ∧ k'.state t = k.state t
  taskList : k'.taskList = k.taskList
  current : k'.currentTask = k.currentTask
  space : k'.space = k.space

/-- One task of the loop. -/
def wakeOne (k : Kernel) (t : Tid) : Kernel :=
  let k := k.setFutexAddr t 0
  if k.state t = .blocked ∨ k.state t = .sleeping then k.withSched (k.unblock t) else k

lemma parked_iff : k.parked t ↔ k.state t = .blocked ∨ k.state t = .sleeping
  := by
  rw [parked, Bool.or_eq_true, beq_iff_eq, beq_iff_eq]

lemma state_unblock_self (hq : k.queued t = false) : (k.unblock t).state t = .runnable
  := by
  rw [unblock, enqueue, if_neg (by rw [hq]; exact Bool.false_ne_true)]
  exact update_self ..

lemma woken_wakeOne (hq : k.parked t → k.queued t = false) : Woken k [t] (k.wakeOne t)
  := by
  have hself : (k.setFutexAddr t 0).futexAddr t = 0 := update_self ..
  have hother : ∀ c ≠ t, (k.setFutexAddr t 0).futexAddr c = k.futexAddr c :=
    fun c hc => update_of_ne hc ..
  rw [wakeOne]
  split
  · next hwaits =>
    have hparked : k.parked t := parked_iff.mpr hwaits
    refine ⟨fun c hc => ?_, fun c hc _ => ?_, fun c hc => ?_, fun c hc => ?_, rfl,
      currentTask_enqueue, rfl⟩
    · rw [mem_singleton.mp hc]
      exact hself
    · rw [mem_singleton.mp hc]
      exact state_unblock_self (hq hparked)
    · apply state_enqueue_of_ne
      rintro rfl
      exact absurd (hparked.symm.trans hc) Bool.false_ne_true.symm
    · have hct : c ≠ t := fun heq => hc (mem_singleton.mpr heq)
      exact ⟨hother c hct, state_enqueue_of_ne hct⟩
  · next hwaits =>
    refine ⟨fun c hc => ?_, fun c hc hparked => ?_, fun c _ => rfl, fun c hc => ?_, rfl, rfl, rfl⟩
    · rw [mem_singleton.mp hc]
      exact hself
    · rw [mem_singleton.mp hc] at hparked
      exact absurd (parked_iff.mp hparked) hwaits
    · exact ⟨hother c fun heq => hc (mem_singleton.mpr heq), rfl⟩

/-- The other parked tasks stay off the run queues. -/
lemma parking_wakeOne (h : Parking k) (ht : t ∈ k.taskList) : Parking (k.wakeOne t)
  := by
  rw [wakeOne]
  split
  · next hwaits =>
    obtain ⟨q, hq⟩ := h.queues
    refine ⟨hq.enqueue_any t, h.nodup, fun c hc hparked => ?_⟩
    by_cases hct : c = t
    · subst hct
      have hstate : (k.unblock c).state c = .runnable :=
        state_unblock_self (h.unqueued c ht (parked_iff.mpr hwaits))
      rcases parked_iff.mp hparked with hblocked | hsleeping
      · exact absurd (hstate.symm.trans hblocked) nofun
      · exact absurd (hstate.symm.trans hsleeping) nofun
    · have hparked' : k.parked c := by
        rw [parked_iff] at hparked ⊢
        have hstate : (k.unblock t).state c = k.state c := state_enqueue_of_ne hct
        rw [← hstate]
        exact hparked
      exact (queued_enqueue_of_ne hq hct).trans (h.unqueued c hc hparked')
  · exact ⟨h.queues, h.nodup, h.unqueued⟩

/-- First one task, then more. -/
lemma Woken.trans {hit hit' : List Tid} {k'' : Kernel} (h : Woken k hit k') (h' : Woken k' hit' k'')
    (hdisjoint : ∀ t ∈ hit, t ∉ hit') :
  Woken k (hit ++ hit') k''
  := by
  have hparked : ∀ t, k'.state t = k.state t → k'.parked t = k.parked t := by
    intro t hstate
    rw [parked, parked, hstate]
  have hnot : ∀ t ∈ hit', t ∉ hit := fun t ht' ht => hdisjoint t ht ht'
  refine ⟨fun t ht => ?_, fun t ht hp => ?_, fun t hp => ?_, fun t ht => ?_,
    h'.taskList.trans h.taskList, h'.current.trans h.current, h'.space.trans h.space⟩
  · rcases mem_append.mp ht with ht | ht
    · rw [(h'.kept t (hdisjoint t ht)).1, h.cleared t ht]
    · exact h'.cleared t ht
  · rcases mem_append.mp ht with ht | ht
    · rw [(h'.kept t (hdisjoint t ht)).2, h.roused t ht hp]
    · apply h'.roused t ht
      rw [hparked t (h.kept t (hnot t ht)).2, hp]
  · have hstate := h.unparked t hp
    rw [h'.unparked t ((hparked t hstate).trans hp), hstate]
  · rw [mem_append, not_or] at ht
    obtain ⟨haddr, hstate⟩ := h.kept t ht.1
    obtain ⟨haddr', hstate'⟩ := h'.kept t ht.2
    exact ⟨haddr'.trans haddr, hstate'.trans hstate⟩

/-- The tasks that the loop takes: the first ones with the address, but at least one. -/
def taken (k : Kernel) (uaddr n : ℕ) (tasks : List Tid) : List Tid :=
  (tasks.filter fun t => k.futexAddr t == uaddr).take (max n 1)

lemma wakeLoop_cons (t : Tid) (tasks : List Tid) (k : Kernel) :
  wakeLoop uaddr val woken (t :: tasks) k = if k.futexAddr t = uaddr then
      if val ≤ woken + 1 then (woken + 1, k.wakeOne t)
      else wakeLoop uaddr val (woken + 1) tasks (k.wakeOne t)
    else wakeLoop uaddr val woken tasks k
  := rfl

lemma wakeLoop_spec (uaddr : ℕ) (tasks : List Tid) (k : Kernel) (woken : ℕ) (h : Parking k)
    (hsub : tasks ⊆ k.taskList) (hnodup : tasks.Nodup) (hval : val = 0 ∧ woken = 0 ∨ woken < val) :
  Woken k (taken k uaddr (val - woken) tasks) (wakeLoop uaddr val woken tasks k).2
    ∧ (wakeLoop uaddr val woken tasks k).1
      = woken + (taken k uaddr (val - woken) tasks).length
  := by
  induction tasks generalizing k woken with
  | nil =>
    have hnone : taken k uaddr (val - woken) [] = [] := take_nil
    rw [hnone]
    refine ⟨⟨fun _ ht => ?_, fun _ ht => ?_, fun _ _ => rfl, fun _ _ => ⟨rfl, rfl⟩, rfl, rfl, rfl⟩,
      rfl⟩
    · exact absurd ht not_mem_nil
    · exact absurd ht not_mem_nil
  | cons t tasks ih =>
    obtain ⟨ht, hsub⟩ := cons_subset.mp hsub
    obtain ⟨hnot, hnodup⟩ := nodup_cons.mp hnodup
    rw [wakeLoop_cons, taken, filter_cons]
    by_cases haddr : k.futexAddr t = uaddr
    · have hone := woken_wakeOne (h.unqueued t ht)
      rw [if_pos haddr, if_pos (beq_iff_eq.mpr haddr)]
      split
      · have hmax : max (val - woken) 1 = 1 := by omega
        rw [hmax, take_succ_cons]
        exact ⟨hone, rfl⟩
      · have hmax : max (val - woken) 1 = max (val - (woken + 1)) 1 + 1 := by omega
        have hsame : taken (k.wakeOne t) uaddr (val - (woken + 1)) tasks
            = (tasks.filter fun c => k.futexAddr c == uaddr).take (max (val - (woken + 1)) 1) := by
          rw [taken]
          congr 1
          apply filter_congr
          intro c hc
          have hct : c ∉ [t] := fun hmem => hnot (mem_singleton.mp hmem ▸ hc)
          rw [(hone.kept c hct).1]
        obtain ⟨hwoken, hcount⟩ := ih (k.wakeOne t) (woken + 1) (parking_wakeOne h ht)
          (hone.taskList ▸ hsub) hnodup (.inr (by omega))
        rw [hmax, take_succ_cons, length_cons, ← hsame]
        refine ⟨?_, by omega⟩
        apply hone.trans hwoken
        intro c hc hmem
        rw [mem_singleton.mp hc] at hmem
        exact hnot (mem_of_mem_filter (mem_of_mem_take hmem))
    · rw [if_neg haddr, if_neg (fun h => haddr (beq_iff_eq.mp h))]
      exact ih k woken h hsub hnodup hval

/-! ### Exactness -/

lemma sysFutexWake_spec (val : ℕ) (h : Parking k) (haddr : uaddr ≠ 0) :
  Woken k (taken k uaddr val k.taskList) (k.sysFutexWake uaddr val).2
    ∧ (k.sysFutexWake uaddr val).1 = ((k.recorded uaddr).take (max val 1)).length
  := by
  have hval : val = 0 ∧ 0 = 0 ∨ 0 < val := by omega
  obtain ⟨hwoken, hcount⟩ := wakeLoop_spec uaddr k.taskList k 0 h (List.Subset.refl _)
    h.nodup hval
  rw [sysFutexWake, if_neg haddr]
  refine ⟨hwoken, ?_⟩
  dsimp only
  rw [hcount, Nat.zero_add]
  rfl

/-- The tasks that are taken all wait in the address space of the caller, and none is taken if none
is asked for. -/
def ExactWhen (k : Kernel) (uaddr n : ℕ) : Prop :=
  uaddr ≠ 0 ∧ (n = 0 → k.recorded uaddr = [])
    ∧ ∀ t ∈ (k.recorded uaddr).take n, t ∈ k.waiters uaddr

lemma mem_waiters :
  t ∈ k.waiters uaddr ↔ t ∈ k.taskList ∧ k.futexAddr t = uaddr ∧ k.parked t
    ∧ k.space t = k.currentTask.bind k.space
  := by
  rw [waiters, mem_filter, waitsOn, Bool.and_eq_true, Bool.and_eq_true, beq_iff_eq, beq_iff_eq,
    and_assoc]

lemma mem_roused :
  t ∈ roused k k' ↔ t ∈ k.taskList ∧ k.state t ≠ .runnable ∧ k'.state t = .runnable
  := by
  rw [roused, mem_filter, Bool.and_eq_true, bne_iff_ne, beq_iff_eq]

lemma state_ne_runnable (h : k.parked t) : k.state t ≠ .runnable
  := by
  rcases parked_iff.mp h with hstate | hstate <;> rw [hstate] <;> exact nofun

lemma length_waiters_le (k : Kernel) (uaddr : ℕ) :
  (k.waiters uaddr).length ≤ (k.recorded uaddr).length
  := by
  apply List.Sublist.length_le
  apply monotone_filter_right
  intro t ht
  rw [waitsOn, Bool.and_eq_true, Bool.and_eq_true] at ht
  exact ht.1.1

/-- Only tasks that are taken are roused. -/
lemma mem_of_roused {hit : List Tid} (h : Woken k hit k') (ht : t ∈ roused k k') : t ∈ hit
  := by
  obtain ⟨-, hbefore, hafter⟩ := mem_roused.mp ht
  by_contra hnot
  exact hbefore ((h.kept t hnot).2.symm.trans hafter)

/-- `FUTEX_WAKE` wakes exactly the waiters asked for, if and only if the tasks that it takes all wait
in the address space of the caller, and there is none if none is asked for. -/
theorem futexWake_exact_iff {n : ℕ} (h : Parking k) :
  WakesExactly k uaddr n (k.sysFutexWake uaddr n) ↔ ExactWhen k uaddr n
  := by
  have hnodup : (k.recorded uaddr).Nodup := h.nodup.filter _
  constructor
  · intro hexact
    have haddr : uaddr ≠ 0 := by
      intro hzero
      have hresult := hexact.result
      rw [sysFutexWake, if_pos hzero, efault] at hresult
      omega
    obtain ⟨hwoken, hcount⟩ := sysFutexWake_spec n h haddr
    have hlength : ((k.recorded uaddr).take (max n 1)).length = min n (k.waiters uaddr).length := by
      have := hexact.result
      omega
    have hperm : (roused k (k.sysFutexWake uaddr n).2).Perm ((k.recorded uaddr).take (max n 1)) := by
      have hsub : (roused k (k.sysFutexWake uaddr n).2).Subperm
          ((k.recorded uaddr).take (max n 1)) :=
        (h.nodup.filter _).subperm fun t ht => mem_of_roused hwoken ht
      apply hsub.perm_of_length_le
      rw [hlength, hexact.count]
    refine ⟨haddr, fun hzero => ?_, fun t ht => ?_⟩
    · subst hzero
      rw [length_take] at hlength
      rw [eq_nil_iff_length_eq_zero]
      omega
    · have hmem : t ∈ (k.recorded uaddr).take (max n 1) :=
        (take_sublist_take_left (le_max_left n 1)).subset ht
      exact (hexact.waiting t (hperm.mem_iff.mpr hmem)).1
  · rintro ⟨haddr, hnone, hwaiting⟩
    obtain ⟨hwoken, hcount⟩ := sysFutexWake_spec n h haddr
    have htake : (k.recorded uaddr).take (max n 1) = (k.recorded uaddr).take n := by
      rcases Nat.eq_zero_or_pos n with hzero | hpos
      · rw [hnone hzero, take_nil, take_nil]
      · rw [max_eq_left hpos]
    have htaken : taken k uaddr n k.taskList = (k.recorded uaddr).take n := htake
    rw [htaken] at hwoken
    rw [htake] at hcount
    have hmem : ∀ t, t ∈ roused k (k.sysFutexWake uaddr n).2 ↔ t ∈ (k.recorded uaddr).take n := by
      intro t
      refine ⟨mem_of_roused hwoken, fun ht => ?_⟩
      obtain ⟨hlist, -, hparked, -⟩ := mem_waiters.mp (hwaiting t ht)
      exact mem_roused.mpr ⟨hlist, state_ne_runnable hparked, hwoken.roused t ht hparked⟩
    have hlength : ((k.recorded uaddr).take n).length = min n (k.waiters uaddr).length := by
      have hle : ((k.recorded uaddr).take n).length ≤ (k.waiters uaddr).length :=
        (((take_sublist _ _).nodup hnodup).subperm hwaiting).length_le
      have hge := length_waiters_le k uaddr
      rw [length_take] at hle ⊢
      omega
    refine ⟨?_, ?_, fun t ht => ?_, fun t ht => ?_⟩
    · rw [hcount, hlength]
    · rw [← hlength]
      apply List.Perm.length_eq
      exact (perm_ext_iff_of_nodup (h.nodup.filter _) ((take_sublist _ _).nodup hnodup)).mpr hmem
    · have ht' := (hmem t).mp ht
      refine ⟨hwaiting t ht', fun hstill => ?_⟩
      have hcleared := hwoken.cleared t ht'
      exact haddr ((mem_waiters.mp hstill).2.1.symm.trans hcleared)
    · exact (hwoken.kept t fun hmem' => ht ((hmem t).mpr hmem')).2

/-- Task 1 runs, and tasks 5 and 6 wait on the word at 100, task 5 in the given address space and
the others in address space 1. -/
def waitingRoom (space : ℕ) : Kernel where
  toSched := (boot (fun _ => prioNormal) (fun _ => .blocked) (fun _ => false) (some 9)).init 1
  taskList := [1, 5, 6]
  futexAddr t := if t = 5 ∨ t = 6 then 100 else 0
  clearChildTid _ := 0
  process t := if t = 5 then some space else some 1
  processes p :=
    { pid := 2 + p, parentPid := 1, pgid := 2, cr3 := p, vmShared := false
      handler := fun _ => 0, sigpending := 0, exitCode := 0, exited := false }
  nextPid := 9
  processCount := 2
  spaceCount := 3
  destroyed := []
  kernelCr3 := 0

/-- Task 5 has timed out, but has not run yet. -/
def timedOutRoom : Kernel := (waitingRoom 1).withSched ((waitingRoom 1).enqueue 5)

lemma parking_waitingRoom (space : ℕ) : Parking (waitingRoom space)
  := by
  have hqueued : ((waitingRoom space).taskList.all fun t =>
      !(waitingRoom space).parked t || !(waitingRoom space).queued t) := by
    change ((waitingRoom 1).taskList.all fun t =>
      !(waitingRoom 1).parked t || !(waitingRoom 1).queued t)
    decide +kernel
  have hnodup : ([1, 5, 6] : List Tid).Nodup := by decide
  refine ⟨holds_init (fun _ => prioNormal) (fun _ => .blocked) (fun _ => false) (some 9) 1, hnodup,
    fun t ht hparked => ?_⟩
  have ht' := all_eq_true.mp hqueued t ht
  rw [hparked] at ht'
  simpa using ht'

/-- One of two waiters is woken. -/
theorem futexWake_exact_iff_room :
  WakesExactly (waitingRoom 1) 100 1 ((waitingRoom 1).sysFutexWake 100 1)
  := by
  apply (futexWake_exact_iff (parking_waitingRoom 1)).mpr
  refine ⟨by decide, nofun, ?_⟩
  have hall : (((waitingRoom 1).recorded 100).take 1).all
      (fun t => ((waitingRoom 1).waiters 100).contains t) = true := by decide +kernel
  intro t ht
  exact contains_iff_mem.mp (all_eq_true.mp hall t ht)

/-- The answer of `FUTEX_WAKE` on the word at 100, the waiters, and the tasks that are roused. -/
def wakeOutcome (k : Kernel) (n : ℕ) : ℤ × List Tid × List Tid :=
  ((k.sysFutexWake 100 n).1, k.waiters 100, roused k (k.sysFutexWake 100 n).2)

/-- A task is woken though none is asked for; one is woken in another address space; and one that has
timed out is counted, so that the one that waits is not woken. -/
theorem futexWake_inexact :
  wakeOutcome (waitingRoom 1) 0 = (1, [5, 6], [5])
    ∧ wakeOutcome (waitingRoom 2) 1 = (1, [6], [5])
    ∧ wakeOutcome timedOutRoom 1 = (1, [6], [])
  := by
  decide +kernel

end Kernel
