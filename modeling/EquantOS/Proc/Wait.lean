import EquantOS.Proc.Killing
import EquantOS.Proc.Reaping

/-!
# Waiting for children

`wait4` takes a child for dead as soon as one of its tasks has called `exit`.  If a task calls
`exit` only when it is the last one of its process, and no close operation unblocks a zombie,
then a process ends in one call, with all its tasks, and its parent is told once.
-/

open Function List Option

namespace Kernel

open Sched

variable {k k' : Kernel} {t c child : Tid} {p : ℕ} {Z : Tid → Prop} {code : ℤ}

/-! ### Calls -/

/-- What is known of the ends of processes: with which code a process has ended, and what `wait4`
has reported. -/
inductive Report where
  | ended (pid : ℕ) (code : ℤ)
  | reaped (pid : ℕ) (status : ℤ)
  deriving DecidableEq

/-- The process has a task that is not a zombie. -/
def lives (k : Kernel) (p : ℕ) : Bool :=
  k.taskList.any fun t => k.process t == some p && k.state t != .zombie

/-- The processes that a call with this code has ended. -/
def endings (k k' : Kernel) (code : ℤ) : List Report :=
  ((List.range k.processCount).filter fun p => k.lives p && !k'.lives p).map fun p =>
    .ended (k.processes p).pid code

/-- What `wait4` has reported. -/
def reaping : WaitResult → List Report
  | .child pid status => [.reaped pid status]
  | _ => []

/-- A call that matters to processes.  `sleep` and `block` are the waits of the current task,
`unblock` is what a device does. -/
inductive TreeCall where
  | exit (closing : ℕ → List Wakeup) (writable : Bool) (code : ℤ)
  | exitGroup (closing : ℕ → List Wakeup) (writable : Bool) (code : ℤ)
  | kill (closing : ℕ → List Wakeup) (writable : Bool) (pid : ℤ) (sig : ℕ)
  | wait4 (pid : ℤ) (nohang : Bool)
  | yield
  | timerTick (tick : BitVec 32)
  | sleep (sleepUntil : ℕ)
  | block
  | unblock (task : Tid)
  | ioWaitPrepare
  | ioWaitDone
  | ioWakeAll
  | futexWait (uaddr : ℕ) (value : Option ℕ) (val : ℕ) (waitTicks : Option ℕ) (tick : BitVec 32)
  | futexResume
  | futexWake (uaddr val : ℕ)

/-- The effect of a call, with what it adds to the reports. -/
def TreeCall.effect (k : Kernel) : TreeCall → Option (Kernel × List Report)
  | .exit closing writable code =>
    (sysExit closing writable k code).map fun k' => (k', k.endings k' code)
  | .exitGroup closing writable code =>
    (Kernel.exitGroup closing writable k code).map fun k' => (k', k.endings k' code)
  | .kill closing writable pid sig =>
    (sysKill closing writable k pid sig).map fun k' => (k', k.endings k' (128 + sig))
  | .wait4 pid nohang => (k.sysWait4 pid nohang).map fun r => (r.2, reaping r.1)
  | .yield => some (k.withSched k.toSched.yield, [])
  | .timerTick tick => (k.toSched.timerTick tick).map fun s => (k.withSched s, [])
  | .sleep sleepUntil =>
    match k.currentTask with
    | none => some (k, [])
    | some task =>
      (k.toSched.makeSleep task sleepUntil).map fun s => (k.withSched s.yield, [])
  | .block =>
    match k.currentTask with
    | none => some (k, [])
    | some task => some (k.withSched (k.toSched.block task).yield, [])
  | .unblock task => some (k.withSched (k.toSched.unblock task), [])
  | .ioWaitPrepare => some (k.withSched k.toSched.ioWaitPrepare, [])
  | .ioWaitDone => some (k.withSched k.toSched.ioWaitDone, [])
  | .ioWakeAll => k.toSched.ioWakeAll.map fun s => (k.withSched s, [])
  | .futexWait uaddr value val waitTicks tick =>
    (k.futexWait uaddr value val waitTicks tick).map fun k' => (k', [])
  | .futexResume => some (k.futexResume, [])
  | .futexWake uaddr val => some (k.futexWake uaddr val, [])

/-- One call, with the reports so far. -/
def TreeCall.step (w : Kernel × List Report) (call : TreeCall) : Option (Kernel × List Report) := do
  let r ← call.effect w.1
  some (r.1, w.2 ++ r.2)

/-- The current task of process `p` is runnable, not on the sleep queue and not the idle task. -/
structure Caller (k : Kernel) (t : Tid) (p : ℕ) : Prop where
  current : k.currentTask = some t
  listed : t ∈ k.taskList
  process : k.process t = some p
  busy : k.idleTask ≠ some t
  apart : Apart k.toSched t .runnable

/-- The current task may wait: it is not a zombie and not on the sleep queue. -/
def CallerAwake (k : Kernel) : Prop :=
  ∀ self, k.currentTask = some self → k.state self ≠ .zombie
    ∧ ∀ l, k.toSleepQueue.Holds l → self ∉ l

/-- No other process uses the address space of a child of the caller. -/
def ChildrenApart (k : Kernel) : Prop :=
  ∀ self parent, k.currentTask = some self → k.processOf self = some parent →
    ∀ t ∈ k.taskList, ∀ p, k.process t = some p → (k.processes p).parentPid = parent.pid →
      (k.processes p).vmShared = false → ∀ u ∈ k.taskList, ∀ q, k.process u = some q → q ≠ p →
      (k.processes q).cr3 ≠ (k.processes p).cr3

/-- The calls in good order: a task calls `exit` only as the last one of its process; who ends or
waits is awake; no close operation and no device unblocks a zombie or a task that ends in the
call; and nobody else uses the address space of a child when `wait4` is called. -/
def TreeCall.Orderly (k : Kernel) : TreeCall → Prop
  | .exit closing _ _ =>
    ∃ self p, Caller k self p ∧ k.hasOtherLiveTasks p = false ∧ Harmless (· = self) k (closing p)
  | .exitGroup closing _ _ =>
    ∃ self p, Caller k self p ∧ Harmless (fun t => k.process t = some p) k (closing p)
  | .kill closing _ pid sig =>
    (∀ self, k.currentTask = some self → Hit k pid sig self → k.state self ≠ .zombie →
      k.idleTask ≠ some self ∧ Apart k.toSched self .runnable)
    ∧ ∀ p, Harmless (fun t => k.currentTask = some t ∨ Hit k pid sig t) k (closing p)
  | .wait4 _ _ => CallerAwake k ∧ ChildrenApart k
  | .sleep _ => CallerAwake k
  | .block => CallerAwake k
  | .futexWait _ _ _ _ _ => CallerAwake k
  | .unblock task => k.state task ≠ .zombie
  | _ => True

/-! ### Calls that end no process -/

/-- No task and no process ends from `k` to `k'`. -/
def Quiet (k k' : Kernel) : Prop := Departs nobody nobody noCode k k'

lemma quiet_sched {T : Tid → Prop} {s : Sched} (h : Guards T k.toSched s)
    (hT : ∀ t, Apart k.toSched t .zombie → T t) :
  Quiet k (k.withSched s)
  where
  order := h.order
  stays t state ht ha := by
    rcases ht with rfl | ⟨-, hs, -⟩
    · exact h.keeps t .zombie (hT t ha) ha
    · exact hs.elim
  dead _ ht := ht.elim
  live t ht := .inl (h.live t ht)
  view := rfl
  exited _ := (Bool.or_false _).symm
  exitCode _ := rfl
  handler _ := rfl
  pgid _ := rfl

lemma Quiet.trans {k'' : Kernel} (h : Quiet k k') (h' : Quiet k' k'') : Quiet k k''
  := (Departs.trans h h').congr (fun _ => (or_self_iff).symm) fun _ => rfl

section

variable (h : InOrder k.toSched)

include h

lemma quiet_setFutexAddr (c : Tid) (uaddr : ℕ) :
  Quiet k (k.setFutexAddr c uaddr)
  := ⟨h, fun _ _ _ ha => ha, fun _ ht => ht.elim, fun _ ht => .inl ht, rfl,
    fun _ => (Bool.or_false _).symm, fun _ => rfl, fun _ => rfl, fun _ => rfl⟩

/-- The current task goes to sleep. -/
lemma quiet_sleep (hc : k.state c ≠ .zombie)
    (hoff : ∀ l, k.toSleepQueue.Holds l → c ∉ l) (u : ℕ) :
  ∃ s, k.makeSleep c u = some s ∧ Quiet k (k.withSched s.yield)
  := by
  obtain ⟨s, hs, htends⟩ := tends_makeSleep h hoff u
  refine ⟨s, hs, quiet_sched htends.switch ?_⟩
  rintro t ha rfl
  exact hc ha.state_eq

/-- The current task blocks. -/
lemma quiet_block (hc : k.state c ≠ .zombie) :
  Quiet k (k.withSched (k.block c).yield)
  := by
  apply quiet_sched (tends_block h c).switch
  rintro t ha rfl
  exact hc ha.state_eq

lemma quiet_futexWait (hcaller : CallerAwake k) (uaddr : ℕ)
    (value : Option ℕ) (val : ℕ) (waitTicks : Option ℕ) (tick : BitVec 32) :
  ∃ k', k.futexWait uaddr value val waitTicks tick = some k' ∧ Quiet k k'
  := by
  rw [futexWait]
  cases hself : k.currentTask with
  | none => exact ⟨k, rfl, (Ends.refl h).toDeparts⟩
  | some self =>
    obtain ⟨hlive, hoff⟩ := hcaller self hself
    simp only
    split
    · have hset := quiet_setFutexAddr h self uaddr
      cases waitTicks with
      | none =>
        have hset' : InOrder (k.setFutexAddr self uaddr).toSched := h
        exact ⟨_, rfl, hset.trans (quiet_block hset' hlive)⟩
      | some n =>
        have hset' : InOrder (k.setFutexAddr self uaddr).toSched := h
        obtain ⟨s, hs, hquiet⟩ := quiet_sleep hset' hlive hoff (tick.toNat + max n 1)
        exact ⟨(k.setFutexAddr self uaddr).withSched s.yield, by simp only [hs]; rfl,
          hset.trans hquiet⟩
    · exact ⟨k, rfl, (Ends.refl h).toDeparts⟩

end

/-! ### What is kept -/

/-- The task list is a list of distinct tasks; the processes of these are numbered, have distinct
`pid`s, and are not their own parents. -/
structure View.Family (v : View) : Prop where
  nodup : v.taskList.Nodup
  numbered (p : ℕ) : v.Attached p → p < v.processCount
  no_loop (p : ℕ) : v.Attached p → (v.processes p).parentPid ≠ (v.processes p).pid
  pids (p q : ℕ) : v.Attached p → v.Attached q → (v.processes p).pid = (v.processes q).pid → p = q

/-- The process of a report that it has ended. -/
def Report.endedPid : Report → Option ℕ
  | .ended pid _ => some pid
  | .reaped _ _ => none

/-- The process of a report of `wait4`. -/
def Report.reapedPid : Report → Option ℕ
  | .ended _ _ => none
  | .reaped pid _ => some pid

/-- All processes are alive or have ended as a whole.  Each that has ended has been noted, with its
code, and not been reported yet. -/
structure Kept (k : Kernel) (log : List Report) : Prop where
  order : InOrder k.toSched
  family : k.view.Family
  settled : Settled k k.taskList
  whole (t : Tid) (p : ℕ) : t ∈ k.taskList → k.process t = some p →
    (k.state t = .zombie ↔ (k.processes p).exited = true)
  told (p : ℕ) : k.view.Attached p → (k.processes p).exited = true →
    .ended (k.processes p).pid (k.processes p).exitCode ∈ log
  untold (p : ℕ) : k.view.Attached p → (k.processes p).exited = false →
    (k.processes p).pid ∉ log.filterMap Report.endedPid
  unreaped (p : ℕ) : k.view.Attached p → (k.processes p).pid ∉ log.filterMap Report.reapedPid
  ended_once : (log.filterMap Report.endedPid).Nodup
  reaped_once : (log.filterMap Report.reapedPid).Nodup
  status (pid : ℕ) (status : ℤ) : .reaped pid status ∈ log →
    ∃ code, .ended pid code ∈ log ∧ status = code % 256 * 256

variable {log : List Report}

lemma lives_iff : k.lives p ↔ ∃ t ∈ k.taskList, k.process t = some p ∧ k.state t ≠ .zombie
  := by simp [lives]

lemma attached_of_lives (h : k.lives p) : k.view.Attached p
  := by
  obtain ⟨t, ht, hp, -⟩ := lives_iff.mp h
  exact ⟨t, ht, hp⟩

lemma mem_endings {n : ℕ} {x : ℤ} :
  .ended n x ∈ k.endings k' code
    ↔ code = x ∧ ∃ p < k.processCount, (k.lives p ∧ k'.lives p = false)
      ∧ (k.processes p).pid = n
  := by
  simp only [endings, List.mem_map, List.mem_filter, List.mem_range, Bool.and_eq_true,
    Bool.not_eq_true', Report.ended.injEq]
  constructor
  · rintro ⟨p, ⟨hlt, hlives⟩, hpid, hcode⟩
    exact ⟨hcode, p, hlt, hlives, hpid⟩
  · rintro ⟨hcode, p, hlt, hlives, hpid⟩
    exact ⟨p, ⟨hlt, hlives⟩, hpid, hcode⟩

lemma endedPid_endings :
  (k.endings k' code).filterMap Report.endedPid
    = ((List.range k.processCount).filter fun p => k.lives p && !k'.lives p).map fun p =>
      (k.processes p).pid
  := by
  rw [endings, filterMap_map]
  exact congrFun filterMap_eq_map _

lemma reapedPid_endings : (k.endings k' code).filterMap Report.reapedPid = []
  := by
  rw [endings, filterMap_map]
  exact filterMap_eq_nil_iff.mpr fun _ _ => rfl

/-- A process whose tasks end has no live task any more, and no other process ends. -/
lemma Kept.lives_leave (h : Kept k log) (hleave : Leave Z code k k')
    (hclosed : ∀ t u p, Z t → k.process t = some p → u ∈ k.taskList → k.process u = some p →
      k.state u ≠ .zombie → Z u) (hlives : k.lives p) :
  k'.lives p = false ↔ ∃ t, Z t ∧ k.process t = some p
  := by
  have hiff : ∀ t ∈ k.taskList, k.process t = some p →
      (k'.state t ≠ .zombie ↔ k.state t ≠ .zombie ∧ ¬Z t) := by
    intro t ht hp
    apply h.settled.live_iff hleave ht
    rw [hp]
    exact some_ne_none p
  rw [← Bool.not_eq_true, lives_iff, hleave.taskList_eq, hleave.process_eq]
  obtain ⟨t, ht, hp, hlive⟩ := lives_iff.mp hlives
  constructor
  · intro hnone
    refine ⟨t, ?_, hp⟩
    by_contra hz
    exact hnone ⟨t, ht, hp, (hiff t ht hp).mpr ⟨hlive, hz⟩⟩
  · rintro ⟨u, hzu, hpu⟩ ⟨v, hv, hpv, hlive'⟩
    obtain ⟨hlivev, hnot⟩ := (hiff v hv hpv).mp hlive'
    exact hnot (hclosed u v p hzu hpu hv hpv hlivev)

/-- Tasks end, and with each all live tasks of its process. -/
lemma Kept.leave (h : Kept k log) (hleave : Leave Z code k k')
    (hZ : ∀ t, Z t → t ∈ k.taskList ∧ k.state t ≠ .zombie)
    (hclosed : ∀ t u p, Z t → k.process t = some p → u ∈ k.taskList → k.process u = some p →
      k.state u ≠ .zombie → Z u) :
  Kept k' (log ++ k.endings k' code)
  := by
  -- a process that ends now had not exited before
  have hnew : ∀ p, (∃ t, Z t ∧ k.process t = some p) →
      (k.processes p).exited = false ∧ k.lives p := by
    rintro p ⟨t, hzt, hp⟩
    obtain ⟨ht, hlive⟩ := hZ t hzt
    refine ⟨?_, lives_iff.mpr ⟨t, ht, hp, hlive⟩⟩
    rw [← Bool.not_eq_true, ← h.whole t p ht hp]
    exact hlive
  have hcode : ∀ p, (codesOf k Z code p).isSome ↔ ∃ t, Z t ∧ k.process t = some p := by
    intro p
    rw [isSome_iff_exists]
    simp only [codesOf_eq_some]
    exact ⟨fun ⟨_, _, hp⟩ => hp, fun hp => ⟨code, rfl, hp⟩⟩
  have hexited : ∀ p, (k'.processes p).exited
      ↔ (k.processes p).exited ∨ ∃ t, Z t ∧ k.process t = some p := by
    intro p
    rw [hleave.exited, Bool.or_eq_true, hcode]
  have hpid : ∀ p, (k'.processes p).pid = (k.processes p).pid :=
    fun p => congrArg Identity.pid (congrFun (congrArg View.processes hleave.view) p)
  have hlist := hleave.taskList_eq
  have hprocess := hleave.process_eq
  refine ⟨hleave.order, hleave.view ▸ h.family, ?_, ?_, ?_, ?_, ?_, ?_, ?_, ?_⟩
  · rw [hlist]
    exact h.settled.departs hleave
  · intro t p ht hp
    rw [hlist] at ht
    rw [hprocess] at hp
    have hlive := h.settled.live_iff hleave ht (by rw [hp]; exact some_ne_none p)
    rw [hexited, ← h.whole t p ht hp]
    constructor
    · intro hzombie
      by_contra hnot
      rw [not_or] at hnot
      exact hlive.mpr ⟨hnot.1, fun hzt => hnot.2 ⟨t, hzt, hp⟩⟩ hzombie
    · intro hor
      by_contra hne
      obtain ⟨hlivet, hnot⟩ := hlive.mp hne
      rcases hor with hzombie | ⟨u, hzu, hpu⟩
      · exact hlivet hzombie
      · exact hnot (hclosed u t p hzu hpu ht hp hlivet)
  · intro p hattached hex
    rw [hleave.view] at hattached
    rw [hpid, hleave.exitCode, mem_append]
    by_cases hend : ∃ t, Z t ∧ k.process t = some p
    · right
      rw [codesOf_eq_some.mpr ⟨rfl, hend⟩, mem_endings]
      have hlives := (hnew p hend).2
      exact ⟨rfl, p, h.family.numbered p hattached,
        ⟨hlives, (h.lives_leave hleave hclosed hlives).mpr hend⟩, rfl⟩
    · left
      have hnone : codesOf k Z code p = none := by
        rw [← not_isSome_iff_eq_none, hcode]
        exact hend
      rw [hnone]
      exact h.told p hattached (((hexited p).mp hex).resolve_right hend)
  · intro p hattached hex
    rw [hleave.view] at hattached
    rw [hpid, filterMap_append, mem_append, not_or]
    have hnot : ¬((k.processes p).exited ∨ ∃ t, Z t ∧ k.process t = some p) := by
      rw [← hexited, hex]
      decide
    rw [not_or, Bool.not_eq_true] at hnot
    refine ⟨h.untold p hattached hnot.1, ?_⟩
    rw [endedPid_endings, List.mem_map]
    rintro ⟨q, hq, hpq⟩
    rw [mem_filter, Bool.and_eq_true, Bool.not_eq_true'] at hq
    obtain rfl := h.family.pids q p (attached_of_lives hq.2.1) hattached hpq
    exact hnot.2 ((h.lives_leave hleave hclosed hq.2.1).mp hq.2.2)
  · intro p hattached
    rw [hleave.view] at hattached
    rw [hpid, filterMap_append, reapedPid_endings, append_nil]
    exact h.unreaped p hattached
  · rw [filterMap_append, endedPid_endings, nodup_append]
    refine ⟨h.ended_once, ?_, ?_⟩
    · apply List.Nodup.map_on _ (nodup_range.filter _)
      intro p hp q hq hpq
      rw [mem_filter, Bool.and_eq_true] at hp hq
      exact h.family.pids p q (attached_of_lives hp.2.1) (attached_of_lives hq.2.1) hpq
    · rintro n hn m hm rfl
      obtain ⟨p, hp, rfl⟩ := mem_map.mp hm
      rw [mem_filter, Bool.and_eq_true, Bool.not_eq_true'] at hp
      have hend := (h.lives_leave hleave hclosed hp.2.1).mp hp.2.2
      exact h.untold p (attached_of_lives hp.2.1) (hnew p hend).1 hn
  · rw [filterMap_append, reapedPid_endings, append_nil]
    exact h.reaped_once
  · intro pid status hmem
    rcases mem_append.mp hmem with hmem | hmem
    · obtain ⟨code, hcode, hstatus⟩ := h.status pid status hmem
      exact ⟨code, mem_append_left _ hcode, hstatus⟩
    · simp [endings] at hmem

/-- No process ends. -/
lemma Kept.quiet (h : Kept k log) (hquiet : Quiet k k') : Kept k' log
  := by
  have hleave : Leave nobody 0 k k' :=
    Departs.congr hquiet (fun _ => Iff.rfl) fun p => (codesOf_nobody 0 p).symm
  have hkept := h.leave hleave (fun _ ht => ht.elim) fun _ _ _ ht => ht.elim
  have hnil : k.endings k' 0 = [] := by
    rw [endings, map_eq_nil_iff, filter_eq_nil_iff]
    intro p _ hp
    rw [Bool.and_eq_true, Bool.not_eq_true'] at hp
    obtain ⟨_, ht, -⟩ :=
      (h.lives_leave hleave (fun _ _ _ ht => ht.elim) hp.1).mp hp.2
    exact ht
  rwa [hnil, append_nil] at hkept

lemma Kept.reaps (h : Kept k log) (hreaps : Reaps k k') : Kept k' log
  := by
  have hattached : ∀ p, k'.view.Attached p → k.view.Attached p := by
    rintro p ⟨t, ht, hp⟩
    exact ⟨t, hreaps.taskList.subset ht, hreaps.process t p hp⟩
  have hprocesses := hreaps.processes
  have hview : k'.view.processes = k.view.processes := by
    funext p
    simp only [view, hprocesses]
  refine ⟨hreaps.guards.order, ⟨?_, ?_, ?_, ?_⟩, ?_, ?_, ?_, ?_, ?_, h.ended_once, h.reaped_once,
    h.status⟩
  · exact hreaps.taskList.nodup h.family.nodup
  · intro p hp
    have hcount : k'.view.processCount = k.view.processCount := hreaps.processCount
    rw [hcount]
    exact h.family.numbered p (hattached p hp)
  · intro p hp
    rw [hview]
    exact h.family.no_loop p (hattached p hp)
  · intro p q hp hq
    rw [hview]
    exact h.family.pids p q (hattached p hp) (hattached q hq)
  · intro t ht hp hzombie
    obtain ⟨p, hp⟩ := ne_none_iff_exists'.mp hp
    have hp' := hreaps.process t p hp
    apply hreaps.guards.keeps t .zombie trivial
    apply h.settled t (hreaps.taskList.subset ht)
    · rw [hp']
      exact some_ne_none p
    · rwa [← hreaps.state]
  · intro t p ht hp
    rw [hreaps.state, hprocesses]
    exact h.whole t p (hreaps.taskList.subset ht) (hreaps.process t p hp)
  · intro p hp
    rw [hprocesses]
    exact h.told p (hattached p hp)
  · intro p hp
    rw [hprocesses]
    exact h.untold p (hattached p hp)
  · intro p hp
    rw [hprocesses]
    exact h.unreaped p (hattached p hp)

/-! ### Releasing a child -/

/-- Tasks that are freed are on no queue any more. -/
lemma gone_foldlM_freeTaskStruct (h : InOrder k.toSched) (tasks : List Tid) :
  ∃ k', tasks.foldlM freeTaskStruct k = some k' ∧ Tends (fun _ => True) k.toSched k'.toSched
    ∧ ∀ t, t ∈ tasks ∨ Gone k.toSched t → Gone k'.toSched t
  := by
  induction tasks generalizing k with
  | nil => exact ⟨k, rfl, Tends.refl h, fun t ht => ht.resolve_left not_mem_nil⟩
  | cons c tasks ih =>
    obtain ⟨s, hs, htends, -, hgone, hkept⟩ := tends_forget (T := fun _ => True) h c
    have hone : k.freeTaskStruct c = some { k.withSched s with taskList := k.taskList.erase c } := by
      rw [freeTaskStruct, hs]
      rfl
    have horder : InOrder ({ k.withSched s with taskList := k.taskList.erase c } : Kernel).toSched :=
      htends.order
    obtain ⟨k', hk', htends', hgone'⟩ := ih horder
    refine ⟨k', ?_, htends.trans htends', ?_⟩
    · rw [foldlM_cons, hone]
      exact hk'
    · rintro t (ht | ht)
      · rcases mem_cons.mp ht with rfl | ht
        · exact hgone' t (.inr hgone)
        · exact hgone' t (.inl ht)
      · exact hgone' t (.inr (hkept t ht))

/-- `release_task` of a process that has ended, and is not that of the current task. -/
lemma reaps_releaseChild (h : InOrder k.toSched) (hnodup : k.taskList.Nodup)
    (hp : k.process child = some p) (hchild : child ∈ k.taskList)
    (hself : ∀ self, k.currentTask = some self → k.process self ≠ some p)
    (hdead : ∀ t ∈ k.taskList, k.process t = some p → k.state t = .zombie) :
  ∃ k', k.releaseTask child = some k' ∧ Reaps k k'
    ∧ k'.taskList = k.taskList.filter (fun t => k.process t != some p)
    ∧ ∀ t ∈ k.taskList, k.process t = some p → Gone k'.toSched t
  := by
  obtain ⟨k₁, hk₁, htends, hgone⟩ := gone_foldlM_freeTaskStruct h (k.siblings child ++ [child])
  obtain ⟨s, rfl, hstate, -⟩ := foldlM_freeTaskStruct hk₁
  rw [diff_siblings hp hnodup fun self _ => hself self] at hk₁ hgone htends
  set l := k.taskList.filter fun t => k.process t != some p with hl
  have hlive : ∀ t, k.state t ≠ .zombie → t ≠ child := by
    rintro t ht rfl
    exact ht (hdead t hchild hp)
  have hreaps : ∀ destroyed, Reaps k { k.withSched s with
      taskList := l, destroyed := destroyed, process := update k.process child none } := by
    intro destroyed
    refine ⟨htends.toGuards, hstate, htends.current, htends.idle, rfl, rfl,
      filter_sublist, rfl, ?_, ?_, ?_⟩
    · intro t q (ht : update k.process child none t = some q)
      by_cases htc : t = child
      · subst htc
        simp at ht
      · rwa [update_of_ne htc] at ht
    · intro t ht
      refine ⟨?_, update_of_ne (hlive t ht) ..⟩
      intro hmem
      apply mem_filter.mpr
      refine ⟨hmem, bne_iff_ne.mpr ?_⟩
      intro hpt
      exact ht (hdead t hmem hpt)
    · intro t ht
      apply update_of_ne
      rintro rfl
      exact hself t ht hp
  have hgone' : ∀ t ∈ k.taskList, k.process t = some p → Gone s t := by
    intro t ht hpt
    apply hgone t
    left
    by_cases htc : t = child
    · simp [htc]
    · apply mem_append_left
      have hcur : k.currentTask ≠ some t := fun hcur => hself t hcur hpt
      simp [siblings, ht, hp, hpt, htc, hcur]
  rw [releaseTask_eq_foldlM hp, hk₁]
  obtain ⟨destroyed, hdrop⟩ := dropProcess_eq (k := { k.withSched s with taskList := l }) hp
  exact ⟨_, congrArg some hdrop, hreaps destroyed, rfl, hgone'⟩

/-- A report of `wait4` is added. -/
lemma Kept.report (h : Kept k log) {pid : ℕ}
    (hpid : ∀ p, k.view.Attached p → (k.processes p).pid ≠ pid)
    (hended : .ended pid code ∈ log) (hnew : pid ∉ log.filterMap Report.reapedPid) :
  Kept k (log ++ [.reaped pid (code % 256 * 256)])
  := by
  have hend : (log ++ [Report.reaped pid (code % 256 * 256)]).filterMap Report.endedPid
      = log.filterMap Report.endedPid := by simp [Report.endedPid]
  have hreap : (log ++ [Report.reaped pid (code % 256 * 256)]).filterMap Report.reapedPid
      = log.filterMap Report.reapedPid ++ [pid] := by simp [Report.reapedPid]
  refine ⟨h.order, h.family, h.settled, h.whole, ?_, ?_, ?_, ?_, ?_, ?_⟩
  · exact fun p hp hex => mem_append_left _ (h.told p hp hex)
  · rw [hend]
    exact h.untold
  · intro p hp
    rw [hreap, mem_append, not_or, mem_singleton]
    exact ⟨h.unreaped p hp, hpid p hp⟩
  · rw [hend]
    exact h.ended_once
  · rw [hreap, nodup_append]
    refine ⟨h.reaped_once, nodup_singleton pid, ?_⟩
    rintro n hn m hm rfl
    exact hnew (mem_singleton.mp hm ▸ hn)
  · intro n status hmem
    rcases mem_append.mp hmem with hmem | hmem
    · obtain ⟨x, hx, hstatus⟩ := h.status n status hmem
      exact ⟨x, mem_append_left _ hx, hstatus⟩
    · obtain ⟨rfl, rfl⟩ := Report.reaped.inj (mem_singleton.mp hmem)
      exact ⟨code, mem_append_left _ hended, rfl⟩

/-! ### `wait4` -/

/-- Process `p` had ended, and nothing refers to it any more: its tasks are neither on the task
list nor on a queue, and no other task uses its address space. -/
structure Buried (k k' : Kernel) (p : ℕ) : Prop where
  dead (t : Tid) : t ∈ k.taskList → k.process t = some p → k.state t = .zombie
  gone (t : Tid) : t ∈ k.taskList → k.process t = some p →
    t ∉ k'.taskList ∧ k'.currentTask ≠ some t ∧ Gone k'.toSched t
  nobody (t : Tid) : t ∈ k'.taskList → k'.process t ≠ some p
  space (t : Tid) (q : ℕ) : (k.processes p).vmShared = false → t ∈ k'.taskList →
    k'.process t = some q → (k'.processes q).cr3 ≠ (k.processes p).cr3

/-- There is a child that is asked for and has ended. -/
def ChildEnded (k : Kernel) (pid : ℤ) : Prop :=
  ∃ self parent, k.currentTask = some self ∧ k.processOf self = some parent
    ∧ ∃ t ∈ k.taskList, k.waitMatches parent pid t = true ∧ k.state t = .zombie

/-- `wait4` reports a child that has ended, if there is one. -/
lemma kept_sysWait4 (h : Kept k log) (hcaller : CallerAwake k) (happart : ChildrenApart k)
    (pid : ℤ) (nohang : Bool) :
  ∃ r k', k.sysWait4 pid nohang = some (r, k') ∧ Kept k' (log ++ reaping r)
    ∧ (∀ n x, r = .child n x → ∃ p, k.view.Attached p ∧ (k.processes p).pid = n ∧ Buried k k' p)
    ∧ (ChildEnded k pid → ∃ n x, r = .child n x)
  := by
  have hsame : Kept k (log ++ []) := by rwa [append_nil]
  rw [sysWait4]
  cases hself : k.currentTask with
  | none =>
    refine ⟨_, _, rfl, hsame, fun _ _ hr => (by cases hr), ?_⟩
    rintro ⟨self, parent, hcur, -⟩
    exact absurd (hself.symm.trans hcur) (some_ne_none self).symm
  | some self =>
    cases hparent : k.processOf self with
    | none =>
      simp only [hparent]
      refine ⟨_, _, rfl, hsame, fun _ _ hr => (by cases hr), ?_⟩
      rintro ⟨self', parent, hcur, hp, -⟩
      obtain rfl := some.inj (hself.symm.trans hcur)
      exact absurd (hparent.symm.trans hp) (some_ne_none parent).symm
    | some parent =>
      simp only [hparent]
      cases hfind : k.taskList.find? (k.waitable parent pid) with
      | some child =>
        have hchild := mem_of_find?_eq_some hfind
        have hwait := find?_some hfind
        rw [waitable, Bool.and_eq_true, waitMatches, Option.any_eq_true] at hwait
        obtain ⟨⟨_, hp', hmatch⟩, hend⟩ := hwait
        obtain ⟨p, hp, rfl⟩ := map_eq_some_iff.mp hp'
        rw [Bool.and_eq_true, beq_iff_eq] at hmatch
        have hattached : k.view.Attached p := ⟨child, hchild, hp⟩
        have hexited : (k.processes p).exited := by
          rw [Bool.or_eq_true, beq_iff_eq, h.whole child p hchild hp, processOf, hp] at hend
          rcases hend with hend | hend
          · exact hend
          · exact hend
        have hdead : ∀ t ∈ k.taskList, k.process t = some p → k.state t = .zombie :=
          fun t ht hpt => (h.whole t p ht hpt).mpr hexited
        -- a process is not its own child
        have hother : ∀ c, k.currentTask = some c → k.process c ≠ some p := by
          intro c hcur hpc
          obtain rfl := some.inj (hself.symm.trans hcur)
          rw [processOf, hpc] at hparent
          obtain rfl := some.inj hparent
          exact h.family.no_loop p hattached hmatch.1
        obtain ⟨k', hk', hreaps, hlist, hgone⟩ :=
          reaps_releaseChild h.order h.family.nodup hp hchild hother hdead
        have hkept := h.reaps hreaps
        have hrest : ∀ t, t ∈ k'.taskList ↔ t ∈ k.taskList ∧ k.process t ≠ some p := by
          intro t
          rw [hlist, mem_filter, bne_iff_ne]
        have hneq : ∀ t q, t ∈ k'.taskList → k'.process t = some q →
            t ∈ k.taskList ∧ k.process t = some q ∧ q ≠ p := by
          intro t q ht hq
          have hq' := hreaps.process t q hq
          refine ⟨((hrest t).mp ht).1, hq', ?_⟩
          rintro rfl
          exact ((hrest t).mp ht).2 hq'
        refine ⟨_, k', by simp only [hk']; rfl, ?_, ?_, ?_⟩
        · rw [processOf, hp]
          apply hkept.report
          · rintro q ⟨t, ht, hq⟩ hpid
            obtain ⟨hmem, hq', hqp⟩ := hneq t q ht hq
            rw [hreaps.processes] at hpid
            exact hqp (h.family.pids q p ⟨t, hmem, hq'⟩ hattached hpid)
          · exact h.told p hattached hexited
          · exact h.unreaped p hattached
        · intro n x hr
          rw [processOf, hp] at hr
          obtain ⟨rfl, -⟩ := WaitResult.child.inj hr
          refine ⟨p, hattached, rfl, hdead, ?_, ?_, ?_⟩
          · intro t ht hpt
            refine ⟨fun hmem => ((hrest t).mp hmem).2 hpt, ?_, hgone t ht hpt⟩
            rw [hreaps.current]
            exact fun hcur => hother t hcur hpt
          · intro t ht hpt
            exact (hneq t p ht hpt).2.2 rfl
          · intro t q hshared ht hq
            obtain ⟨hmem, hq', hqp⟩ := hneq t q ht hq
            rw [hreaps.processes]
            exact happart self parent hself hparent child hchild p hp hmatch.1 hshared t hmem q hq'
              hqp
        · intro _
          rw [processOf, hp]
          exact ⟨_, _, rfl⟩
      | none =>
        have hnone : ¬ChildEnded k pid := by
          rintro ⟨self', parent', hcur, hp, t, ht, hmatch, hzombie⟩
          obtain rfl := some.inj (hself.symm.trans hcur)
          obtain rfl := some.inj (hparent.symm.trans hp)
          apply find?_eq_none.mp hfind t ht
          rw [waitable, hmatch, hzombie]
          rfl
        split_ifs
        · exact ⟨_, _, rfl, hsame, fun _ _ hr => (by cases hr), fun hc => absurd hc hnone⟩
        · exact ⟨_, _, rfl, hsame, fun _ _ hr => (by cases hr), fun hc => absurd hc hnone⟩
        · refine ⟨_, _, rfl, ?_, fun _ _ hr => (by cases hr), fun hc => absurd hc hnone⟩
          have hstop := tends_stop h.order self (show TaskState.blocked ≠ .zombie by decide)
          have hout := hstop.trans (tends_dequeue hstop.order self)
          have hquiet : Quiet k (k.withSched ((k.stop self .blocked).dequeue self).yield) := by
            apply quiet_sched hout.switch
            rintro t ha rfl
            exact (hcaller t hself).1 ha.state_eq
          have hkept := h.quiet hquiet
          rw [← append_nil log] at hkept
          exact hkept

/-! ### Runs -/

variable {closing : ℕ → List Wakeup} {writable : Bool}

lemma kept_exit (h : Kept k log) (horderly : (TreeCall.exit closing writable code).Orderly k) :
  ∃ k', sysExit closing writable k code = some k' ∧ Kept k' (log ++ k.endings k' code)
  := by
  obtain ⟨self, p, hcaller, hlast, hharmless⟩ := horderly
  obtain ⟨k', hk', hdeparts⟩ := departs_sysExit h.order hcaller.current hcaller.busy hcaller.apart
    hcaller.process hharmless writable code
  have hleave : Leave (· = self) code k k' :=
    hdeparts.congr (fun _ => Iff.rfl) (codesOf_self hcaller.process code)
  refine ⟨k', hk', h.leave hleave ?_ ?_⟩
  · rintro t rfl
    refine ⟨hcaller.listed, ?_⟩
    rw [hcaller.apart.state_eq]
    decide
  · rintro t u q rfl hq hu hqu hlive
    obtain rfl := some.inj (hcaller.process.symm.trans hq)
    rw [hasOtherLiveTasks, List.any_eq_false] at hlast
    by_contra hne
    have hcur : k.currentTask ≠ some u := by
      rw [hcaller.current]
      exact fun heq => hne (some.inj heq).symm
    exact hlast u hu (by simp [hcur, hqu, hlive])

lemma kept_exitGroup (h : Kept k log) (horderly : (TreeCall.exitGroup closing writable code).Orderly k) :
  ∃ k', exitGroup closing writable k code = some k' ∧ Kept k' (log ++ k.endings k' code)
  := by
  obtain ⟨self, p, hcaller, hharmless⟩ := horderly
  obtain ⟨k', hk', hleave⟩ := departs_exitGroup h.order hcaller.current hcaller.busy hcaller.apart
    hcaller.process hcaller.listed h.settled hharmless writable code
  refine ⟨k', hk', h.leave hleave ?_ ?_⟩
  · rintro t ⟨ht, -, hlive⟩
    exact ⟨ht, hlive⟩
  · rintro t u q ⟨-, hp, -⟩ hq hu hqu hlive
    rw [hp] at hq
    exact ⟨hu, hqu.trans hq.symm, hlive⟩

lemma endings_reaps {k₁ : Kernel} (hreaps : Reaps k k₁) : k₁.endings k' code = k.endings k' code
  := by
  have hlives : ∀ p, k₁.lives p = k.lives p := by
    intro p
    rw [Bool.eq_iff_iff, lives_iff, lives_iff, hreaps.state]
    constructor
    · rintro ⟨t, ht, hp, hlive⟩
      exact ⟨t, hreaps.taskList.subset ht, hreaps.process t p hp, hlive⟩
    · rintro ⟨t, ht, hp, hlive⟩
      obtain ⟨hmem, hprocess⟩ := hreaps.live t hlive
      exact ⟨t, hmem ht, hprocess.trans hp, hlive⟩
  simp only [endings, hlives, hreaps.processCount, hreaps.processes]

lemma kept_sysKill (h : Kept k log) {pid : ℤ}
    {sig : ℕ} (horderly : (TreeCall.kill closing writable pid sig).Orderly k) :
  ∃ k', sysKill closing writable k pid sig = some k' ∧ Kept k' (log ++ k.endings k' (128 + sig))
  := by
  obtain ⟨hcaller, hclosing⟩ := horderly
  obtain ⟨k₁, hk₁, hreaps⟩ := reaps_reapOrphanZombies h.order
  have h₁ := h.reaps hreaps
  have hhit : ∀ t, Hit k₁ pid sig t → Hit k pid sig t := by
    rintro t ⟨p, hp, hmatch, hlethal⟩
    rw [hreaps.processes] at hmatch hlethal
    rw [hreaps.matchesPid] at hmatch
    exact ⟨p, hreaps.process t p hp, hmatch, hlethal⟩
  obtain ⟨k', hk', hleave⟩ := leave_kill h₁.order h₁.settled
    (fun c hcur hc hlive => by
      rw [hreaps.current] at hcur
      rw [hreaps.state] at hlive
      obtain ⟨hidle, hapart⟩ := hcaller c hcur (hhit c hc) hlive
      exact ⟨by rw [hreaps.idle]; exact hidle, hreaps.guards.keeps c _ trivial hapart⟩)
    (fun p t ht => by
      obtain ⟨hzombie, hnot⟩ := hclosing p t ht
      refine ⟨by rwa [hreaps.state], ?_⟩
      rintro (hcur | hc)
      · exact hnot (.inl (hreaps.current ▸ hcur))
      · exact hnot (.inr (hhit t hc))) writable
  refine ⟨k', ?_, ?_⟩
  · rw [sysKill, hk₁]
    exact hk'
  rw [← endings_reaps hreaps]
  apply h₁.leave hleave
  · rintro t ⟨ht, -, hlive⟩
    exact ⟨ht, hlive⟩
  · rintro t u p ⟨-, ⟨q, hq, hmatch, hlethal⟩, -⟩ hp hu hpu hlive
    obtain rfl := some.inj (hp.symm.trans hq)
    exact ⟨hu, ⟨p, hpu, hmatch, hlethal⟩, hlive⟩

/-- One call in good order. -/
lemma kept_effect (h : Kept k log) {call : TreeCall} (horderly : call.Orderly k) :
  ∃ r, call.effect k = some r ∧ Kept r.1 (log ++ r.2)
  := by
  have hquiet : ∀ k', Quiet k k' → Kept k' (log ++ []) := by
    intro k' hk'
    rw [append_nil]
    exact h.quiet hk'
  have hrefl : Quiet k k := (Ends.refl h.order).toDeparts
  cases call with
  | exit closing writable code =>
    obtain ⟨k', hk', hkept⟩ := kept_exit h horderly
    exact ⟨_, congrArg (Option.map _) hk', hkept⟩
  | exitGroup closing writable code =>
    obtain ⟨k', hk', hkept⟩ := kept_exitGroup h horderly
    exact ⟨_, congrArg (Option.map _) hk', hkept⟩
  | kill closing writable pid sig =>
    obtain ⟨k', hk', hkept⟩ := kept_sysKill h horderly
    exact ⟨_, congrArg (Option.map _) hk', hkept⟩
  | wait4 pid nohang =>
    obtain ⟨r, k', hk', hkept, -⟩ := kept_sysWait4 h horderly.1 horderly.2 pid nohang
    exact ⟨_, congrArg (Option.map _) hk', hkept⟩
  | yield =>
    exact ⟨_, rfl, hquiet _ (quiet_sched (guards_switch h.order) fun _ _ => trivial)⟩
  | timerTick tick =>
    obtain ⟨s, hs, htends⟩ := tends_timerTick (T := fun _ => True) h.order tick
    exact ⟨_, congrArg (Option.map _) hs, hquiet _ (quiet_sched htends.toGuards fun _ _ => trivial)⟩
  | sleep sleepUntil =>
    rw [TreeCall.effect]
    cases hself : k.currentTask with
    | none => exact ⟨_, rfl, hquiet _ hrefl⟩
    | some self =>
      obtain ⟨hlive, hoff⟩ := horderly self hself
      obtain ⟨s, hs, hsleep⟩ := quiet_sleep h.order hlive hoff sleepUntil
      exact ⟨_, congrArg (Option.map _) hs, hquiet _ hsleep⟩
  | block =>
    rw [TreeCall.effect]
    cases hself : k.currentTask with
    | none => exact ⟨_, rfl, hquiet _ hrefl⟩
    | some self => exact ⟨_, rfl, hquiet _ (quiet_block h.order (horderly self hself).1)⟩
  | unblock task =>
    refine ⟨_, rfl, hquiet _ (quiet_sched (tends_enqueue h.order task).toGuards ?_)⟩
    rintro t ha rfl
    exact horderly ha.state_eq
  | ioWaitPrepare =>
    have htends := tends_ioWaitPrepare (T := fun _ => True) h.order
    exact ⟨_, rfl, hquiet _ (quiet_sched htends.toGuards fun _ _ => trivial)⟩
  | ioWaitDone =>
    have htends := tends_ioWaitDone (T := fun _ => True) h.order
    exact ⟨_, rfl, hquiet _ (quiet_sched htends.toGuards fun _ _ => trivial)⟩
  | ioWakeAll =>
    obtain ⟨s, hs, htends⟩ := tends_ioWakeAll (T := fun _ => True) h.order
    exact ⟨_, congrArg (Option.map _) hs, hquiet _ (quiet_sched htends.toGuards fun _ _ => trivial)⟩
  | futexWait uaddr value val waitTicks tick =>
    obtain ⟨k', hk', hwait⟩ := quiet_futexWait h.order horderly uaddr value val waitTicks tick
    exact ⟨_, congrArg (Option.map _) hk', hquiet _ hwait⟩
  | futexResume =>
    refine ⟨_, rfl, hquiet _ ?_⟩
    rw [futexResume]
    cases k.currentTask with
    | none => exact hrefl
    | some self => exact quiet_setFutexAddr h.order self 0
  | futexWake uaddr val =>
    exact ⟨_, rfl, hquiet _ (ends_futexWake h.order uaddr val).toDeparts⟩

/-- Every call of a run is in good order when it comes. -/
def OrderlyRun : Kernel × List Report → List TreeCall → Prop
  | _, [] => True
  | w, call :: calls => call.Orderly w.1 ∧ ∀ w', call.step w = some w' → OrderlyRun w' calls

lemma kept_run {calls : List TreeCall} (h : Kept k log) (hrun : OrderlyRun (k, log) calls) :
  ∃ k' log', calls.foldlM TreeCall.step (k, log) = some (k', log') ∧ Kept k' log'
  := by
  induction calls generalizing k log with
  | nil => exact ⟨k, log, rfl, h⟩
  | cons call calls ih =>
    obtain ⟨r, hr, hkept⟩ := kept_effect h hrun.1
    have hstep : call.step (k, log) = some (r.1, log ++ r.2) := by
      rw [TreeCall.step, hr]
      rfl
    obtain ⟨k', log', hrest, hkept'⟩ := ih hkept (hrun.2 _ hstep)
    exact ⟨k', log', by rw [foldlM_cons, hstep]; exact hrest, hkept'⟩

/-- A process tree in which nobody has ended. -/
structure Young (k : Kernel) : Prop where
  order : InOrder k.toSched
  family : k.view.Family
  alive (t : Tid) (p : ℕ) : t ∈ k.taskList → k.process t = some p →
    k.state t ≠ .zombie ∧ (k.processes p).exited = false

lemma Young.kept (h : Young k) : Kept k []
  := by
  have hexited : ∀ p, k.view.Attached p → (k.processes p).exited = false := by
    rintro p ⟨t, ht, hp⟩
    exact (h.alive t p ht hp).2
  refine ⟨h.order, h.family, ?_, ?_, ?_, ?_, ?_, nodup_nil, nodup_nil, ?_⟩
  · intro t ht hp hzombie
    obtain ⟨p, hp⟩ := ne_none_iff_exists'.mp hp
    exact absurd hzombie (h.alive t p ht hp).1
  · intro t p ht hp
    obtain ⟨hlive, hnot⟩ := h.alive t p ht hp
    simp [hlive, hnot]
  · intro p hp hex
    rw [hexited p hp] at hex
    cases hex
  · exact fun _ _ _ => not_mem_nil
  · exact fun _ _ => not_mem_nil
  · intro pid status hmem
    cases hmem

/-- From a tree in which nobody has ended, along every run of calls in good order: every process
ends once and is reported at most once, with the status of its end; a call of `wait4` reports a
process only if all its tasks are zombies, leaves nothing behind that refers to it, and reports
some child if one that is asked for has ended. -/
theorem wait4_exact (k : Kernel) (calls : List TreeCall) (h : Young k)
    (hrun : OrderlyRun (k, []) calls) :
  ∃ k' log, calls.foldlM TreeCall.step (k, []) = some (k', log)
    ∧ (log.filterMap Report.endedPid).Nodup ∧ (log.filterMap Report.reapedPid).Nodup
    ∧ (∀ pid status, .reaped pid status ∈ log →
      ∃ code, .ended pid code ∈ log ∧ status = code % 256 * 256)
    ∧ ∀ pid nohang, (TreeCall.wait4 pid nohang).Orderly k' →
      ∃ r k'', k'.sysWait4 pid nohang = some (r, k'')
        ∧ (∀ n x, r = .child n x →
          ∃ p, k'.view.Attached p ∧ (k'.processes p).pid = n ∧ Buried k' k'' p)
        ∧ (ChildEnded k' pid → ∃ n x, r = .child n x)
  := by
  obtain ⟨k', log, hk', hkept⟩ := kept_run h.kept hrun
  refine ⟨k', log, hk', hkept.ended_once, hkept.reaped_once, hkept.status, ?_⟩
  intro pid nohang horderly
  obtain ⟨r, k'', hr, -, hreport, hsome⟩ :=
    kept_sysWait4 hkept horderly.1 horderly.2 pid nohang
  exact ⟨r, k'', hr, hreport, hsome⟩

/-- Task 1 of process 0, with pid 2, runs; tasks 5 and 6 of its child, process 1 with pid 3, are
runnable. -/
def household : Kernel where
  toSched := (((Sched.boot (fun _ => prioNormal) (fun _ => .blocked) (fun _ => false)
    (some 9)).init 1).enqueue 5).enqueue 6
  taskList := [1, 5, 6]
  futexAddr _ := 0
  clearChildTid _ := 0
  process t := if t = 1 then some 0 else if t = 5 ∨ t = 6 then some 1 else none
  processes p :=
    { pid := 2 + p, parentPid := 2 * p, pgid := 2, cr3 := p + 1, vmShared := false
      handler := fun _ => 0, sigpending := 0, exitCode := 0, exited := false }
  nextPid := 4
  processCount := 2
  spaceCount := 3
  destroyed := []
  kernelCr3 := 0

lemma young_household : Young household
  := by
  have hattached : ∀ p, household.view.Attached p → p < 2 := by
    rintro p ⟨t, -, hp⟩
    simp only [view, household] at hp
    split_ifs at hp
    all_goals
      rw [← some.inj hp]
      decide
  refine ⟨?_, ⟨by decide, hattached, ?_, ?_⟩, ?_⟩
  · obtain ⟨q, hq⟩ := holds_init (fun _ => prioNormal) (fun _ => .blocked) (fun _ => false) (some 9) 1
    obtain ⟨q₅, hq₅⟩ := hq.enqueue_any 5
    have hhead : household.sleepQueueHead = none := by decide +kernel
    have hwaiters : household.ioWaiters = [] := by decide +kernel
    exact ⟨hq₅.enqueue_any 6, ⟨[], hhead, nodup_nil, List.Pairwise.nil⟩, hwaiters ▸ nodup_nil⟩
  · intro p hp
    have hlt := hattached p hp
    simp only [view, household, identity]
    omega
  · intro p q _ _ hpid
    exact Nat.add_left_cancel hpid
  · have hstate : (household.taskList.all fun t => household.state t != .zombie) := by
      decide +kernel
    exact fun t _ ht _ => ⟨bne_iff_ne.mp (all_eq_true.mp hstate t ht), rfl⟩

/-- What `wait4` asks of a kernel without sleepers, in which task 1 runs and two processes have spaces of their
own. -/
lemma orderly_wait4 (hcurrent : k.currentTask = some 1) (hstate : k.state 1 = .runnable)
    (hhead : k.sleepQueueHead = none) (hprocesses : k.taskList.map k.process = [some 0, some 1, some 1])
    (hspaces : (k.processes 0).cr3 ≠ (k.processes 1).cr3) (pid : ℤ) (nohang : Bool) :
  (TreeCall.wait4 pid nohang).Orderly k
  := by
  have htwo : ∀ t ∈ k.taskList, ∀ p, k.process t = some p → p = 0 ∨ p = 1 := by
    intro t ht p hp
    have hmem := mem_map_of_mem (f := k.process) ht
    rw [hprocesses, hp] at hmem
    simpa using hmem
  refine ⟨fun self hself => ?_, fun _ _ _ _ t ht p hp _ _ u hu q hq hne => ?_⟩
  · obtain rfl := some.inj (hcurrent.symm.trans hself)
    refine ⟨fun hzombie => ?_, fun l hl => ?_⟩
    · cases hstate.symm.trans hzombie
    rw [head?_eq_none_iff.mp (hl.path.head_eq.symm.trans hhead)]
    exact not_mem_nil
  · rcases htwo t ht p hp with rfl | rfl <;> rcases htwo u hu q hq with rfl | rfl
    · exact absurd rfl hne
    · exact hspaces.symm
    · exact hspaces
    · exact absurd rfl hne

/-- The child is killed, which ends it with 137, and `wait4` then reports it. -/
theorem wait4_exact_household :
  ∃ k' log, [TreeCall.kill (fun _ => []) false 3 sigkill, .wait4 3 false].foldlM TreeCall.step (household, [])
      = some (k', log)
    ∧ .reaped 3 (137 * 256) ∈ log ∧ (log.filterMap Report.reapedPid).Nodup
    ∧ ∃ code, .ended 3 code ∈ log ∧ 137 * 256 = code % 256 * 256
  := by
  have horderly : OrderlyRun (household, []) [.kill (fun _ => []) false 3 sigkill, .wait4 3 false] := by
    refine ⟨⟨?_, ?_⟩, fun w hw => ⟨?_, fun _ _ => trivial⟩⟩
    · rintro self hself ⟨p, hp, hmatch, -⟩
      obtain rfl := some.inj hself
      obtain rfl : 0 = p := some.inj hp
      exact absurd hmatch (by decide)
    · intro p t ht
      cases ht
    · have htasks : (TreeCall.step (household, []) (.kill (fun _ => []) false 3 sigkill)).map (fun w =>
          (w.1.currentTask, w.1.state 1, w.1.sleepQueueHead)) = some (some 1, .runnable, none) := by
        decide +kernel
      have hspaces : (TreeCall.step (household, []) (.kill (fun _ => []) false 3 sigkill)).map (fun w =>
          (w.1.taskList.map w.1.process, (w.1.processes 0).cr3, (w.1.processes 1).cr3))
          = some ([some 0, some 1, some 1], 1, 2) := by
        decide +kernel
      rw [hw, map_some, some.injEq, Prod.mk.injEq, Prod.mk.injEq] at htasks hspaces
      obtain ⟨hcurrent, hstate, hhead⟩ := htasks
      obtain ⟨hprocesses, hzero, hone⟩ := hspaces
      exact orderly_wait4 hcurrent hstate hhead hprocesses (by rw [hzero, hone]; decide) 3 false
  obtain ⟨k', log, hk', -, honce, hstatus, -⟩ := wait4_exact household _ young_household horderly
  have hlog : ([TreeCall.kill (fun _ => []) false 3 sigkill, .wait4 3 false].foldlM TreeCall.step
      (household, [])).map Prod.snd = some [.ended 3 137, .reaped 3 (137 * 256)] := by
    decide +kernel
  rw [hk', map_some, some.injEq] at hlog
  have hmem : .reaped 3 (137 * 256) ∈ log := by simp [show log = _ from hlog]
  exact ⟨k', log, hk', hmem, honce, hstatus 3 (137 * 256) hmem⟩

/-- Task 5 calls `exit`, and `wait4` reports its process and frees task 6, which is runnable. -/
theorem live_thread_reaped :
  (do
    let w₁ ← TreeCall.step (household, []) (.wait4 3 false)
    let w₂ ← TreeCall.step w₁ (.exit (fun _ => []) false 7)
    let w₃ ← TreeCall.step w₂ (.wait4 3 false)
    some (w₁.1.currentTask, w₂.1.state 6, w₃.2, w₃.1.taskList))
  = some (some 5, .runnable, [.reaped 3 1792], [1])
  := by
  decide +kernel

end Kernel
