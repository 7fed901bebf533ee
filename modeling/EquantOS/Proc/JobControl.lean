import EquantOS.Proc.Reaping

/-!
# Job control

`SIGSTOP` and `SIGTSTP` block the tasks of a process and `SIGCONT` unblocks them.  The state
of a stopped task is that of a task that waits: a stopped process stays off the run queues if
all its tasks were runnable, and none of them is on record with the sleep queue, a futex or a
device, when the signal came; and if no child of it ends.
-/

open Function List Option

/-- The kernel, with the tasks on record as `blocked_reader`, `blocked_writer` and so on at the
pipes, sockets, terminals and input devices. -/
structure System extends Kernel where
  waiter : ℕ → Option Tid

namespace System

open Sched Kernel Sched

/-- What can happen while a process is stopped.  `blockOn` is the wait of a read, write or
accept operation, `resume` its end, `wakeWaiter` what the other side does; `childEnd` is
`wake_parent_of`. -/
inductive WaitEvent where
  | yield
  | timerTick (tick : BitVec 32)
  | sleep (sleepUntil : ℕ)
  | ioWaitPrepare
  | ioWaitDone
  | ioWakeAll
  | futexWait (uaddr : ℕ) (value : Option ℕ) (val : ℕ) (waitTicks : Option ℕ) (tick : BitVec 32)
  | futexResume
  | futexWake (uaddr val : ℕ)
  | blockOn (i : ℕ)
  | resume (i : ℕ)
  | wakeWaiter (i : ℕ)
  | childEnd (p : ℕ)

def withKernel (w : System) (k : Kernel) : System := { w with toKernel := k }

/-- A change to the scheduler. -/
def changed (w : System) (s : Sched) : System := w.withKernel (w.toKernel.withSched s)

/-- Write the record of a device. -/
def setWaiter (w : System) (i : ℕ) (t : Option Tid) : System :=
  { w with waiter := Function.update w.waiter i t }

def WaitEvent.step (w : System) : WaitEvent → Option System
  | .yield => some (w.changed w.toSched.yield)
  | .timerTick tick => (w.toSched.timerTick tick).map w.changed
  | .sleep sleepUntil =>
    match w.currentTask with
    | none => some w
    | some task => (w.toSched.makeSleep task sleepUntil).map fun s => w.changed s.yield
  | .ioWaitPrepare => some (w.changed w.toSched.ioWaitPrepare)
  | .ioWaitDone => some (w.changed w.toSched.ioWaitDone)
  | .ioWakeAll => w.toSched.ioWakeAll.map w.changed
  | .futexWait uaddr value val waitTicks tick =>
    (w.toKernel.futexWait uaddr value val waitTicks tick).map w.withKernel
  | .futexResume => some (w.withKernel w.toKernel.futexResume)
  | .futexWake uaddr val => some (w.withKernel (w.toKernel.futexWake uaddr val))
  | .blockOn i =>
    match w.currentTask with
    | none => some w
    | some task => some ((w.setWaiter i (some task)).changed (w.toSched.block task).yield)
  | .resume i => some (w.setWaiter i none)
  | .wakeWaiter i =>
    match w.waiter i with
    | none => some w
    | some task => some ((w.changed (w.toSched.unblock task)).setWaiter i none)
  | .childEnd p => some (w.withKernel (w.toKernel.wakeParentOf p))

/-- The current task, if there is one, is not of the process. -/
def Foreign (w : System) (p : ℕ) : Prop := ∀ c, w.currentTask = some c → w.process c ≠ some p

/-- The current task, if there is one, is not on the sleep queue. -/
def CallerOff (w : System) : Prop :=
  ∀ c, w.currentTask = some c → ∀ l, w.toSleepQueue.Holds l → c ∉ l

/-- The events that spare process `p`: it does not do anything itself and no child of it ends.
Who goes to sleep is not on the sleep queue yet. -/
def WaitEvent.Spares (w : System) (p : ℕ) : WaitEvent → Prop
  | .sleep _ => Foreign w p ∧ CallerOff w
  | .futexWait _ _ _ _ _ => Foreign w p ∧ CallerOff w
  | .futexResume | .blockOn _ => Foreign w p
  | .childEnd child => (w.processes child).parentPid ≠ (w.processes p).pid
  | _ => True

/-- The task is left alone in the given state by the scheduler, and on record nowhere. -/
structure Idles (w : System) (t : Tid) (state : TaskState) : Prop where
  apart : Apart w.toSched t state
  futexAddr : w.futexAddr t = 0
  waiter (i : ℕ) : w.waiter i ≠ some t

/-! ### One event -/

variable {w w' : System} {k k' : Kernel} {p : ℕ} {t : Tid}

/-- From `w` to `w'` the tasks of process `p` are left alone, and no task or process changes. -/
structure Follows (p : ℕ) (w w' : System) : Prop where
  order : InOrder w'.toSched
  idles (t : Tid) (state : TaskState) : w.process t = some p → Idles w t state → Idles w' t state
  taskList : w'.taskList = w.taskList
  process : w'.process = w.process
  processes : w'.processes = w.processes

lemma Follows.changed {s : Sched} {T : Tid → Prop} (h : Guards T w.toSched s)
    (hT : ∀ t, w.process t = some p → (∃ state, Idles w t state) → T t) :
  Follows p w (w.changed s)
  where
  order := h.order
  idles t state hp hi :=
    ⟨h.keeps t state (hT t hp ⟨state, hi⟩) hi.apart, hi.futexAddr, hi.waiter⟩
  taskList := rfl
  process := rfl
  processes := rfl

/-- Writes to futex words and device records that do not put the tasks of the process on
record. -/
lemma Follows.record {s : Sched} {f : Tid → ℕ} {waiter : ℕ → Option Tid} {T : Tid → Prop}
    (h : Guards T w.toSched s)
    (hT : ∀ t, w.process t = some p → (∃ state, Idles w t state) → T t)
    (hfutex : ∀ t, w.process t = some p → w.futexAddr t = 0 → f t = 0)
    (hwaiter : ∀ t i, w.process t = some p → w.waiter i ≠ some t → waiter i ≠ some t) :
  Follows p w
    { w with toKernel := { w.toKernel with toSched := s, futexAddr := f }, waiter := waiter }
  where
  order := h.order
  idles t state hp hi :=
    ⟨h.keeps t state (hT t hp ⟨state, hi⟩) hi.apart, hfutex t hp hi.futexAddr,
      fun i => hwaiter t i hp (hi.waiter i)⟩
  taskList := rfl
  process := rfl
  processes := rfl

lemma Follows.refl (h : InOrder w.toSched) : Follows p w w
  := Follows.changed (Tends.refl (T := fun _ => True) h).toGuards fun _ _ _ => trivial

lemma Follows.trans {w'' : System} (h : Follows p w w') (h' : Follows p w' w'') : Follows p w w''
  where
  order := h'.order
  idles t state hp hi := h'.idles t state (by rw [h.process, hp]) (h.idles t state hp hi)
  taskList := h'.taskList.trans h.taskList
  process := h'.process.trans h.process
  processes := h'.processes.trans h.processes

lemma update_waiter_ne {f : ℕ → Option Tid} {x : Option Tid} {i j : ℕ} (hx : x ≠ some t)
    (hf : f j ≠ some t) :
  update f i x j ≠ some t
  := by
  by_cases hji : j = i
  · subst hji
    rwa [update_self]
  · rwa [update_of_ne hji]

/-- The current task is not of the process. -/
lemma ne_of_foreign {c : Tid} (h : Foreign w p) (hc : w.currentTask = some c)
    (ht : w.process t = some p) :
  t ≠ c
  := by
  rintro rfl
  exact h t hc ht

lemma follows_futexWait (h : InOrder w.toSched) (hforeign : Foreign w p) (hoff : CallerOff w)
    (uaddr : ℕ) (value : Option ℕ) (val : ℕ) (waitTicks : Option ℕ) (tick : BitVec 32) :
  ∃ w', WaitEvent.step w (.futexWait uaddr value val waitTicks tick) = some w' ∧ Follows p w w'
  := by
  rw [WaitEvent.step, futexWait]
  cases hself : w.currentTask with
  | none => exact ⟨w, rfl, Follows.refl h⟩
  | some self =>
    have hne : ∀ c, w.process c = some p → c ≠ self := fun c hc => ne_of_foreign hforeign hself hc
    have hfutex : ∀ c, w.process c = some p → w.futexAddr c = 0 →
        update w.futexAddr self uaddr c = 0 := by
      intro c hc hzero
      rwa [update_of_ne (hne c hc)]
    simp only
    split
    · cases waitTicks with
      | none =>
        have hblock := tends_block h self
        exact ⟨_, rfl, Follows.record hblock.switch
          (fun c hc _ => hne c hc) hfutex fun _ _ _ hw => hw⟩
      | some n =>
        obtain ⟨s, hs, hg⟩ := tends_makeSleep h (hoff self hself) (tick.toNat + max n 1)
        have hs' : (w.toKernel.setFutexAddr self uaddr).makeSleep self (tick.toNat + max n 1)
            = some s := hs
        refine ⟨_, by simp only [hs']; rfl, ?_⟩
        exact Follows.record hg.switch (fun c hc _ => hne c hc) hfutex
          fun _ _ _ hw => hw
    · exact ⟨w, rfl, Follows.refl h⟩

lemma follows_futexWake (h : InOrder w.toSched) (uaddr val : ℕ) :
  Follows p w (w.withKernel (w.toKernel.futexWake uaddr val))
  := by
  rw [futexWake]
  split
  · exact Follows.refl h
  next huaddr =>
  suffices hloop : ∀ (tasks : List Tid) (woken : ℕ) (w : System), InOrder w.toSched →
      Follows p w (w.withKernel (futexWakeLoop uaddr val woken tasks w.toKernel)) from
    hloop w.taskList 0 w h
  intro tasks
  induction tasks with
  | nil => exact fun _ w h => Follows.refl h
  | cons c tasks ih =>
    clear h
    intro woken w h
    rw [futexWakeLoop]
    split
    · next hc =>
      -- a task of the process that is on record nowhere does not wait for the word
      have hne : ∀ t, w.process t = some p → (∃ state, Idles w t state) → t ≠ c := by
        rintro t _ ⟨state, hi⟩ rfl
        exact huaddr (hc.symm.trans hi.futexAddr)
      have hfutex : ∀ t, w.process t = some p → w.futexAddr t = 0 →
          update w.futexAddr c 0 t = 0 := by
        intro t _ hzero
        by_cases htc : t = c
        · subst htc
          exact update_self ..
        · rwa [update_of_ne htc]
      have hone : Follows p w (w.withKernel (if (w.setFutexAddr c 0).state c = .blocked
          ∨ (w.setFutexAddr c 0).state c = .sleeping then
          (w.setFutexAddr c 0).withSched ((w.setFutexAddr c 0).unblock c)
          else w.setFutexAddr c 0)) := by
        split
        · exact Follows.record (tends_enqueue h c).toGuards hne hfutex fun _ _ _ hw => hw
        · exact Follows.record (Tends.refl h).toGuards hne hfutex fun _ _ _ hw => hw
      split
      · exact hone
      · exact hone.trans (ih _ _ hone.order)
    · exact ih _ _ h

lemma follows_step (h : InOrder w.toSched) (e : WaitEvent) (hspares : e.Spares w p) :
  ∃ w', e.step w = some w' ∧ Follows p w w'
  := by
  have hsame : Follows p w w := Follows.refl h
  have hall : ∀ s, Guards (fun _ => True) w.toSched s → Follows p w (w.changed s) :=
    fun s hs => Follows.changed hs fun _ _ _ => trivial
  cases e with
  | yield => exact ⟨_, rfl, hall _ (guards_switch h)⟩
  | timerTick tick =>
    obtain ⟨s, hs, hg⟩ := tends_timerTick h tick
    exact ⟨w.changed s, by rw [WaitEvent.step, hs]; rfl, hall s hg.toGuards⟩
  | sleep u =>
    rw [WaitEvent.step]
    cases hself : w.currentTask with
    | none => exact ⟨w, rfl, hsame⟩
    | some self =>
      obtain ⟨s, hs, hg⟩ := tends_makeSleep h (hspares.2 self hself) u
      refine ⟨w.changed s.yield, by simp only [hs]; rfl, ?_⟩
      exact Follows.changed hg.switch
        fun t ht _ => ne_of_foreign hspares.1 hself ht
  | ioWaitPrepare => exact ⟨_, rfl, hall _ (tends_ioWaitPrepare h).toGuards⟩
  | ioWaitDone => exact ⟨_, rfl, hall _ (tends_ioWaitDone h).toGuards⟩
  | ioWakeAll =>
    obtain ⟨s, hs, hg⟩ := tends_ioWakeAll h
    exact ⟨w.changed s, by rw [WaitEvent.step, hs]; rfl, hall s hg.toGuards⟩
  | futexWait uaddr value val waitTicks tick =>
    exact follows_futexWait h hspares.1 hspares.2 uaddr value val waitTicks tick
  | futexResume =>
    refine ⟨_, rfl, ?_⟩
    rw [futexResume]
    split
    · exact hsame
    next self hself =>
      refine Follows.record (Tends.refl (T := fun _ => True) h).toGuards (fun _ _ _ => trivial) ?_
        fun _ _ _ hw => hw
      intro c hc hzero
      rwa [update_of_ne (ne_of_foreign hspares hself hc)]
  | futexWake uaddr val => exact ⟨_, rfl, follows_futexWake h uaddr val⟩
  | blockOn i =>
    rw [WaitEvent.step]
    cases hself : w.currentTask with
    | none => exact ⟨w, rfl, hsame⟩
    | some self =>
      have hblock := tends_block h self
      refine ⟨_, rfl, Follows.record hblock.switch
        (fun c hc _ => ne_of_foreign hspares hself hc) (fun _ _ hz => hz) ?_⟩
      intro c j hc hj
      apply update_waiter_ne _ hj
      exact fun heq => ne_of_foreign hspares hself hc (some.inj heq).symm
  | resume i =>
    exact ⟨_, rfl, Follows.record (Tends.refl (T := fun _ => True) h).toGuards (fun _ _ _ => trivial)
      (fun _ _ hz => hz) fun _ _ _ hj => update_waiter_ne (some_ne_none _).symm hj⟩
  | wakeWaiter i =>
    rw [WaitEvent.step]
    cases hi : w.waiter i with
    | none => exact ⟨w, rfl, hsame⟩
    | some c =>
      refine ⟨_, rfl, Follows.record (tends_enqueue h c).toGuards ?_ (fun _ _ hz => hz)
        fun _ _ _ hj => update_waiter_ne (some_ne_none _).symm hj⟩
      rintro t _ ⟨state, hidle⟩ rfl
      exact hidle.waiter i hi
  | childEnd child =>
    refine ⟨_, rfl, Follows.changed (T := fun t => w.process t = some p) ?_ fun _ hp _ => hp⟩
    apply Tends.toGuards
    apply tends_unblockAll h
    intro s t ht hp
    simp only [processOf, hp, map_some, any_some, Bool.and_eq_true, beq_iff_eq] at ht
    exact hspares ht.1.symm

/-! ### Runs -/

/-- Every event of a run spares process `p` in the state in which it comes. -/
def SparedRun (p : ℕ) : System → List WaitEvent → Prop
  | _, [] => True
  | w, e :: events => e.Spares w p ∧ ∀ w', e.step w = some w' → SparedRun p w' events

lemma follows_run {events : List WaitEvent} (h : InOrder w.toSched)
    (hspared : SparedRun p w events) :
  ∃ w', events.foldlM WaitEvent.step w = some w' ∧ Follows p w w'
  := by
  induction events generalizing w with
  | nil => exact ⟨w, rfl, Follows.refl h⟩
  | cons e events ih =>
    obtain ⟨w₁, hw₁, hone⟩ := follows_step h e hspared.1
    obtain ⟨w₂, hw₂, hrest⟩ := ih hone.order (hspared.2 w₁ hw₁)
    refine ⟨w₂, ?_, hone.trans hrest⟩
    rw [foldlM_cons, hw₁]
    exact hw₂

end System

namespace Kernel

open Sched

variable {k k' : Kernel} {t : Tid}

/-! ### The loop of `kill` -/

/-- Do something to the tasks that are meant and alive. -/
def signalAll (op : Sched → Tid → Sched) (meant : Tid → Bool) (tasks : List Tid) (s : Sched) :
    Sched :=
  tasks.foldl (fun s t => if meant t && s.state t != .zombie then op s t else s) s

/-- The tasks that `kill` means. -/
def meant (k : Kernel) (pid : ℤ) (t : Tid) : Bool :=
  (k.process t).any fun p => k.matchesPid pid (k.processes p)

variable {closing : ℕ → List Wakeup}

/-- The loop of `kill` for a signal that does one thing to the scheduler. -/
lemma killLoop_eq {sig : ℕ} {op : Sched → Tid → Sched}
    (hsignal : ∀ k t p, signalTask closing k sig t p = some (false, k.withSched (op k.toSched t)))
    (hcurrent : ∀ s t, (op s t).currentTask = s.currentTask) (pid : ℤ) (tasks : List Tid) :
  ∀ (self : Bool) (k : Kernel), killLoop closing pid sig tasks self k
    = some (self, k.withSched (signalAll op (k.meant pid) tasks k.toSched))
  := by
  induction tasks with
  | nil => exact fun _ _ => rfl
  | cons t tasks ih =>
    intro self k
    have hmeant : ∀ s : Sched, s.currentTask = k.currentTask →
        (k.withSched s).meant pid = k.meant pid := by
      intro s hs
      funext c
      simp only [meant, Kernel.matchesPid, withSched, hs]
      rfl
    rw [killLoop, signalAll, foldl_cons]
    cases hp : k.process t with
    | none =>
      have hnot : k.meant pid t = false := by
        rw [meant, hp]
        rfl
      simp only [hnot]
      exact ih self k
    | some p =>
      have hiff : (k.meant pid t && k.state t != .zombie)
          ↔ k.state t ≠ .zombie ∧ k.matchesPid pid (k.processes p) := by
        simp [meant, hp, and_comm]
      simp only [hsignal, bind_eq_bind, bind_some]
      split
      · next hyes =>
        rw [if_pos (hiff.mpr hyes), Bool.or_false, ih, hmeant _ (hcurrent _ _)]
        rfl
      · next hno =>
        rw [if_neg fun h => hno (hiff.mp h)]
        exact ih self k

lemma signalTask_stop {sig : ℕ} (hsig : sig = sigstop ∨ sig = sigtstp) (k : Kernel) (t : Tid) (p : ℕ) :
  signalTask closing k sig t p = some (false, k.withSched (k.block t))
  := by rcases hsig with rfl | rfl <;> rfl

lemma signalTask_cont (k : Kernel) (t : Tid) (p : ℕ) :
  signalTask closing k sigcont t p = some (false, k.withSched (k.unblock t))
  := rfl

variable {s : Sched} {meant : Tid → Bool} {op : Sched → Tid → Sched} {T : Tid → Prop} {old : TaskState}
  {Goal : Sched → Tid → Prop}

lemma apart_block (h : InOrder s) (ha : ∃ state, Apart s t state) : Apart (s.block t) t .blocked
  := by
  obtain ⟨q, hq⟩ := h.run
  obtain ⟨state, ha⟩ := ha
  refine ⟨by decide, update_self .., .inr ?_, ?_⟩
  · exact queued_dequeue_self hq
  · have hsame : (s.block t).toSleepQueue = s.toSleepQueue := toSleepQueue_dequeue
    rw [hsame]
    exact ha.off

/-- The operation brings a task in the state `old` to the goal, and keeps every task there. -/
structure Moves (op : Sched → Tid → Sched) (old : TaskState) (Goal : Sched → Tid → Prop) : Prop where
  alive : old ≠ .zombie
  tends {s : Sched} (h : InOrder s) (c : Tid) : Tends (· ≠ c) s (op s c)
  reaches {s : Sched} {t : Tid} (h : InOrder s) (ha : Apart s t old) : Goal (op s t) t
  keeps {s : Sched} {t : Tid} (h : InOrder s) (c : Tid) (hg : Goal s t) : Goal (op s c) t

/-- The loop brings the tasks that are meant to the goal. -/
lemma Moves.signalAll (hm : Moves op old Goal)
    (h : InOrder s) (meant : Tid → Bool) (tasks : List Tid) :
  InOrder (signalAll op meant tasks s)
    ∧ (∀ t, Apart s t .zombie → Apart (Kernel.signalAll op meant tasks s) t .zombie)
    ∧ ∀ t, meant t → Apart s t old ∧ t ∈ tasks ∨ Goal s t →
      Goal (Kernel.signalAll op meant tasks s) t
  := by
  induction tasks generalizing s with
  | nil =>
    refine ⟨h, fun _ ha => ha, ?_⟩
    rintro t - (⟨-, hmem⟩ | ha)
    · cases hmem
    · exact ha
  | cons c tasks ih =>
    rw [Kernel.signalAll, foldl_cons]
    split
    · next hpass =>
      have hop := hm.tends h c
      obtain ⟨horder, hzombie, hgoal⟩ := ih hop.order
      rw [Bool.and_eq_true, bne_iff_ne] at hpass
      refine ⟨horder, ?_, ?_⟩
      · intro t ha
        apply hzombie t
        apply hop.keeps t _ _ ha
        rintro rfl
        exact hpass.2 ha.state_eq
      · intro t ht ha
        apply hgoal t ht
        rcases ha with ⟨ha, hmem⟩ | ha
        · by_cases htc : t = c
          · subst htc
            exact .inr (hm.reaches h ha)
          · exact .inl ⟨hop.keeps t _ htc ha, (mem_cons.mp hmem).resolve_left htc⟩
        · exact .inr (hm.keeps h c ha)
    · next hpass =>
      obtain ⟨horder, hzombie, hgoal⟩ := ih h
      refine ⟨horder, hzombie, ?_⟩
      intro t ht ha
      apply hgoal t ht
      rcases ha with ⟨ha, hmem⟩ | ha
      · refine .inl ⟨ha, (mem_cons.mp hmem).resolve_left ?_⟩
        rintro rfl
        simp [ht, ha.state_eq, hm.alive] at hpass
      · exact .inr ha

lemma moves_block : Moves block .runnable (Apart · · .blocked) where
  alive := by decide
  tends := tends_block
  reaches h ha := apart_block h ⟨_, ha⟩
  keeps {s t} h c ha := by
    by_cases htc : t = c
    · subst htc
      exact apart_block h ⟨_, ha⟩
    · exact (tends_block h c).keeps t _ htc ha

/-- A blocked task is unblocked. -/
lemma runnable_unblock (h : InOrder s) (ha : Apart s t .blocked) :
  (s.unblock t).state t = .runnable ∧ (s.unblock t).queued t
  := by
  obtain ⟨q, hq⟩ := h.run
  have hnot : s.queued t = false := ha.unqueued.resolve_left (by decide)
  have hput := hq.enqueue ((hq.not_queued_iff t).mp hnot)
  refine ⟨?_, ?_⟩
  · rw [unblock, enqueue, hnot]
    exact update_self ..
  · rw [unblock, hput.queued_iff, prio_enqueue]
    simp

lemma moves_unblock :
  Moves unblock .blocked fun s t => s.state t = .runnable ∧ s.queued t = true where
  alive := by decide
  tends := tends_enqueue
  reaches := runnable_unblock
  keeps {s t} h c hg := by
    obtain ⟨q, hq⟩ := h.run
    by_cases htc : t = c
    · subst htc
      rw [unblock, enqueue, if_pos hg.2]
      exact hg
    · exact ⟨(state_enqueue_of_ne htc).trans hg.1, (queued_enqueue_of_ne hq htc).trans hg.2⟩

end Kernel

namespace System

open Sched Kernel

variable {w : System} {k : Kernel} {p : ℕ} {t : Tid}

/-! ### Stopping and continuing -/

/-- All tasks of the process that are not zombies are runnable, and all are on record
nowhere. -/
def AllRunnable (w : System) (p : ℕ) : Prop :=
  ∀ t ∈ w.taskList, w.process t = some p → Idles w t .runnable ∨ Idles w t .zombie

lemma meant_of_matchesPid {pid : ℤ} (hp : k.process t = some p)
    (hmatch : k.matchesPid pid (k.processes p)) :
  k.meant pid t
  := by rwa [meant, hp]

/-- `kill` with a signal that does one thing to the scheduler. -/
lemma sysKill_moves (hm : Moves op old Goal)
    {pid : ℤ} {sig : ℕ} (closing : ℕ → List Wakeup)
    (hsignal : ∀ k t p, signalTask closing k sig t p = some (false, k.withSched (op k.toSched t)))
    (hcurrent : ∀ s t, (op s t).currentTask = s.currentTask) (h : InOrder w.toSched)
    (hmatch : w.matchesPid pid (w.processes p)) (writable : Bool) :
  ∃ k, sysKill closing writable w.toKernel pid sig = some k ∧ InOrder k.toSched
    ∧ k.taskList ⊆ w.taskList ∧ (∀ t, k.process t = some p → w.process t = some p)
    ∧ (∀ t, Idles w t .zombie → Idles (w.withKernel k) t .zombie)
    ∧ ∀ t ∈ w.taskList, w.process t = some p → Idles w t old →
      t ∈ k.taskList ∧ k.process t = some p ∧ Goal k.toSched t ∧ k.futexAddr t = 0
  := by
  obtain ⟨k₁, hk₁, hreaps⟩ := reaps_reapOrphanZombies h
  obtain ⟨horder, hzombie, hgoal⟩ := hm.signalAll hreaps.guards.order (k₁.meant pid) k₁.taskList
  refine ⟨k₁.withSched (signalAll op (k₁.meant pid) k₁.taskList k₁.toSched), ?_, horder,
    hreaps.taskList.subset, fun t => hreaps.process t p, ?_, ?_⟩
  · simp only [sysKill, hk₁, killLoop_eq hsignal hcurrent]
    rfl
  · intro t hi
    refine ⟨hzombie t (hreaps.guards.keeps t _ trivial hi.apart), ?_, hi.waiter⟩
    exact (congrFun hreaps.futexAddr t).trans hi.futexAddr
  · intro t ht hp hi
    have hlive := hreaps.live t (by rw [hi.apart.state_eq]; exact hm.alive)
    have hp₁ : k₁.process t = some p := hlive.2.trans hp
    have hmeant : k₁.meant pid t := by
      apply meant_of_matchesPid hp₁
      rw [hreaps.matchesPid, hreaps.processes]
      exact hmatch
    have hapart := hreaps.guards.keeps t _ trivial hi.apart
    refine ⟨hlive.1 ht, hp₁, hgoal t hmeant (.inl ⟨hapart, hlive.1 ht⟩), ?_⟩
    exact (congrFun hreaps.futexAddr t).trans hi.futexAddr

/-- A process all of whose tasks are runnable, and on record nowhere, is stopped.  In every run
of events that spare it, none of its tasks is on a run queue; and `SIGCONT` then makes just
those of its tasks runnable that were runnable when it was stopped. -/
theorem stopped_until_continued (w : System) (p : ℕ) (pid : ℤ) (sig : ℕ)
    (closing : ℕ → List Wakeup) (writable : Bool) (horder : InOrder w.toSched)
    (hsig : sig = sigstop ∨ sig = sigtstp) (hmatch : w.matchesPid pid (w.processes p) = true)
    (hall : AllRunnable w p) :
  ∃ k₁, sysKill closing writable w.toKernel pid sig = some k₁
    ∧ ∀ events, SparedRun p (w.withKernel k₁) events →
      ∃ w₂, events.foldlM WaitEvent.step (w.withKernel k₁) = some w₂
        ∧ (∀ t ∈ w₂.taskList, w₂.process t = some p → w₂.queued t = false)
        ∧ ∀ pid' closing' writable', w₂.matchesPid pid' (w₂.processes p) = true →
          ∃ k₃, sysKill closing' writable' w₂.toKernel pid' sigcont = some k₃
            ∧ (∀ t ∈ w.taskList, w.process t = some p → w.state t = .runnable →
              t ∈ k₃.taskList ∧ k₃.process t = some p ∧ k₃.state t = .runnable
                ∧ k₃.queued t = true)
            ∧ ∀ t ∈ k₃.taskList, k₃.process t = some p → k₃.state t = .runnable →
              w.state t = .runnable
  := by
  obtain ⟨k₁, hk₁, horder₁, hlist₁, hprocess₁, hzombie₁, hmoved⟩ := sysKill_moves moves_block
    closing (signalTask_stop hsig) (fun _ _ => currentTask_dequeue) horder hmatch writable
  have hstop : ∀ t ∈ w.taskList, w.process t = some p → Idles w t .runnable →
      t ∈ k₁.taskList ∧ k₁.process t = some p ∧ Idles (w.withKernel k₁) t .blocked := by
    intro t ht hp hi
    obtain ⟨ht₁, hp₁, hblocked, haddr⟩ := hmoved t ht hp hi
    exact ⟨ht₁, hp₁, hblocked, haddr, hi.waiter⟩
  refine ⟨k₁, hk₁, ?_⟩
  intro events hspared
  obtain ⟨w₂, hw₂, hfollows⟩ := follows_run horder₁ hspared
  -- what each task of the process that is left was, and what it is now
  have htasks : ∀ t ∈ w₂.taskList, w₂.process t = some p →
      w.state t = .runnable ∧ Idles w₂ t .blocked ∨ Idles w₂ t .zombie := by
    intro t ht hp
    rw [hfollows.taskList] at ht
    rw [hfollows.process] at hp
    rcases hall t (hlist₁ ht) (hprocess₁ t hp) with hi | hi
    · obtain ⟨-, -, hblocked⟩ := hstop t (hlist₁ ht) (hprocess₁ t hp) hi
      exact .inl ⟨hi.apart.state_eq, hfollows.idles t _ hp hblocked⟩
    · exact .inr (hfollows.idles t _ hp (hzombie₁ t hi))
  refine ⟨w₂, hw₂, ?_, ?_⟩
  · intro t ht hp
    rcases htasks t ht hp with ⟨-, hi⟩ | hi
    · exact hi.apart.unqueued.resolve_left (by decide)
    · exact hi.apart.unqueued.resolve_left (by decide)
  · intro pid' closing' writable' hmatch'
    obtain ⟨k₃, hk₃, -, hlist₃, hprocess₃, hzombie₃, hcont⟩ := sysKill_moves moves_unblock
      closing' signalTask_cont (fun _ _ => currentTask_enqueue) hfollows.order hmatch'
      writable'
    refine ⟨k₃, hk₃, ?_, ?_⟩
    · intro t ht hp hrunnable
      rcases hall t ht hp with hi | hi
      · obtain ⟨ht₁, hp₁, hblocked⟩ := hstop t ht hp hi
        have hi₂ := hfollows.idles t _ hp₁ hblocked
        obtain ⟨ht₃, hp₃, hgoal, -⟩ := hcont t (by rw [hfollows.taskList]; exact ht₁)
          (by rw [hfollows.process]; exact hp₁) hi₂
        exact ⟨ht₃, hp₃, hgoal⟩
      · rw [hi.apart.state_eq] at hrunnable
        cases hrunnable
    · intro t ht hp hrunnable
      rcases htasks t (hlist₃ ht) (hprocess₃ t hp) with ⟨hstate, -⟩ | hi
      · exact hstate
      · cases (hzombie₃ t hi).apart.state_eq.symm.trans hrunnable

/-- Task 1 of process 0, with pid 7, runs; task 3 of process 1, with pid 8, is runnable. -/
def jobs : System where
  toSched := ((boot (fun _ => prioNormal) (fun _ => .blocked) (fun _ => false)
    (some 2)).init 1).enqueue 3
  taskList := [1, 2, 3]
  futexAddr _ := 0
  clearChildTid _ := 0
  process t := if t = 1 then some 0 else if t = 3 then some 1 else none
  processes p :=
    { pid := 7 + p, parentPid := 1, pgid := 7 + p, cr3 := p + 1, vmShared := false
      handler := fun _ => 0, sigpending := 0, exitCode := 0, exited := false }
  nextPid := 9
  processCount := 2
  spaceCount := 3
  destroyed := []
  kernelCr3 := 0
  waiter _ := none

lemma inOrder_jobs : InOrder jobs.toSched
  := by
  obtain ⟨q, hq⟩ := holds_init (fun _ => prioNormal) (fun _ => .blocked) (fun _ => false) (some 2) 1
  have hhead : jobs.sleepQueueHead = none := by decide +kernel
  have hwaiters : jobs.ioWaiters = [] := by decide +kernel
  exact ⟨hq.enqueue_any 3, ⟨[], hhead, nodup_nil, List.Pairwise.nil⟩, hwaiters ▸ nodup_nil⟩

theorem stopped_until_continued_jobs :
  ∃ k₁ w₂, sysKill (fun _ => []) true jobs.toKernel 7 sigstop = some k₁
    ∧ [WaitEvent.yield, .timerTick 1].foldlM WaitEvent.step (jobs.withKernel k₁) = some w₂
    ∧ ∀ t ∈ w₂.taskList, w₂.process t = some 0 → w₂.queued t = false
  := by
  have hidles : Idles jobs 1 .runnable := by
    refine ⟨⟨by decide, by decide +kernel, .inl rfl, ?_⟩, rfl, fun _ => (some_ne_none _).symm⟩
    intro l hl
    have hpath := hl.path.head_eq
    rw [head?_eq_none_iff.mp hpath.symm]
    exact not_mem_nil
  have hall : AllRunnable jobs 0 := by
    intro t ht hp
    have htask : t = 1 := by
      revert ht hp
      simp only [jobs]
      intro ht hp
      split_ifs at hp with h₁ h₂
      · exact h₁
      · cases hp
    subst htask
    exact .inl hidles
  obtain ⟨k₁, hk₁, hrun⟩ := stopped_until_continued jobs 0 7 sigstop (fun _ => []) true inOrder_jobs
    (.inl rfl) (by decide) hall
  obtain ⟨w₂, hw₂, hqueued, -⟩ := hrun [.yield, .timerTick 1]
    ⟨trivial, fun _ _ => ⟨trivial, fun _ _ => trivial⟩⟩
  exact ⟨k₁, w₂, hk₁, hw₂, hqueued⟩

/-- Task 1 is stopped in `nanosleep` and put on a run queue by the timer; or it is stopped in a
read and made runnable by `SIGCONT`. -/
theorem stopped_sleeper_runs :
  (do
    let w₁ ← WaitEvent.step jobs (.sleep 5)
    let k₂ ← sysKill (fun _ => []) true w₁.toKernel 7 sigstop
    let w₃ ← WaitEvent.step (w₁.withKernel k₂) (.timerTick 5)
    some (k₂.state 1, w₃.state 1, w₃.queued 1)) = some (.blocked, .runnable, true)
  ∧ (do
    let w₁ ← WaitEvent.step jobs (.blockOn 0)
    let k₂ ← sysKill (fun _ => []) true w₁.toKernel 7 sigstop
    let k₃ ← sysKill (fun _ => []) true k₂ 7 sigcont
    some (w₁.state 1, k₃.state 1)) = some (.blocked, .runnable)
  := by
  constructor <;> decide +kernel

end System
