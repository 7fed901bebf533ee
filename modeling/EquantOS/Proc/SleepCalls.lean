import EquantOS.Proc.Kernel
import EquantOS.Proc.Sleepers

/-!
# Calls and the sleep queue

The sleep queue over runs of the calls that put tasks to sleep and wake them.  A task that
sleeps is woken in order by the timer and by `sched_wake` only: a call that blocks, unblocks
or forgets it otherwise leaves it on the queue in another state, or in its state off the
queue.
-/

open Function Option

namespace Kernel

open Sched Sched

variable {k k' : Kernel} {t : Tid}

/-- From `k` to `k'` no task falls asleep, no task or process changes hands, and the queues
are in order. -/
structure Calms (k k' : Kernel) : Prop where
  awake : Awake k'.toSched
  wakes : Wakes k.toSched k'.toSched
  taskList : k'.taskList ⊆ k.taskList
  process (t : Tid) (p : ℕ) : k'.process t = some p → k.process t = some p
  pid (p : ℕ) : (k'.processes p).pid = (k.processes p).pid
  pgid (p : ℕ) : (k'.processes p).pgid = (k.processes p).pgid
  handler (p : ℕ) : (k'.processes p).handler = (k.processes p).handler
  futexAddr (t : Tid) (a : ℕ) : a ≠ 0 → k'.futexAddr t = a → k.futexAddr t = a
  clearChildTid : k'.clearChildTid = k.clearChildTid

lemma Calms.refl (h : Awake k.toSched) : Calms k k
  := ⟨h, Wakes.refl _, fun _ h => h, fun _ _ h => h, fun _ => rfl, fun _ => rfl, fun _ => rfl,
    fun _ _ _ h => h, rfl⟩

lemma Calms.trans {k'' : Kernel} (h : Calms k k') (h' : Calms k' k'') : Calms k k''
  where
  awake := h'.awake
  wakes := h.wakes.trans h'.wakes
  taskList := fun _ ht => h.taskList (h'.taskList ht)
  process t p ht := h.process t p (h'.process t p ht)
  pid p := (h'.pid p).trans (h.pid p)
  pgid p := (h'.pgid p).trans (h.pgid p)
  handler p := (h'.handler p).trans (h.handler p)
  futexAddr t a ha ht := h.futexAddr t a ha (h'.futexAddr t a ha ht)
  clearChildTid := h'.clearChildTid.trans h.clearChildTid

/-- A change to the scheduler only. -/
lemma Calms.withSched {s : Sched} (h : Awake s) (hw : Wakes k.toSched s) :
  Calms k (k.withSched s)
  := ⟨h, hw, fun _ h => h, fun _ _ h => h, fun _ => rfl, fun _ => rfl, fun _ => rfl,
    fun _ _ _ h => h, rfl⟩

/-- A change to a process that leaves its numbers and handlers alone. -/
lemma Calms.modProcess (h : Awake k.toSched) (p : ℕ) {f : Process → Process}
    (hf : ∀ q, (f q).pid = q.pid ∧ (f q).pgid = q.pgid ∧ (f q).handler = q.handler) :
  Calms k (k.modProcess p f)
  := by
  have hall : ∀ r, ((k.modProcess p f).processes r).pid = (k.processes r).pid
      ∧ ((k.modProcess p f).processes r).pgid = (k.processes r).pgid
      ∧ ((k.modProcess p f).processes r).handler = (k.processes r).handler := by
    intro r
    simp only [Kernel.modProcess]
    by_cases hr : r = p
    · subst hr
      rw [update_self]
      exact hf _
    · rw [update_of_ne hr]
      exact ⟨rfl, rfl, rfl⟩
  exact ⟨h, Wakes.refl _, fun _ h => h, fun _ _ h => h, fun r => (hall r).1, fun r => (hall r).2.1,
    fun r => (hall r).2.2, fun _ _ _ h => h, rfl⟩

/-! ### Waking -/

/-- The tasks that a list of wake-ups unblocks are awake. -/
def WakeupsAwake (s : Sched) (wakeups : List Wakeup) : Prop :=
  ∀ t, Wakeup.unblock t ∈ wakeups → s.state t ≠ .sleeping

lemma calms_closeProcessFiles (h : Awake k.toSched) (wakeups : List Wakeup)
    (hawake : WakeupsAwake k.toSched wakeups) :
  ∃ k', k.closeProcessFiles wakeups = some k' ∧ Calms k k'
  := by
  have hloop : ∀ (wakeups : List Wakeup) (s : Sched), Awake s → WakeupsAwake s wakeups →
      ∃ s', wakeups.foldlM Wakeup.run s = some s' ∧ Awake s' ∧ Wakes s s' := by
    intro wakeups
    induction wakeups with
    | nil => exact fun s h _ => ⟨s, rfl, h, Wakes.refl s⟩
    | cons w wakeups ih =>
      intro s h hawake
      have hone : ∃ s₁, Wakeup.run s w = some s₁ ∧ Awake s₁ ∧ Wakes s s₁ := by
        cases w with
        | unblock t => exact ⟨_, rfl, h.enqueue (hawake t (by simp)), wakes_enqueue s t⟩
        | ioWakeAll => exact h.ioWakeAll
      obtain ⟨s₁, hs₁, h₁, hw₁⟩ := hone
      obtain ⟨s₂, hs₂, h₂, hw₂⟩ := ih s₁ h₁ fun t ht hsleep =>
        hawake t (by simp [ht]) (hw₁.sleeping t hsleep)
      refine ⟨s₂, ?_, h₂, hw₁.trans hw₂⟩
      rw [List.foldlM_cons, hs₁]
      exact hs₂
  obtain ⟨s', hs', h', hw⟩ := hloop wakeups k.toSched h hawake
  refine ⟨k.withSched s', ?_, Calms.withSched h' hw⟩
  rw [closeProcessFiles, hs']
  rfl

lemma awake_unblockAll {s : Sched} (h : Awake s) (test : Sched → Tid → Bool)
    (htest : ∀ s t, test s t → s.state t = .blocked) (tasks : List Tid) :
  Awake (unblockAll test tasks s) ∧ Wakes s (unblockAll test tasks s)
  := by
  induction tasks generalizing s with
  | nil => exact ⟨h, Wakes.refl s⟩
  | cons t tasks ih =>
    rw [unblockAll, List.foldl_cons]
    split
    · next hpass =>
      have hne : s.state t ≠ .sleeping := by
        rw [htest s t hpass]
        decide
      have hrest := ih (h.enqueue hne)
      exact ⟨hrest.1, (wakes_enqueue s t).trans hrest.2⟩
    · exact ih h

section

variable (h : Awake k.toSched)

include h

lemma calms_wakeParentOf (p : ℕ) : Calms k (k.wakeParentOf p)
  := by
  obtain ⟨hawake, hwakes⟩ := awake_unblockAll h (fun s t =>
    (k.processOf t).any (fun parent => parent.pid == (k.processes p).parentPid)
      && s.state t == .blocked) (by simp) k.taskList
  exact Calms.withSched hawake hwakes

/-- Wake a task that is not asleep. -/
lemma calms_unblock (ht : k.state t ≠ .sleeping) :
  Calms k (k.withSched (k.unblock t))
  := Calms.withSched (h.enqueue ht) (wakes_enqueue k.toSched t)

/-! ### The end of tasks -/

lemma calms_processTerminateTask {closing : ℕ → List Wakeup}
    (hclosing : ∀ p, WakeupsAwake k.toSched (closing p)) (t : Tid) (code : ℤ) :
  ∃ k', processTerminateTask closing k t code = some k' ∧ Calms k k'
  := by
  obtain ⟨s, hs, h₁, hw₁⟩ := h.terminate t
  have hc₁ : Calms k (k.withSched s) := Calms.withSched h₁ hw₁
  rw [processTerminateTask, hs]
  simp only [bind_eq_bind, bind_some]
  cases (k.withSched s).process t with
  | none => exact ⟨_, rfl, hc₁⟩
  | some p =>
    simp only
    have hc₂ := hc₁.trans (Calms.modProcess (k := k.withSched s) h₁ p
      (f := fun q => { q with exitCode := code, exited := true }) fun _ => ⟨rfl, rfl, rfl⟩)
    split
    · exact ⟨_, rfl, hc₂⟩
    obtain ⟨k₃, hk₃, hc₃⟩ := calms_closeProcessFiles hc₂.awake (closing p)
      fun c hc hsleep => hclosing p c hc (hc₂.wakes.sleeping c hsleep)
    rw [hk₃]
    exact ⟨_, rfl, (hc₂.trans hc₃).trans (calms_wakeParentOf hc₃.awake p)⟩

lemma Calms.setFutexAddr (t : Tid) : Calms k (k.setFutexAddr t 0)
  := by
  refine ⟨h, Wakes.refl _, fun _ h => h, fun _ _ h => h, fun _ => rfl, fun _ => rfl,
    fun _ => rfl, ?_, rfl⟩
  intro c a ha hca
  simp only [Kernel.setFutexAddr] at hca
  by_cases hct : c = t
  · subst hct
    rw [update_self] at hca
    exact absurd hca.symm ha
  · rwa [update_of_ne hct] at hca

/-- `FUTEX_WAKE` of a word on which no sleeping task waits. -/
lemma calms_futexWake {uaddr : ℕ}
    (hwait : uaddr ≠ 0 → ∀ t ∈ k.taskList, k.futexAddr t = uaddr → k.state t ≠ .sleeping)
    (val : ℕ) :
  Calms k (k.futexWake uaddr val)
  := by
  rw [futexWake]
  split
  · exact Calms.refl h
  next huaddr =>
  suffices hloop : ∀ (tasks : List Tid) (woken : ℕ) (k : Kernel), Awake k.toSched →
      (∀ t ∈ tasks, k.futexAddr t = uaddr → k.state t ≠ .sleeping) →
      Calms k (futexWakeLoop uaddr val woken tasks k) from
    hloop k.taskList 0 k h (hwait huaddr)
  intro tasks
  induction tasks with
  | nil => exact fun _ k h _ => Calms.refl h
  | cons t tasks ih =>
    clear h hwait
    intro woken k h hwait
    rw [futexWakeLoop]
    split
    · next heq =>
      have hc₁ := Calms.setFutexAddr h t
      have hawake : (k.setFutexAddr t 0).state t ≠ .sleeping := hwait t (by simp) heq
      have hc₂ : Calms k (if (k.setFutexAddr t 0).state t = .blocked
          ∨ (k.setFutexAddr t 0).state t = .sleeping then
          (k.setFutexAddr t 0).withSched ((k.setFutexAddr t 0).unblock t)
          else k.setFutexAddr t 0) := by
        split
        · exact hc₁.trans (calms_unblock hc₁.awake hawake)
        · exact hc₁
      split
      · exact hc₂
      apply hc₂.trans
      apply ih _ _ hc₂.awake
      intro c hc hca hsleep
      exact hwait c (by simp [hc]) (hc₂.futexAddr c uaddr huaddr hca)
        (hc₂.wakes.sleeping c hsleep)
    · exact ih _ _ h fun c hc => hwait c (by simp [hc])

lemma calms_freeTaskStruct (ht : k.state t ≠ .sleeping) :
  ∃ k', k.freeTaskStruct t = some k' ∧ Calms k k'
  := by
  obtain ⟨s, hs, h₁, hw₁⟩ := h.forget ht
  rw [freeTaskStruct, hs]
  exact ⟨_, rfl, h₁, hw₁, fun _ hc => List.mem_of_mem_erase hc, fun _ _ h => h, fun _ => rfl,
    fun _ => rfl, fun _ => rfl, fun _ _ _ h => h, rfl⟩

lemma calms_dropProcess (t : Tid) : Calms k (k.dropProcess t)
  := by
  have hprocess : ∀ c p, update k.process t none c = some p → k.process c = some p := by
    intro c p hc
    by_cases hct : c = t
    · subst hct
      rw [update_self] at hc
      cases hc
    · rwa [update_of_ne hct] at hc
  rw [dropProcess]
  split
  · exact Calms.refl h
  · simp only
    split <;> exact ⟨h, Wakes.refl _, fun _ h => h, hprocess, fun _ => rfl, fun _ => rfl,
      fun _ => rfl, fun _ _ _ h => h, rfl⟩

/-- `release_task` of a zombie without siblings. -/
lemma calms_releaseTask (ht : k.orphan t) :
  ∃ k', k.releaseTask t = some k' ∧ Calms k k'
  := by
  have hzombie : k.state t ≠ .sleeping := by
    simp only [orphan, Bool.and_eq_true, beq_iff_eq] at ht
    rw [ht.1.1.2]
    decide
  obtain ⟨k₁, hk₁, hc₁⟩ := calms_freeTaskStruct h hzombie
  have hfirst : k.freeSiblings t = some k := by
    rw [freeSiblings, siblings_of_orphan ht]
    split <;> rfl
  simp only [releaseTask, hfirst, bind_eq_bind, bind_some, hk₁]
  exact ⟨_, rfl, hc₁.trans (calms_dropProcess hc₁.awake t)⟩

lemma calms_reapOrphanZombies :
  ∃ k', k.reapOrphanZombies = some k' ∧ Calms k k'
  := by
  suffices hloop : ∀ (fuel : ℕ) (k : Kernel), Awake k.toSched →
      ∃ k', reapLoop fuel k = some k' ∧ Calms k k' from hloop _ k h
  intro fuel
  induction fuel with
  | zero => exact fun k h => ⟨k, rfl, Calms.refl h⟩
  | succ fuel ih =>
    intro k h
    rw [reapLoop]
    cases hfind : k.taskList.find? k.orphan with
    | none => exact ⟨k, rfl, Calms.refl h⟩
    | some t =>
      obtain ⟨k₁, hk₁, hc₁⟩ := calms_releaseTask h (List.find?_some hfind)
      obtain ⟨k₂, hk₂, hc₂⟩ := ih k₁ hc₁.awake
      simp only [hk₁]
      exact ⟨k₂, hk₂, hc₁.trans hc₂⟩

/-- What `sys_exit_handler` does to the process. -/
lemma calms_leaveProcess (closing : ℕ → List Wakeup)
    (hclosing : ∀ p, WakeupsAwake k.toSched (closing p)) (t : Tid) (code : ℤ) :
  ∃ k', leaveProcess closing k t code = some k' ∧ Calms k k'
  := by
  rw [leaveProcess]
  cases k.process t with
  | none => exact ⟨k, rfl, Calms.refl h⟩
  | some p =>
    simp only
    have hc₁ := Calms.modProcess h p
      (f := fun q => { q with exitCode := code, exited := true }) fun _ => ⟨rfl, rfl, rfl⟩
    split
    · exact ⟨_, rfl, hc₁.trans (calms_wakeParentOf hc₁.awake p)⟩
    obtain ⟨k₂, hk₂, hc₂⟩ := calms_closeProcessFiles hc₁.awake (closing p)
      fun c hc hsleep => hclosing p c hc (hc₁.wakes.sleeping c hsleep)
    rw [hk₂]
    exact ⟨_, rfl, (hc₁.trans hc₂).trans (calms_wakeParentOf hc₂.awake p)⟩

end

/-- No sleeping task waits for the end of the current task. -/
def EndAwaited (k : Kernel) : Prop :=
  ∀ self, k.currentTask = some self → k.clearChildTid self ≠ 0 →
    ∀ t ∈ k.taskList, k.futexAddr t = k.clearChildTid self → k.state t ≠ .sleeping

lemma EndAwaited.of_calms (h : EndAwaited k) (hc : Calms k k') : EndAwaited k'
  := by
  intro self hself hne t ht hwait hsleep
  rw [hc.wakes.current] at hself
  rw [hc.clearChildTid] at hne hwait
  exact h self hself hne t (hc.taskList ht) (hc.futexAddr t _ hne hwait)
    (hc.wakes.sleeping t hsleep)

/-- `sys_exit_handler` of a task that is not the idle task, if no sleeping task waits for its
end. -/
lemma awake_sysExit (h : Awake k.toSched) (hidle : k.idleTask ≠ k.currentTask)
    (closing : ℕ → List Wakeup) (hclosing : ∀ p, WakeupsAwake k.toSched (closing p))
    (hend : EndAwaited k) (writable : Bool) (code : ℤ) :
  ∃ k', sysExit closing writable k code = some k' ∧ Awake k'.toSched ∧ Naps k.toSched k'.toSched
  := by
  rw [sysExit]
  cases hself : k.currentTask with
  | none => exact ⟨_, rfl, h.switch, naps_switch _⟩
  | some self =>
    have hclear : Awake (clearTid writable k self).toSched
        ∧ Wakes k.toSched (clearTid writable k self).toSched := by
      rw [clearTid]
      split_ifs with hzero hwritable
      · exact ⟨h, Wakes.refl _⟩
      · have hc := calms_futexWake h (hend self hself) 1
        exact ⟨hc.awake, hc.wakes⟩
      · exact ⟨h, Wakes.refl _⟩
    obtain ⟨h₁, hw₁⟩ := hclear
    obtain ⟨k₂, hk₂, hc₂⟩ := calms_leaveProcess h₁ closing (fun p c hc hsleep =>
      hclosing p c hc (hw₁.sleeping c hsleep)) self code
    simp only [hk₂]
    have hw := (hw₁.trans hc₂.wakes).trans (wakes_stop (show TaskState.zombie ≠ .sleeping by decide) _ self)
    refine ⟨_, rfl, hc₂.awake.stop_switch (by decide) ?_ ?_, hw.trans_naps (naps_switch _)⟩
    · exact (hc₂.wakes.current.trans hw₁.current).trans hself
    · rw [hc₂.wakes.idle, hw₁.idle, ← hself]
      exact hidle

/-! ### Signals -/

/-- The sleeping tasks that `kill` means are killed by the signal, or ignore it. -/
def SignalsAwake (k : Kernel) (pid : ℤ) (sig : ℕ) : Prop :=
  ∀ t ∈ k.taskList, ∀ p, k.process t = some p → k.matchesPid pid (k.processes p) = true →
    (sig = sigstop ∨ sig = sigtstp ∨ sig = sigcont
      ∨ (sig = sigint ∨ sig = sigquit ∨ sig = sigwinch) ∧ 1 < (k.processes p).handler sig) →
    k.state t ≠ .sleeping

lemma calms_postSignal (h : Awake k.toSched) (p sig : ℕ) (ht : k.state t ≠ .sleeping) :
  Calms k (k.postSignal p sig t)
  := by
  have hc := Calms.modProcess h p (f := fun q => { q with
    sigpending := q.sigpending ||| 1#64 <<< (sig - 1) }) fun _ => ⟨rfl, rfl, rfl⟩
  rw [postSignal]
  split
  · exact hc.trans (calms_unblock hc.awake ht)
  · exact hc

variable {closing : ℕ → List Wakeup} {pid : ℤ} {sig : ℕ}

section

variable (h : Awake k.toSched) (hclosing : ∀ p, WakeupsAwake k.toSched (closing p))

include h hclosing

lemma calms_killOrMark (sig : ℕ) (t : Tid) :
  ∃ r, killOrMark closing k sig t = some r ∧ Calms k r.2
  := by
  rw [killOrMark]
  split
  · exact ⟨_, rfl, Calms.refl h⟩
  · obtain ⟨k', hk', hc⟩ := calms_processTerminateTask h hclosing t (128 + sig)
    rw [hk']
    exact ⟨_, rfl, hc⟩

lemma calms_signalTask (sig p : ℕ)
    (ht : (sig = sigstop ∨ sig = sigtstp ∨ sig = sigcont
      ∨ (sig = sigint ∨ sig = sigquit ∨ sig = sigwinch) ∧ 1 < (k.processes p).handler sig) →
      k.state t ≠ .sleeping) :
  ∃ r, signalTask closing k sig t p = some r ∧ Calms k r.2
  := by
  rw [signalTask]
  split_ifs with h₁ h₂ h₃ h₄ h₅ h₆ h₇ h₈
  · exact calms_killOrMark h hclosing sig t
  · exact ⟨_, rfl, Calms.refl h⟩
  · exact ⟨_, rfl, calms_postSignal h p sig (ht (by tauto))⟩
  · exact calms_killOrMark h hclosing sig t
  · exact ⟨_, rfl, calms_postSignal h p sig (ht (by tauto))⟩
  · exact ⟨_, rfl, Calms.refl h⟩
  · exact ⟨_, rfl, Calms.withSched (h.block (ht (by tauto))) (wakes_block _ t)⟩
  · exact ⟨_, rfl, calms_unblock h (ht (by tauto))⟩
  · exact ⟨_, rfl, Calms.refl h⟩

end

/-- Whom `kill` means stays the same. -/
lemma Calms.matchesPid (hc : Calms k k') {p : ℕ} (h : k'.matchesPid pid (k'.processes p)) :
  k.matchesPid pid (k.processes p)
  := by
  rw [Kernel.matchesPid] at h ⊢
  rw [hc.pid, hc.pgid] at h
  split_ifs at h ⊢ with h₁ h₂ h₃
  · exact h
  · rw [any_eq_true] at h ⊢
    obtain ⟨self, hself, hpgid⟩ := h
    obtain ⟨c, hcur, hproc⟩ := bind_eq_some_iff.mp hself
    obtain ⟨r, hr, rfl⟩ := map_eq_some_iff.mp hproc
    refine ⟨k.processes r, bind_eq_some_iff.mpr ⟨c, ?_, ?_⟩, ?_⟩
    · rw [← hc.wakes.current]
      exact hcur
    · rw [processOf, hc.process c r hr]
      rfl
    · rwa [hc.pgid] at hpgid
  · exact h
  · rfl

lemma SignalsAwake.of_calms (h : SignalsAwake k pid sig) (hc : Calms k k') :
  SignalsAwake k' pid sig
  := by
  intro t ht p hp hmatch hsig hsleep
  rw [hc.handler] at hsig
  exact h t (hc.taskList ht) p (hc.process t p hp) (hc.matchesPid hmatch) hsig
    (hc.wakes.sleeping t hsleep)

lemma calms_killLoop (tasks : List Tid) :
    ∀ (self : Bool) (k : Kernel), Awake k.toSched →
      (∀ p, WakeupsAwake k.toSched (closing p)) →
      (∀ t ∈ tasks, ∀ p, k.process t = some p → k.matchesPid pid (k.processes p) →
        (sig = sigstop ∨ sig = sigtstp ∨ sig = sigcont
          ∨ (sig = sigint ∨ sig = sigquit ∨ sig = sigwinch) ∧ 1 < (k.processes p).handler sig) →
        k.state t ≠ .sleeping) →
      ∃ r, killLoop closing pid sig tasks self k = some r ∧ Calms k r.2
  := by
  induction tasks with
  | nil => exact fun self k h _ _ => ⟨(self, k), rfl, Calms.refl h⟩
  | cons t tasks ih =>
    intro self k h hclosing hsig
    have hrest : ∀ c ∈ tasks, c ∈ t :: tasks := fun c hc => List.mem_cons_of_mem t hc
    rw [killLoop]
    cases hp : k.process t with
    | none => exact ih self k h hclosing fun c hc => hsig c (hrest c hc)
    | some p =>
      simp only
      split
      · next hmatch =>
        obtain ⟨r, hr, hc⟩ := calms_signalTask h hclosing sig p
          (hsig t (by simp) p hp hmatch.2)
        obtain ⟨r', hr', hc'⟩ := ih (self || r.1) r.2 hc.awake
          (fun p c hcl hsleep => hclosing p c hcl (hc.wakes.sleeping c hsleep)) (by
            intro c hmem p hp hm hs hsleep
            rw [hc.handler] at hs
            exact hsig c (hrest c hmem) p (hc.process c p hp) (hc.matchesPid hm) hs
              (hc.wakes.sleeping c hsleep))
        rw [hr]
        exact ⟨r', hr', hc.trans hc'⟩
      · exact ih self k h hclosing fun c hc => hsig c (hrest c hc)

lemma awake_sysKill (h : Awake k.toSched) (hidle : k.idleTask ≠ k.currentTask)
    (hclosing : ∀ p, WakeupsAwake k.toSched (closing p))
    (hend : EndAwaited k) (hsig : SignalsAwake k pid sig) (writable : Bool) :
  ∃ k', sysKill closing writable k pid sig = some k' ∧ Awake k'.toSched
    ∧ Naps k.toSched k'.toSched
  := by
  obtain ⟨k₁, hk₁, hc₁⟩ := calms_reapOrphanZombies h
  obtain ⟨r, hr, hc₂⟩ := calms_killLoop k₁.taskList false k₁ hc₁.awake
    (fun p c hcl hsleep => hclosing p c hcl (hc₁.wakes.sleeping c hsleep)) (hsig.of_calms hc₁)
  have hc := hc₁.trans hc₂
  simp only [sysKill, hk₁, hr, bind_eq_bind, bind_some]
  split
  · have hidle' : r.2.idleTask ≠ r.2.currentTask := by
      rw [hc.wakes.idle, hc.wakes.current]
      exact hidle
    obtain ⟨k', hk', h', hnaps⟩ := awake_sysExit hc.awake hidle' closing
      (fun p c hcl hsleep => hclosing p c hcl (hc.wakes.sleeping c hsleep)) (hend.of_calms hc)
      writable (128 + sig)
    exact ⟨k', hk', h', hc.wakes.trans_naps hnaps⟩
  · exact ⟨_, rfl, hc.awake, hc.wakes.naps⟩

/-! ### Runs -/

/-- A call that matters to the sleep queue.  `sleep` is `sched_make_sleep` of the current task
with the call of `sched_yield` right behind it, `makeSleep` is the first of these alone. -/
inductive SleepCall where
  | makeSleep (sleepUntil : ℕ)
  | sleep (sleepUntil : ℕ)
  | yield
  | timerTick (tick : BitVec 32)
  | wake (task : Tid)
  | ioWaitPrepare
  | ioWakeAll
  | block (task : Tid)
  | unblock (task : Tid)
  | forget (task : Tid)
  | futexWait (uaddr : ℕ) (value : Option ℕ) (val : ℕ) (waitTicks : Option ℕ) (tick : BitVec 32)
  | futexResume
  | futexWake (uaddr val : ℕ)
  | kill (closing : ℕ → List Wakeup) (writable : Bool) (pid : ℤ) (sig : ℕ)

def SleepCall.step (k : Kernel) : SleepCall → Option Kernel
  | .makeSleep sleepUntil =>
    match k.currentTask with
    | none => some k
    | some task => (k.toSched.makeSleep task sleepUntil).map k.withSched
  | .sleep sleepUntil =>
    match k.currentTask with
    | none => some k
    | some task => (k.toSched.makeSleep task sleepUntil).map fun s => k.withSched s.yield
  | .yield => some (k.withSched k.toSched.yield)
  | .timerTick tick => (k.toSched.timerTick tick).map k.withSched
  | .wake task => (k.toSched.wake task).map k.withSched
  | .ioWaitPrepare => some (k.withSched k.toSched.ioWaitPrepare)
  | .ioWakeAll => k.toSched.ioWakeAll.map k.withSched
  | .block task => some (k.withSched (k.toSched.block task))
  | .unblock task => some (k.withSched (k.toSched.unblock task))
  | .forget task => (k.toSched.forget task).map k.withSched
  | .futexWait uaddr value val waitTicks tick => k.futexWait uaddr value val waitTicks tick
  | .futexResume => some k.futexResume
  | .futexWake uaddr val => some (k.futexWake uaddr val)
  | .kill closing writable pid sig => sysKill closing writable k pid sig

/-- The calls that respect the sleep queue: the task that goes to sleep, or ends, is not the
idle task; a task that is blocked, unblocked or forgotten by a call is not asleep. -/
def SleepCall.Fair (k : Kernel) : SleepCall → Prop
  | .makeSleep _ => k.currentTask = none
  | .sleep _ => k.idleTask ≠ k.currentTask
  | .block task | .unblock task | .forget task => k.state task ≠ .sleeping
  | .futexWait _ _ _ _ _ => k.idleTask ≠ k.currentTask
  | .futexWake uaddr _ =>
    uaddr ≠ 0 → ∀ t ∈ k.taskList, k.futexAddr t = uaddr → k.state t ≠ .sleeping
  | .kill closing _ pid sig =>
    k.idleTask ≠ k.currentTask ∧ (∀ p, WakeupsAwake k.toSched (closing p)) ∧ EndAwaited k
      ∧ SignalsAwake k pid sig
  | _ => True

/-- `FUTEX_WAIT` of a task that is not the idle task. -/
lemma awake_futexWait (h : Awake k.toSched) (hidle : k.idleTask ≠ k.currentTask) (uaddr : ℕ)
    (value : Option ℕ) (val : ℕ) (waitTicks : Option ℕ) (tick : BitVec 32) :
  ∃ k', k.futexWait uaddr value val waitTicks tick = some k' ∧ Awake k'.toSched
    ∧ Naps k.toSched k'.toSched
  := by
  rw [futexWait]
  cases hself : k.currentTask with
  | none => exact ⟨k, rfl, h, (Wakes.refl _).naps⟩
  | some self =>
    simp only
    split
    · cases waitTicks with
      | none =>
        exact ⟨_, rfl, (h.block (h.current self hself)).switch,
          (wakes_block _ self).trans_naps (naps_switch _)⟩
      | some n =>
        obtain ⟨s, hs, h', hnaps, -⟩ := h.sleep hself (hself ▸ hidle) (tick.toNat + max n 1)
        have hs' : (k.setFutexAddr self uaddr).makeSleep self (tick.toNat + max n 1) = some s := hs
        exact ⟨(k.setFutexAddr self uaddr).withSched s.yield, by simp only [hs']; rfl, h', hnaps⟩
    · exact ⟨k, rfl, h, (Wakes.refl _).naps⟩

lemma awake_step (h : Awake k.toSched) (call : SleepCall) (hfair : call.Fair k) :
  ∃ k', call.step k = some k' ∧ Awake k'.toSched ∧ Naps k.toSched k'.toSched
  := by
  have hsame : Naps k.toSched k.toSched := (Wakes.refl _).naps
  -- a call that ends in a state of the scheduler that is in order
  have hsched : ∀ {s : Option Sched}, (∃ s', s = some s' ∧ Awake s' ∧ Wakes k.toSched s') →
      ∃ k', s.map k.withSched = some k' ∧ Awake k'.toSched ∧ Naps k.toSched k'.toSched := by
    rintro _ ⟨s', rfl, h', hw⟩
    exact ⟨k.withSched s', rfl, h', hw.naps⟩
  cases call with
  | makeSleep u =>
    have hnone : k.currentTask = none := hfair
    exact ⟨k, by rw [SleepCall.step, hnone], h, hsame⟩
  | sleep u =>
    rw [SleepCall.step]
    cases hself : k.currentTask with
    | none => exact ⟨k, rfl, h, hsame⟩
    | some self =>
      obtain ⟨s, hs, h', hnaps, -⟩ := h.sleep hself (hself ▸ hfair) u
      exact ⟨k.withSched s.yield, by simp only [hs]; rfl, h', hnaps⟩
  | yield => exact ⟨_, rfl, h.switch, naps_switch _⟩
  | timerTick tick => exact hsched (h.timerTick tick)
  | wake t => exact hsched (h.wake t)
  | ioWaitPrepare =>
    have hw : Wakes k.toSched k.toSched.ioWaitPrepare := by
      rw [ioWaitPrepare]
      split
      · exact Wakes.refl _
      · split_ifs <;> exact ⟨fun _ ht => ht, fun _ _ => rfl, rfl, rfl⟩
    exact ⟨_, rfl, h.ioWaitPrepare, hw.naps⟩
  | ioWakeAll => exact hsched h.ioWakeAll
  | block t => exact ⟨_, rfl, h.block hfair, (wakes_block _ t).naps⟩
  | unblock t => exact ⟨_, rfl, h.enqueue hfair, (wakes_enqueue _ t).naps⟩
  | forget t => exact hsched (h.forget hfair)
  | futexWait uaddr value val waitTicks tick => exact awake_futexWait h hfair ..
  | futexResume =>
    refine ⟨_, rfl, ?_⟩
    rw [futexResume]
    split
    · exact ⟨h, hsame⟩
    · exact ⟨h, hsame⟩
  | futexWake uaddr val =>
    have hc := calms_futexWake h hfair val
    exact ⟨_, rfl, hc.awake, hc.wakes.naps⟩
  | kill closing writable pid sig =>
    exact awake_sysKill h hfair.1 hfair.2.1 hfair.2.2.1 hfair.2.2.2 writable

/-- Every call of a run is fair in the state in which it comes. -/
def FairRun : Kernel → List SleepCall → Prop
  | _, [] => True
  | k, call :: calls => call.Fair k ∧ ∀ k', call.step k = some k' → FairRun k' calls

lemma awake_run {calls : List SleepCall} (h : Awake k.toSched) (hfair : FairRun k calls) :
  ∃ k', calls.foldlM SleepCall.step k = some k' ∧ Awake k'.toSched
  := by
  induction calls generalizing k with
  | nil => exact ⟨k, rfl, h⟩
  | cons call calls ih =>
    obtain ⟨k₁, hk₁, h₁, -⟩ := awake_step h call hfair.1
    rw [List.foldlM_cons, hk₁]
    exact ih h₁ (hfair.2 k₁ hk₁)

/-- The scheduler after `sched_init`, with an idle task and nobody asleep. -/
lemma awake_init {priority : Tid → ℕ} {state : Tid → TaskState} {running : Tid → Bool}
    {idle : Tid} (hstate : ∀ t, state t ≠ .sleeping) (task : Tid) :
  Awake ((boot priority state running (some idle)).init task)
  := by
  have hawake : ∀ t, update state task .runnable t ≠ .sleeping := by
    intro t
    by_cases ht : t = task
    · subst ht
      simp
    · rw [update_of_ne ht]
      exact hstate t
  apply Awake.enqueue
  · refine ⟨⟨fun _ => [], [], ?_, ⟨rfl, List.nodup_nil, List.Pairwise.nil⟩, ?_, ?_⟩,
      fun t _ => hawake t, idle, rfl, hawake idle⟩
    · apply (holds_boot (update priority task prioInteractive) state running (some idle)).congr
      · simp [boot]
      · intro _
        rfl
    · intro t
      simpa [boot] using hawake t
    · intro p t ht
      cases ht
  · exact hawake task

/-- After every run of fair calls from `sched_init` on, with any tasks and processes: the sleep
queue is a list without duplicates, in the order of the deadlines, its members are the tasks
that are asleep, and neither a runnable task nor the current one is among them. -/
theorem sleep_queue_consistent (priority : Tid → ℕ) (state : Tid → TaskState)
    (running : Tid → Bool) (idle task : Tid) (k : Kernel) (calls : List SleepCall)
    (hinit : k.toSched = (boot priority state running (some idle)).init task)
    (hstate : ∀ t, state t ≠ .sleeping) (hfair : FairRun k calls) :
  ∃ k', calls.foldlM SleepCall.step k = some k' ∧ ∃ l, k'.toSleepQueue.Holds l
    ∧ (∀ t, t ∈ l ↔ k'.state t = .sleeping)
    ∧ ∀ t, k'.state t = .runnable ∨ k'.currentTask = some t → t ∉ l
  := by
  obtain ⟨k', hrun, h⟩ := awake_run (hinit ▸ awake_init hstate task) hfair
  obtain ⟨q, l, htied⟩ := h.tied
  refine ⟨k', hrun, l, htied.sleep, htied.asleep, ?_⟩
  intro t ht
  rw [htied.asleep]
  rcases ht with hrunnable | hcurrent
  · rw [hrunnable]
    decide
  · exact h.current t hcurrent

/-- A kernel after `sched_init` with three tasks: 1 runs, 2 is the idle task. -/
def threeTasks : Kernel where
  toSched := (boot (fun _ => prioNormal) (fun _ => .blocked) (fun _ => false) (some 2)).init 1
  taskList := [1, 2, 3]
  futexAddr _ := 0
  clearChildTid _ := 0
  process _ := none
  processes _ :=
    { pid := 1, parentPid := 0, pgid := 1, cr3 := 1, vmShared := false, handler := fun _ => 0
      sigpending := 0, exitCode := 0, exited := false }
  nextPid := 2
  processCount := 1
  spaceCount := 2
  destroyed := []
  kernelCr3 := 0

theorem sleep_queue_consistent_two_sleepers :
  ∃ k', [SleepCall.unblock 3, .sleep 7, .timerTick 6, .wake 1].foldlM SleepCall.step threeTasks
      = some k'
    ∧ ∃ l, k'.toSleepQueue.Holds l ∧ (∀ t, t ∈ l ↔ k'.state t = .sleeping)
      ∧ ∀ t, k'.state t = .runnable ∨ k'.currentTask = some t → t ∉ l
  := by
  apply sleep_queue_consistent (fun _ => prioNormal) (fun _ => .blocked) (fun _ => false) 2 1
    threeTasks _ rfl
  · intro _
    decide
  have hblocked : threeTasks.state 3 ≠ .sleeping := by decide +kernel
  refine ⟨hblocked, ?_⟩
  intro k₁ hk₁
  obtain rfl := some.inj hk₁
  have hidle : (threeTasks.unblock 3).idleTask ≠ (threeTasks.unblock 3).currentTask := by
    decide +kernel
  exact ⟨hidle, fun _ _ => ⟨trivial, fun _ _ => ⟨trivial, fun _ _ => trivial⟩⟩⟩

/-- Task 1 waits for a futex with a timeout and task 3 wakes the futex: task 1 is runnable, and
the first on the sleep queue. -/
theorem futex_waiter_left_on_queue :
  ∃ k', [SleepCall.unblock 3, .futexWait 8 (some 0) 0 (some 5) 1, .futexWake 8 1].foldlM
      SleepCall.step threeTasks = some k'
    ∧ k'.state 1 = .runnable ∧ k'.sleepQueueHead = some 1 ∧ k'.currentTask = some 3
  := by
  refine ⟨_, rfl, ?_, ?_, ?_⟩ <;> decide +kernel

end Kernel
