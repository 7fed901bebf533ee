import EquantOS.Proc.Apart
import EquantOS.Proc.Sleepers
import EquantOS.Proc.Spaces

/-!
# How processes end

What `exit` and `exit_group` do to tasks and processes: which tasks become zombies, and which
processes are marked as exited with which code.  Zombies stay zombies, and off every
queue, as long as no close operation unblocks one.
-/

open Function List Option

namespace Kernel

open Sched

variable {k k' k'' : Kernel} {t c : Tid} {p : ℕ} {S S' Z Z' : Tid → Prop} {E E' : ℕ → Option ℤ}

/-- From `k` to `k'` the tasks of `Z` become zombies and the processes of `E` exit with these
codes.  Tasks of `S` that are runnable are left alone, if they are not of `Z`. -/
structure Departs (S Z : Tid → Prop) (E : ℕ → Option ℤ) (k k' : Kernel) : Prop where
  order : InOrder k'.toSched
  stays (t : Tid) (state : TaskState) : state = .zombie ∨ state = .runnable ∧ S t ∧ ¬Z t →
    Apart k.toSched t state → Apart k'.toSched t state
  dead (t : Tid) : Z t → Apart k'.toSched t .zombie
  live (t : Tid) : k'.state t = .zombie → k.state t = .zombie ∨ Z t
  view : k'.view = k.view
  exited (p : ℕ) : (k'.processes p).exited = ((k.processes p).exited || (E p).isSome)
  exitCode (p : ℕ) : (k'.processes p).exitCode = (E p).getD (k.processes p).exitCode
  handler (p : ℕ) : (k'.processes p).handler = (k.processes p).handler
  pgid (p : ℕ) : (k'.processes p).pgid = (k.processes p).pgid

/-- The same task stays current, too, and the same one idle. -/
structure Ends (S Z : Tid → Prop) (E : ℕ → Option ℤ) (k k' : Kernel) : Prop
    extends Departs S Z E k k' where
  current : k'.currentTask = k.currentTask
  idle : k'.idleTask = k.idleTask

def nobody : Tid → Prop := fun _ => False

/-- No process. -/
def noCode : ℕ → Option ℤ := fun _ => none

/-- One process and its code. -/
def oneCode (p : ℕ) (code : ℤ) : ℕ → Option ℤ := fun q => if q = p then some code else none

/-! ### One thing after another -/

lemma Departs.trans (h : Departs S Z E k k') (h' : Departs S Z' E' k' k'') :
  Departs S (fun t => Z t ∨ Z' t) (fun p => (E' p).or (E p)) k k''
  where
  order := h'.order
  stays t state ht ha := by
    apply h'.stays t state _ (h.stays t state _ ha)
    · exact ht.imp_right fun ht => ⟨ht.1, ht.2.1, fun hz => ht.2.2 (.inr hz)⟩
    · exact ht.imp_right fun ht => ⟨ht.1, ht.2.1, fun hz => ht.2.2 (.inl hz)⟩
  dead t ht := by
    rcases ht with ht | ht
    · exact h'.stays t .zombie (.inl rfl) (h.dead t ht)
    · exact h'.dead t ht
  live t ht := by
    rcases h'.live t ht with ht | ht
    · exact (h.live t ht).imp_right .inl
    · exact .inr (.inr ht)
  view := h'.view.trans h.view
  exited p := by
    rw [h'.exited, h.exited, isSome_or, Bool.or_assoc, Bool.or_comm (E p).isSome]
  exitCode p := by
    rw [h'.exitCode, h.exitCode, getD_or]
  handler p := (h'.handler p).trans (h.handler p)
  pgid p := (h'.pgid p).trans (h.pgid p)

lemma Ends.trans (h : Ends S Z E k k') (h' : Ends S Z' E' k' k'') :
  Ends S (fun t => Z t ∨ Z' t) (fun p => (E' p).or (E p)) k k''
  := ⟨h.toDeparts.trans h'.toDeparts, h'.current.trans h.current, h'.idle.trans h.idle⟩

lemma Departs.congr (h : Departs S Z E k k') (hZ : ∀ t, Z' t ↔ Z t) (hE : ∀ p, E' p = E p) :
  Departs S Z' E' k k'
  := by
  obtain rfl : Z' = Z := funext fun t => propext (hZ t)
  obtain rfl : E' = E := funext hE
  exact h

lemma Ends.congr (h : Ends S Z E k k') (hZ : ∀ t, Z' t ↔ Z t) (hE : ∀ p, E' p = E p) :
  Ends S Z' E' k k'
  := ⟨h.toDeparts.congr hZ hE, h.current, h.idle⟩

/-- What happens to nobody comes last. -/
lemma Ends.trans_idle (h : Ends S Z E k k') (h' : Ends S nobody noCode k' k'') : Ends S Z E k k''
  := (h.trans h').congr (fun _ => (or_iff_left id).symm) fun _ => rfl

/-- What happens to nobody comes first. -/
lemma Ends.idle_trans (h : Ends S nobody noCode k k') (h' : Ends S Z E k' k'') : Ends S Z E k k''
  := (h.trans h').congr (fun _ => (or_iff_right id).symm) fun _ => or_none.symm

lemma Ends.refl (h : InOrder k.toSched) : Ends S nobody noCode k k
  where
  order := h
  stays _ _ _ ha := ha
  dead _ ht := ht.elim
  live _ ht := .inl ht
  view := rfl
  exited _ := (Bool.or_false _).symm
  exitCode _ := rfl
  handler _ := rfl
  pgid _ := rfl
  current := rfl
  idle := rfl

/-- A change to the scheduler that leaves zombies, and the runnable tasks of `S`, alone. -/
lemma Ends.sched {T : Tid → Prop} {s : Sched} (h : Tends T k.toSched s)
    (hT : ∀ t state, state = .zombie ∨ state = .runnable ∧ S t → Apart k.toSched t state → T t) :
  Ends S nobody noCode k (k.withSched s)
  where
  order := h.order
  stays t state ht ha :=
    h.keeps t state (hT t state (ht.imp_right fun ht => ⟨ht.1, ht.2.1⟩) ha) ha
  dead _ ht := ht.elim
  live t ht := .inl (h.live t ht)
  view := rfl
  exited _ := (Bool.or_false _).symm
  exitCode _ := rfl
  handler _ := rfl
  pgid _ := rfl
  current := h.current
  idle := h.idle

/-! ### Waking -/

/-- A task that is neither a zombie nor a runnable one of `S` is unblocked. -/
lemma ends_unblock (h : InOrder k.toSched) (hc : k.state c ≠ .zombie)
    (hS : k.state c = .runnable → ¬S c) :
  Ends S nobody noCode k (k.withSched (k.unblock c))
  := by
  apply Ends.sched (tends_enqueue h c)
  rintro t state ht ha rfl
  rcases ht with rfl | ⟨rfl, hSt⟩
  · exact hc ha.state_eq
  · exact hS ha.state_eq hSt

/-- Unblocking tasks that wait. -/
lemma ends_unblockAll (h : InOrder k.toSched) {test : Sched → Tid → Bool}
    (htest : ∀ s t, test s t → s.state t = .blocked) (tasks : List Tid) :
  Ends S nobody noCode k (k.withSched (unblockAll test tasks k.toSched))
  := by
  induction tasks generalizing k with
  | nil => exact Ends.refl h
  | cons c tasks ih =>
    rw [unblockAll, foldl_cons]
    split
    · next hpass =>
      have hblocked := htest _ c hpass
      have hone : Ends S nobody noCode k (k.withSched (k.unblock c)) :=
        ends_unblock h (by rw [hblocked]; decide) fun hrun => by
          rw [hblocked] at hrun
          cases hrun
      exact hone.trans_idle (ih hone.order)
    · exact ih h

lemma ends_wakeParentOf (h : InOrder k.toSched) (p : ℕ) :
  Ends S nobody noCode k (k.wakeParentOf p)
  := ends_unblockAll h (by simp) k.taskList

/-- What the close operations unblock: neither zombies nor tasks of `S`. -/
def Harmless (S : Tid → Prop) (k : Kernel) (wakeups : List Wakeup) : Prop :=
  ∀ t, Wakeup.unblock t ∈ wakeups → k.state t ≠ .zombie ∧ ¬S t

section

variable (h : InOrder k.toSched)

include h

lemma ends_closeProcessFiles {wakeups : List Wakeup}
    (hwakeups : Harmless S k wakeups) :
  ∃ k', k.closeProcessFiles wakeups = some k' ∧ Ends S nobody noCode k k'
  := by
  suffices hloop : ∀ (wakeups : List Wakeup) (k : Kernel), InOrder k.toSched →
      Harmless S k wakeups → ∃ s, wakeups.foldlM Wakeup.run k.toSched = some s
        ∧ Ends S nobody noCode k (k.withSched s) by
    obtain ⟨s, hs, hends⟩ := hloop wakeups k h hwakeups
    exact ⟨k.withSched s, by rw [closeProcessFiles, hs]; rfl, hends⟩
  intro wakeups
  induction wakeups with
  | nil => exact fun k h _ => ⟨k.toSched, rfl, Ends.refl h⟩
  | cons w wakeups ih =>
    clear hwakeups h
    intro k h hwakeups
    have hone : ∃ s₁, Wakeup.run k.toSched w = some s₁
        ∧ Ends S nobody noCode k (k.withSched s₁) := by
      cases w with
      | unblock c =>
        obtain ⟨hc, hS⟩ := hwakeups c (by simp)
        exact ⟨_, rfl, ends_unblock h hc fun _ => hS⟩
      | ioWakeAll =>
        obtain ⟨s, hs, htends⟩ := tends_ioWakeAll (T := fun _ => True) h
        exact ⟨s, hs, Ends.sched htends fun _ _ _ _ => trivial⟩
    obtain ⟨s₁, hs₁, hends₁⟩ := hone
    obtain ⟨s₂, hs₂, hends₂⟩ := ih (k.withSched s₁) hends₁.order (by
      intro c hc
      obtain ⟨hzombie, hS⟩ := hwakeups c (by simp [hc])
      exact ⟨fun hz => hzombie ((hends₁.live c hz).resolve_right id), hS⟩)
    refine ⟨s₂, ?_, hends₁.trans_idle hends₂⟩
    rw [foldlM_cons, hs₁]
    exact hs₂

lemma ends_futexWake (uaddr val : ℕ) :
  Ends S nobody noCode k (k.futexWake uaddr val)
  := by
  have hset : ∀ (k : Kernel) (c : Tid), InOrder k.toSched →
      Ends S nobody noCode k (k.setFutexAddr c 0) := fun k c h =>
    ⟨⟨h, fun _ _ _ ha => ha, fun _ ht => ht.elim, fun _ ht => .inl ht, rfl,
      fun _ => (Bool.or_false _).symm, fun _ => rfl, fun _ => rfl, fun _ => rfl⟩, rfl, rfl⟩
  have hloop : ∀ (tasks : List Tid) (woken : ℕ) (k : Kernel), InOrder k.toSched →
      Ends S nobody noCode k (futexWakeLoop uaddr val woken tasks k) := by
    intro tasks
    induction tasks with
    | nil => exact fun _ k h => Ends.refl h
    | cons c tasks ih =>
      intro woken k h
      rw [futexWakeLoop]
      split
      · have hone : Ends S nobody noCode k (if (k.setFutexAddr c 0).state c = .blocked
            ∨ (k.setFutexAddr c 0).state c = .sleeping then
            (k.setFutexAddr c 0).withSched ((k.setFutexAddr c 0).unblock c)
            else k.setFutexAddr c 0) := by
          split
          · next hwaits =>
            refine (hset k c h).trans_idle (ends_unblock h ?_ ?_)
            · rcases hwaits with hw | hw <;> rw [hw] <;> decide
            · intro hrun
              rcases hwaits with hw | hw <;> rw [hw] at hrun <;> cases hrun
          · exact hset k c h
        split
        · exact hone
        · exact hone.trans_idle (ih _ _ hone.order)
      · exact ih _ _ h
  rw [futexWake]
  split
  · exact Ends.refl h
  · exact hloop _ _ k h

lemma ends_clearTid (writable : Bool) (t : Tid) :
  Ends S nobody noCode k (clearTid writable k t)
  := by
  have hset : ∀ (k : Kernel) (f : Tid → ℕ), InOrder k.toSched →
      Ends S nobody noCode k { k with clearChildTid := f } := fun k f h =>
    ⟨⟨h, fun _ _ _ ha => ha, fun _ ht => ht.elim, fun _ ht => .inl ht, rfl,
      fun _ => (Bool.or_false _).symm, fun _ => rfl, fun _ => rfl, fun _ => rfl⟩, rfl, rfl⟩
  rw [clearTid]
  split_ifs
  · exact Ends.refl h
  · have hwake := ends_futexWake (S := S) h (k.clearChildTid t) 1
    exact hwake.trans_idle (hset _ _ hwake.order)
  · exact hset k _ h

/-! ### The end of a task -/

/-- A process is marked as exited. -/
lemma ends_mark (p : ℕ) (code : ℤ) :
  Ends S nobody (oneCode p code) k
    (k.modProcess p fun q => { q with exitCode := code, exited := true })
  := by
  set k₁ := k.modProcess p fun q => { q with exitCode := code, exited := true } with hk₁
  have hprocess : ∀ r, k₁.processes r = if r = p then
      { k.processes p with exitCode := code, exited := true } else k.processes r := by
    intro r
    exact update_apply ..
  refine ⟨⟨h, fun _ _ _ ha => ha, fun _ ht => ht.elim, fun _ ht => .inl ht,
    view_modProcess_same fun _ => rfl, ?_, ?_, ?_, ?_⟩, rfl, rfl⟩
  · intro r
    rw [hprocess, oneCode]
    split_ifs
    · simp
    · simp
  · intro r
    rw [hprocess, oneCode]
    split_ifs
    · rfl
    · rfl
  · intro r
    rw [hprocess]
    split_ifs with hr
    · rw [hr]
    · rfl
  · intro r
    rw [hprocess]
    split_ifs with hr
    · rw [hr]
    · rfl

lemma inOrder_stop (c : Tid) (state : TaskState) :
  InOrder (k.stop c state)
  := by
  obtain ⟨q, hq⟩ := h.run
  exact ⟨⟨q, hq.congr rfl fun _ => rfl⟩, h.sleep, h.waiters⟩

end

/-- A task becomes a zombie and is then taken off all queues. -/
lemma departs_stop {s : Sched} (h : Guards (fun _ => True) (k.stop c .zombie) s)
    (hc : Apart s c .zombie) :
  Departs S (· = c) noCode k (k.withSched s)
  := by
  have hother : ∀ t ≠ c, (k.stop c .zombie).state t = k.state t :=
    fun t ht => update_of_ne ht ..
  refine ⟨h.order, ?_, ?_, ?_, rfl, fun _ => (Bool.or_false _).symm, fun _ => rfl, fun _ => rfl,
    fun _ => rfl⟩
  · intro t state ht ha
    by_cases htc : t = c
    · subst htc
      rcases ht with rfl | ⟨-, -, hne⟩
      · exact hc
      · exact absurd rfl hne
    · apply h.keeps t state trivial
      exact ⟨ha.awake, (hother t htc).trans ha.state_eq, ha.unqueued, ha.off⟩
  · rintro t rfl
    exact hc
  · intro t ht
    by_cases htc : t = c
    · exact .inr htc
    · rw [← hother t htc]
      exact .inl (h.live t ht)

/-- A task becomes a zombie and is forgotten. -/
lemma ends_stop_forget (h : InOrder k.toSched) (c : Tid) :
  ∃ s, (k.stop c .zombie).forget c = some s ∧ Ends S (· = c) noCode k (k.withSched s)
  := by
  obtain ⟨s, hs, htends, hstate, hgone, -⟩ :=
    tends_forget (T := fun _ => True) (inOrder_stop h c .zombie) c
  have hdead : Apart s c .zombie :=
    ⟨by decide, by rw [hstate]; exact update_self .., .inr hgone.unqueued, hgone.off⟩
  exact ⟨s, hs, departs_stop htends.toGuards hdead, htends.current, htends.idle⟩

/-- The current task becomes a zombie and gives the processor away. -/
lemma departs_stop_yield (h : InOrder k.toSched) (hself : k.currentTask = some c)
    (hidle : k.idleTask ≠ some c) (hc : Apart k.toSched c .runnable) :
  Departs S (· = c) noCode k (k.withSched (k.stop c .zombie).yield)
  := by
  have horder := inOrder_stop h c .zombie
  obtain ⟨q, hq⟩ := horder.run
  have hrequeue : (k.stop c .zombie).requeue c = (k.stop c .zombie).dequeue c := by
    have hstate : ((k.stop c .zombie).dequeue c).state c = .zombie := by
      rw [state_dequeue]
      exact update_self ..
    have hidle' : (k.stop c .zombie).idleTask ≠ some c := hidle
    rw [requeue, if_neg hidle']
    simp [hstate]
  apply departs_stop (guards_switch horder)
  have hself' : (k.stop c .zombie).currentTask = some c := hself
  have hrun : (k.stop c .zombie).switch.toRunQueue = ((k.stop c .zombie).dequeue c).toRunQueue
      ∧ (k.stop c .zombie).switch.priority = ((k.stop c .zombie).dequeue c).priority := by
    simp only [Sched.switch, hself', hrequeue]
    split_ifs
    · exact ⟨rfl, rfl⟩
    · exact ⟨rfl, rfl⟩
  refine ⟨by decide, ?_, .inr ?_, ?_⟩
  · have hzombie : (k.stop c .zombie).state c = .zombie := update_self ..
    rw [state_switch_self hself' (by rw [hzombie]; decide), hzombie]
  · have hout : ((k.stop c .zombie).dequeue c).queued c = false := queued_dequeue_self hq
    rw [queued, prio] at hout ⊢
    rw [hrun.1, hrun.2]
    exact hout
  · rw [toSleepQueue_switch]
    exact hc.off

/-! ### `exit` -/

lemma Harmless.of_ends {wakeups : List Wakeup} (hwakeups : Harmless S k wakeups)
    (h : Departs S' Z E k k') (hZ : ∀ t, Z t → S t) : Harmless S k' wakeups
  := by
  intro t ht
  obtain ⟨hzombie, hS⟩ := hwakeups t ht
  refine ⟨?_, hS⟩
  intro hz
  rcases h.live t hz with hz | hz
  · exact hzombie hz
  · exact hS (hZ t hz)

lemma Ends.mono (h : Ends S Z E k k') (hS : ∀ t, S' t → S t) : Ends S' Z E k k'
  where
  order := h.order
  stays t state ht := h.stays t state (ht.imp_right fun ht => ⟨ht.1, hS t ht.2.1, ht.2.2⟩)
  dead := h.dead
  live := h.live
  view := h.view
  exited := h.exited
  exitCode := h.exitCode
  handler := h.handler
  pgid := h.pgid
  current := h.current
  idle := h.idle

variable {closing : ℕ → List Wakeup} {tasks : List Tid}

/-- What the end of a task does to its process. -/
lemma ends_leaveProcess (h : InOrder k.toSched) (hp : k.process c = some p) (hclosing : Harmless S k (closing p))
    (code : ℤ) :
  ∃ k', leaveProcess closing k c code = some k' ∧ Ends S nobody (oneCode p code) k k'
  := by
  have hmark := ends_mark (S := S) h p code
  set k₁ := k.modProcess p fun q => { q with exitCode := code, exited := true } with hk₁
  simp only [leaveProcess, hp]
  rw [← hk₁]
  split
  · exact ⟨_, rfl, hmark.trans_idle (ends_wakeParentOf hmark.order p)⟩
  obtain ⟨k₂, hk₂, hclose⟩ := ends_closeProcessFiles hmark.order
    (hclosing.of_ends hmark.toDeparts fun _ hz => hz.elim)
  rw [hk₂]
  exact ⟨_, rfl, (hmark.trans_idle hclose).trans_idle (ends_wakeParentOf hclose.order p)⟩

/-- `process_terminate_task`, if nobody unblocks the task. -/
lemma ends_processTerminateTask (h : InOrder k.toSched) (hp : k.process c = some p)
    (hclosing : Harmless (fun t => S t ∨ t = c) k (closing p))
    (code : ℤ) :
  ∃ k', processTerminateTask closing k c code = some k' ∧ Ends S (· = c) (oneCode p code) k k'
  := by
  obtain ⟨s, hs, hstop⟩ := ends_stop_forget (S := fun t => S t ∨ t = c) h c
  have hmark := ends_mark (S := fun t => S t ∨ t = c) hstop.order p code
  have hboth : Ends (fun t => S t ∨ t = c) (· = c) (oneCode p code) k ((k.withSched s).modProcess p
      fun q => { q with exitCode := code, exited := true }) :=
    (hstop.trans hmark).congr (fun _ => (or_iff_left id).symm) fun _ => or_none.symm
  set k₁ := (k.withSched s).modProcess p fun q => { q with exitCode := code, exited := true } with hk₁
  have hp' : (k.withSched s).process c = some p := hp
  simp only [processTerminateTask, hs, bind_eq_bind, bind_some, hp']
  split
  · exact ⟨_, rfl, hboth.mono fun _ => .inl⟩
  obtain ⟨k₂, hk₂, hclose⟩ := ends_closeProcessFiles hboth.order
    (hclosing.of_ends hboth.toDeparts fun _ => .inr)
  rw [hk₂]
  exact ⟨_, rfl, ((hboth.trans_idle hclose).trans_idle (ends_wakeParentOf hclose.order p)).mono
    fun _ => .inl⟩

lemma Departs.process_eq (h : Departs S Z E k k') : k'.process = k.process
  := congrArg View.process h.view

lemma Departs.taskList_eq (h : Departs S Z E k k') : k'.taskList = k.taskList
  := congrArg View.taskList h.view

/-- `sys_exit_handler` of a runnable task that is not on the sleep queue. -/
lemma departs_sysExit (h : InOrder k.toSched) (hself : k.currentTask = some c)
    (hidle : k.idleTask ≠ some c) (hc : Apart k.toSched c .runnable) (hp : k.process c = some p)
    (hclosing : Harmless (· = c) k (closing p)) (writable : Bool)
    (code : ℤ) :
  ∃ k', sysExit closing writable k code = some k'
    ∧ Departs nobody (· = c) (oneCode p code) k k'
  := by
  have hclear := ends_clearTid (S := (· = c)) h writable c
  have hp₁ : (clearTid writable k c).process c = some p := by
    rw [hclear.process_eq]
    exact hp
  obtain ⟨k₂, hk₂, hleave⟩ := ends_leaveProcess hclear.order hp₁
    (hclosing.of_ends hclear.toDeparts fun _ hz => hz.elim) code
  have hboth := hclear.idle_trans hleave
  have hc₂ : Apart k₂.toSched c .runnable := hboth.stays c .runnable (.inr ⟨rfl, rfl, id⟩) hc
  have hstop := departs_stop_yield (S := nobody) hboth.order (hboth.current.trans hself)
    (by rw [hboth.idle]; exact hidle) hc₂
  simp only [sysExit, hself, hk₂]
  have hquiet : Ends nobody nobody (oneCode p code) k k₂ := hboth.mono fun _ hs => hs.elim
  exact ⟨_, rfl, (hquiet.toDeparts.trans hstop).congr (fun _ => (or_iff_right id).symm)
    fun _ => rfl⟩

/-! ### Who ends -/

open Classical in
/-- The processes of the tasks of `Z`, with one code for all. -/
noncomputable def codesOf (k : Kernel) (Z : Tid → Prop) (code : ℤ) : ℕ → Option ℤ :=
  fun p => if ∃ t, Z t ∧ k.process t = some p then some code else none

lemma codesOf_eq_some {code x : ℤ} :
  codesOf k Z code p = some x ↔ code = x ∧ ∃ t, Z t ∧ k.process t = some p
  := by
  rw [codesOf]
  split_ifs with hp
  · simp [hp]
  · simp [hp]

lemma codesOf_nobody (code : ℤ) (p : ℕ) : noCode p = codesOf k nobody code p
  := by
  apply ext
  intro x
  rw [codesOf_eq_some]
  simp [noCode, nobody]

lemma codesOf_congr (hprocess : k'.process = k.process) (code : ℤ) :
  codesOf k' Z code = codesOf k Z code
  := by
  funext p
  rw [codesOf, codesOf, hprocess]

/-- The processes of the tasks of two sets. -/
lemma codesOf_or (hZ : ∀ t, S t ↔ Z t ∨ Z' t) (code : ℤ) (p : ℕ) :
  codesOf k S code p = (codesOf k Z' code p).or (codesOf k Z code p)
  := by
  apply ext
  intro x
  rw [or_eq_some_iff, codesOf_eq_some, codesOf_eq_some, codesOf_eq_some, eq_none_iff_forall_ne_some]
  simp only [hZ, ne_eq, codesOf_eq_some]
  constructor
  · rintro ⟨rfl, t, hz | hz, hp⟩
    · by_cases hp' : ∃ t, Z' t ∧ k.process t = some p
      · exact .inl ⟨rfl, hp'⟩
      · exact .inr ⟨fun _ h => hp' h.2, rfl, t, hz, hp⟩
    · exact .inl ⟨rfl, t, hz, hp⟩
  · rintro (⟨rfl, t, hz, hp⟩ | ⟨-, rfl, t, hz, hp⟩)
    · exact ⟨rfl, t, .inr hz, hp⟩
    · exact ⟨rfl, t, .inl hz, hp⟩

/-- The process of tasks that are all of one. -/
lemma codesOf_one (hp : ∀ t, Z t → k.process t = some p) (hc : Z c) (code : ℤ) (r : ℕ) :
  codesOf k Z code r = oneCode p code r
  := by
  apply ext
  intro x
  rw [codesOf_eq_some, oneCode]
  split_ifs with hr
  · subst hr
    rw [some.injEq]
    exact and_iff_left ⟨c, hc, hp c hc⟩
  · rw [iff_false]
    rintro ⟨-, t, ht, hr'⟩
    exact hr (some.inj (hr'.symm.trans (hp t ht)))

lemma codesOf_self (hp : k.process c = some p) (code : ℤ) (r : ℕ) :
  codesOf k (· = c) code r = oneCode p code r
  := by
  have hall : ∀ t, t = c → k.process t = some p := by
    rintro t rfl
    exact hp
  exact codesOf_one hall rfl code r

/-- From `k` to `k'` the tasks of `Z` end, and their processes with the code. -/
def Leave (Z : Tid → Prop) (code : ℤ) (k k' : Kernel) : Prop :=
  Departs nobody Z (codesOf k Z code) k k'

/-- The zombies among the tasks, kernel tasks apart, are on no queue. -/
def Settled (k : Kernel) (tasks : List Tid) : Prop :=
  ∀ t ∈ tasks, k.process t ≠ none → k.state t = .zombie → Apart k.toSched t .zombie

lemma Settled.departs (hz : Settled k tasks) (h : Departs S Z E k k') :
  Settled k' tasks
  := by
  intro t ht hp hzombie
  rcases h.live t hzombie with hzombie | hend
  · apply h.stays t .zombie (.inl rfl)
    apply hz t ht _ hzombie
    rwa [← h.process_eq]
  · exact h.dead t hend

/-- Who is alive afterwards. -/
lemma Settled.live_iff (hz : Settled k tasks) (h : Departs S Z E k k')
    (ht : t ∈ tasks) (hp : k.process t ≠ none) :
  k'.state t ≠ .zombie ↔ k.state t ≠ .zombie ∧ ¬Z t
  := by
  constructor
  · intro hlive
    refine ⟨?_, ?_⟩
    · intro hzombie
      exact hlive (h.stays t .zombie (.inl rfl) (hz t ht hp hzombie)).state_eq
    · intro hend
      exact hlive (h.dead t hend).state_eq
  · rintro ⟨hlive, hnot⟩ hzombie
    exact (h.live t hzombie).elim hlive hnot

/-! ### `exit_group` -/

/-- The loop of `exit_group`. -/
lemma ends_stopAll (h : InOrder k.toSched) (hz : Settled k tasks)
    (hprocess : ∀ t ∈ tasks, k.process t ≠ none) :
  ∃ s, tasks.foldlM (fun s t =>
      if s.state t = .zombie then some s else (s.stop t .zombie).forget t) k.toSched = some s
    ∧ Ends S (fun t => t ∈ tasks ∧ k.state t ≠ .zombie) noCode k (k.withSched s)
  := by
  induction tasks generalizing k with
  | nil =>
    refine ⟨k.toSched, rfl, (Ends.refl h).congr ?_ fun _ => rfl⟩
    simp [nobody]
  | cons c tasks ih =>
    have hz' : Settled k tasks := fun t ht => hz t (mem_cons_of_mem c ht)
    have hprocess' : ∀ t ∈ tasks, k.process t ≠ none :=
      fun t ht => hprocess t (mem_cons_of_mem c ht)
    rw [foldlM_cons]
    by_cases hc : k.state c = .zombie
    · obtain ⟨s, hs, hends⟩ := ih h hz' hprocess'
      rw [if_pos hc]
      refine ⟨s, hs, hends.congr ?_ fun _ => rfl⟩
      intro t
      rw [mem_cons, or_and_right]
      apply or_iff_right
      rintro ⟨rfl, hlive⟩
      exact hlive hc
    · obtain ⟨s₁, hs₁, hone⟩ := ends_stop_forget (S := S) h c
      obtain ⟨s, hs, hends⟩ := ih hone.order (hz'.departs hone.toDeparts) hprocess'
      rw [if_neg hc, hs₁]
      refine ⟨s, hs, (hone.trans hends).congr ?_ fun _ => rfl⟩
      intro t
      by_cases htc : t = c
      · subst htc
        simp [hc]
      simp only [mem_cons, htc, false_or]
      apply and_congr_right
      intro ht
      have hiff := hz'.live_iff hone.toDeparts ht (hprocess' t ht)
      rw [hiff, and_iff_left htc]

/-- `exit_group` by a runnable task that is not on the sleep queue. -/
lemma departs_exitGroup (h : InOrder k.toSched) (hself : k.currentTask = some c)
    (hidle : k.idleTask ≠ some c) (hc : Apart k.toSched c .runnable) (hp : k.process c = some p)
    (hmem : c ∈ k.taskList) (hz : Settled k k.taskList)
    (hclosing : Harmless (fun t => k.process t = some p) k (closing p)) (writable : Bool)
    (code : ℤ) :
  ∃ k', exitGroup closing writable k code = some k'
    ∧ Leave (fun t => t ∈ k.taskList ∧ k.process t = some p ∧ k.state t ≠ .zombie) code k k'
  := by
  have hothers : k.taskList.filter (fun t => k.currentTask != some t
      && (k.currentTask.bind k.process).isSome && k.process t == k.currentTask.bind k.process)
      = k.taskList.filter fun t => c != t && k.process t == some p := by
    apply filter_congr
    intro t _
    rw [hself, bind_some, hp, Bool.eq_iff_iff]
    simp
  set others := k.taskList.filter fun t => c != t && k.process t == some p with hset
  have hothers_iff : ∀ t, t ∈ others ↔ t ∈ k.taskList ∧ t ≠ c ∧ k.process t = some p := by
    intro t
    rw [mem_filter, Bool.and_eq_true, bne_iff_ne, beq_iff_eq, ne_comm]
  obtain ⟨s, hs, hstop⟩ := ends_stopAll (S := (· = c)) h
    (fun t ht => hz t ((hothers_iff t).mp ht).1)
    (by
      intro t ht
      rw [((hothers_iff t).mp ht).2.2]
      exact some_ne_none p)
  have hc₁ : Apart s c .runnable := by
    refine hstop.stays c .runnable (.inr ⟨rfl, rfl, ?_⟩) hc
    rintro ⟨hmem, -⟩
    exact ((hothers_iff c).mp hmem).2.1 rfl
  have hharmless : Harmless (· = c) (k.withSched s) (closing p) := by
    intro t ht
    have hboth := hclosing.of_ends hstop.toDeparts (fun t ht => ((hothers_iff t).mp ht.1).2.2) t ht
    refine ⟨hboth.1, ?_⟩
    rintro rfl
    exact hboth.2 hp
  obtain ⟨k', hk', hexit⟩ := departs_sysExit hstop.order (hstop.current.trans hself)
    (by rw [hstop.idle]; exact hidle) hc₁ hp hharmless writable code
  have hquiet : Ends nobody _ noCode k (k.withSched s) := hstop.mono fun _ hs => hs.elim
  have hlive : k.state c ≠ .zombie := by
    rw [hc.state_eq]
    decide
  refine ⟨k', ?_, (hquiet.toDeparts.trans hexit).congr ?_ ?_⟩
  · rw [exitGroup, hothers, hs]
    exact hk'
  · intro t
    by_cases htc : t = c
    · subst htc
      simp [hmem, hp, hlive]
    · simp [hothers_iff, htc, and_assoc]
  · intro r
    rw [codesOf_one (fun t ht => ht.2.1) ⟨hmem, hp, hlive⟩]
    exact or_none.symm

end Kernel
