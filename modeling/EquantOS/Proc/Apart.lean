import EquantOS.Proc.Kernel
import EquantOS.Proc.SleepQueue

/-!
# Tasks left alone

What the scheduler does to a task that none of its operations names: nothing.  A task that is
awake and not on the sleep queue keeps its state, and stays off the run queues if it is not
runnable, whatever is done to other tasks; `sched_switch` and `sched_wake` do not harm it
either.  Nothing is assumed about the states of the other tasks.
-/

open Function List

namespace Sched

variable {s s' s'' : Sched} {q : ℕ → List Tid} {l : List Tid} {t c : Tid} {T : Tid → Prop}

/-- Both kinds of queues are proper lists, and so is the table of I/O waiters. -/
structure InOrder (s : Sched) : Prop where
  run : ∃ q, Holds s q
  sleep : ∃ l, s.toSleepQueue.Holds l
  waiters : s.ioWaiters.Nodup

/-- The task is awake in the given state, off the sleep queue, and queued only if runnable. -/
structure Apart (s : Sched) (t : Tid) (state : TaskState) : Prop where
  awake : state ≠ .sleeping
  state_eq : s.state t = state
  unqueued : state = .runnable ∨ s.queued t = false
  off (l : List Tid) : s.toSleepQueue.Holds l → t ∉ l

/-- From `s` to `s'` the queues stay in order, the tasks of `T` are left alone, and no task
becomes a zombie. -/
structure Guards (T : Tid → Prop) (s s' : Sched) : Prop where
  order : InOrder s'
  keeps (t : Tid) (state : TaskState) : T t → Apart s t state → Apart s' t state
  live (t : Tid) : s'.state t = .zombie → s.state t = .zombie

/-- The same task stays current, too, and the same one idle. -/
structure Tends (T : Tid → Prop) (s s' : Sched) : Prop extends Guards T s s' where
  current : s'.currentTask = s.currentTask
  idle : s'.idleTask = s.idleTask

lemma Guards.trans (h : Guards T s s') (h' : Guards T s' s'') : Guards T s s''
  := ⟨h'.order, fun t state ht ha => h'.keeps t state ht (h.keeps t state ht ha),
    fun t ht => h.live t (h'.live t ht)⟩

lemma Tends.refl (h : InOrder s) : Tends T s s := ⟨⟨h, fun _ _ _ h => h, fun _ h => h⟩, rfl, rfl⟩

lemma Tends.trans {s'' : Sched} (h : Tends T s s') (h' : Tends T s' s'') : Tends T s s''
  := ⟨h.toGuards.trans h'.toGuards, h'.current.trans h.current, h'.idle.trans h.idle⟩

lemma Tends.mono {T' : Tid → Prop} (h : Tends T s s') (hT : ∀ t, T' t → T t) : Tends T' s s'
  := ⟨⟨h.order, fun t state ht => h.keeps t state (hT t ht), h.live⟩, h.current, h.idle⟩

/-- The sleep queue contains one list only. -/
lemma off_of_holds {queue : SleepQueue} (h : queue.Holds l) (ht : t ∉ l) :
  ∀ l', queue.Holds l' → t ∉ l'
  := by
  intro l' h'
  rwa [← h.path.unique h'.path]

/-! ### The run queues -/

/-- The scheduler changes, but not the queues. -/
lemma Guards.congr (h : InOrder s) (hrun : s'.toRunQueue = s.toRunQueue)
    (hsleep : s'.toSleepQueue = s.toSleepQueue) (hprio : s'.priority = s.priority)
    (hwaiters : s'.ioWaiters.Nodup) (hstate : ∀ t, T t → s'.state t = s.state t)
    (hlive : ∀ t, s'.state t = .zombie → s.state t = .zombie) :
  Guards T s s'
  := by
  have hprio' : ∀ c, s'.prio c = s.prio c := by
    intro c
    rw [prio, prio, hprio]
  refine ⟨⟨?_, ?_, hwaiters⟩, ?_, hlive⟩
  · obtain ⟨q, hq⟩ := h.run
    exact ⟨q, hq.congr hrun hprio'⟩
  · rw [hsleep]
    exact h.sleep
  · intro t state ht ha
    refine ⟨ha.awake, (hstate t ht).trans ha.state_eq, ?_, ?_⟩
    · have hqueued : s'.queued t = s.queued t := by
        rw [queued, queued, hrun, hprio']
      rw [hqueued]
      exact ha.unqueued
    · rw [hsleep]
      exact ha.off

lemma queued_enqueue_of_ne (h : Holds s q) (hne : t ≠ c) :
  (s.enqueue c).queued t = s.queued t
  := by
  by_cases hc : c ∈ q (s.prio c)
  · rw [enqueue, if_pos ((h.queued_iff c).mpr hc)]
  have h' := h.enqueue hc
  rw [Bool.eq_iff_iff, h'.queued_iff, h.queued_iff, prio_enqueue]
  by_cases hp : s.prio t = s.prio c
  · rw [hp]
    simp [hne]
  · rw [update_of_ne hp]

lemma queued_dequeue_of_ne (h : Holds s q) (hne : t ≠ c) :
  (s.dequeue c).queued t = s.queued t
  := by
  have h' := h.dequeue c
  rw [Bool.eq_iff_iff, h'.queued_iff, h.queued_iff, prio_dequeue]
  by_cases hp : s.prio t = s.prio c
  · rw [hp, update_self, mem_erase_of_ne hne]
  · rw [update_of_ne hp]

lemma queued_dequeue_self (h : Holds s q) : (s.dequeue c).queued c = false
  := by
  rw [(h.dequeue c).not_queued_iff, prio_dequeue, update_self]
  exact (h.nodup _).not_mem_erase

lemma state_enqueue_of_ne (hne : t ≠ c) : (s.enqueue c).state t = s.state t
  := by
  rw [enqueue]
  split
  · rfl
  · exact update_of_ne hne ..

/-- `sched_enqueue` leaves the other tasks alone. -/
lemma tends_enqueue (h : InOrder s) (c : Tid) : Tends (· ≠ c) s (s.enqueue c)
  := by
  obtain ⟨q, hq⟩ := h.run
  refine ⟨⟨⟨hq.enqueue_any c, ?_, ?_⟩, ?_, ?_⟩, currentTask_enqueue, idleTask_enqueue⟩
  · rw [toSleepQueue_enqueue]
    exact h.sleep
  · rw [ioWaiters_enqueue]
    exact h.waiters
  · intro t state hne ha
    refine ⟨ha.awake, (state_enqueue_of_ne hne).trans ha.state_eq, ?_, ?_⟩
    · rw [queued_enqueue_of_ne hq hne]
      exact ha.unqueued
    · rw [toSleepQueue_enqueue]
      exact ha.off
  · intro t ht
    by_cases htc : t = c
    · subst htc
      rw [enqueue] at ht
      split at ht
      · exact ht
      · simp [pushBack] at ht
    · rwa [state_enqueue_of_ne htc] at ht

lemma tends_dequeue (h : InOrder s) (c : Tid) : Tends T s (s.dequeue c)
  := by
  obtain ⟨q, hq⟩ := h.run
  refine ⟨⟨⟨⟨_, hq.dequeue c⟩, ?_, ?_⟩, ?_, ?_⟩, currentTask_dequeue, idleTask_dequeue⟩
  · rw [toSleepQueue_dequeue]
    exact h.sleep
  · rw [ioWaiters_dequeue]
    exact h.waiters
  · intro t state _ ha
    refine ⟨ha.awake, by rw [state_dequeue, ha.state_eq], ?_, ?_⟩
    · by_cases htc : t = c
      · subst htc
        exact .inr (queued_dequeue_self hq)
      · rw [queued_dequeue_of_ne hq htc]
        exact ha.unqueued
    · rw [toSleepQueue_dequeue]
      exact ha.off
  · intro t ht
    rwa [state_dequeue] at ht

lemma tends_stop (h : InOrder s) (c : Tid) {state : TaskState} (hstate : state ≠ .zombie) :
  Tends (· ≠ c) s (s.stop c state)
  := by
  refine ⟨Guards.congr h rfl rfl rfl h.waiters (fun _ ht => update_of_ne ht ..) ?_, rfl,
    rfl⟩
  intro t ht
  by_cases htc : t = c
  · subst htc
    exact absurd (ht.symm.trans (update_self ..)) hstate.symm
  · exact (update_of_ne htc ..).symm.trans ht

lemma tends_block (h : InOrder s) (c : Tid) : Tends (· ≠ c) s (s.block c)
  := by
  have hout := tends_dequeue (T := (· ≠ c)) h c
  exact hout.trans (tends_stop hout.order c (by decide))

/-- The first part of `sched_switch` leaves all tasks alone, the current one too. -/
lemma tends_requeue (h : InOrder s) (c : Tid) : Tends T s (s.requeue c)
  := by
  rw [requeue]
  split
  · exact Tends.refl h
  have hout := tends_dequeue (T := T) h c
  simp only
  split
  · next hrun =>
    have hback := tends_enqueue hout.order c
    refine ⟨⟨hback.order, ?_, fun t ht => hout.live t (hback.live t ht)⟩,
      hback.current.trans hout.current, hback.idle.trans hout.idle⟩
    intro t state ht ha
    have ha' := hout.keeps t state ht ha
    by_cases htc : t = c
    · subst htc
      have hstate : state = .runnable := ha'.state_eq.symm.trans hrun
      refine ⟨ha.awake, ?_, .inl hstate, ?_⟩
      · rw [hstate, enqueue]
        split
        · exact hrun
        · exact update_self ..
      · rw [toSleepQueue_enqueue]
        exact ha'.off
    · exact hback.keeps t state htc ha'
  · exact hout

lemma guards_switch (h : InOrder s) : Guards T s s.switch
  := by
  rw [switch]
  split
  · exact (Tends.refl h).toGuards
  next task _ =>
    have hout := tends_requeue (T := T) h task
    simp only
    split
    · exact hout.toGuards
    · exact hout.toGuards.trans (Guards.congr hout.order rfl rfl rfl hout.order.waiters
        (fun _ _ => rfl) fun _ ht => ht)

lemma Tends.switch (h : Tends T s s') : Guards T s s'.switch
  := h.toGuards.trans (guards_switch h.order)

/-- Unblocking the tasks that pass a test leaves the tasks alone that do not. -/
lemma tends_unblockAll (h : InOrder s) {test : Sched → Tid → Bool}
    (htest : ∀ s t, test s t → ¬T t) (tasks : List Tid) :
  Tends T s (Kernel.unblockAll test tasks s)
  := by
  induction tasks generalizing s with
  | nil => exact Tends.refl h
  | cons c tasks ih =>
    rw [Kernel.unblockAll, foldl_cons]
    split
    · next hpass =>
      have hone : Tends T s (s.enqueue c) := (tends_enqueue h c).mono fun t ht htc =>
        htest s c hpass (htc ▸ ht)
      exact hone.trans (ih hone.order)
    · exact ih h

/-! ### The sleep queue -/

/-- The sleep queue is replaced by one that contains no more tasks than `T` leaves out. -/
lemma tends_sleepQueue {queue : SleepQueue} (h : InOrder s)
    (hqueue : queue.Holds l) (hoff : ∀ t state, T t → Apart s t state → t ∉ l) :
  Tends T s { s with toSleepQueue := queue }
  := by
  refine ⟨⟨⟨?_, ⟨l, hqueue⟩, h.waiters⟩, ?_, fun _ ht => ht⟩, rfl, rfl⟩
  · obtain ⟨q, hq⟩ := h.run
    exact ⟨q, hq.congr rfl fun _ => rfl⟩
  · intro t state ht ha
    exact ⟨ha.awake, ha.state_eq, ha.unqueued, off_of_holds hqueue (hoff t state ht ha)⟩

/-- `sched_make_sleep` of a task that is not on the sleep queue. -/
lemma tends_makeSleep (h : InOrder s) (hc : ∀ l, s.toSleepQueue.Holds l → c ∉ l) (u : ℕ) :
  ∃ s', s.makeSleep c u = some s' ∧ Tends (· ≠ c) s s'
  := by
  obtain ⟨l, hl⟩ := h.sleep
  obtain ⟨queue, l', hinsert, hqueue, hperm, -⟩ := hl.insert (hc l hl) u
  have hstop := tends_stop h c (show TaskState.sleeping ≠ .zombie by decide)
  refine ⟨{ s.stop c .sleeping with toSleepQueue := queue }, ?_, ?_⟩
  · rw [makeSleep, hinsert]
    rfl
  · apply hstop.trans
    apply tends_sleepQueue hstop.order hqueue
    intro t state hne ha
    rw [hperm.mem_iff, mem_cons, not_or]
    exact ⟨hne, ha.off l hl⟩

/-- `sched_wake` leaves all tasks alone that are awake. -/
lemma tends_wake (h : InOrder s) (c : Tid) : ∃ s', s.wake c = some s' ∧ Tends T s s'
  := by
  rw [wake]
  split
  · next hsleep =>
    obtain ⟨l, hl⟩ := h.sleep
    obtain ⟨queue, hunlink, hqueue, -⟩ := hl.unlink c
    rw [hunlink]
    refine ⟨_, rfl, ?_⟩
    set queue' : SleepQueue := { queue with sleepUntil := update queue.sleepUntil c 0 }
    have hqueue' : queue'.Holds (l.erase c) := by
      refine hqueue.congr rfl (fun _ _ => rfl) ?_
      intro a ha
      apply update_of_ne
      rintro rfl
      exact hl.nodup.not_mem_erase ha
    have hout : Tends (· ≠ c) s { s with toSleepQueue := queue' } :=
      tends_sleepQueue h hqueue' fun t state _ ha hmem => ha.off l hl (mem_of_mem_erase hmem)
    have hback := hout.trans (tends_enqueue hout.order c)
    refine ⟨⟨hback.order, ?_, hback.live⟩, hback.current, hback.idle⟩
    intro t state _ ha
    apply hback.keeps t state _ ha
    rintro rfl
    exact ha.awake (ha.state_eq.symm.trans hsleep)
  · exact ⟨s, rfl, Tends.refl h⟩

/-- `sched_timer_tick` leaves all tasks alone that are not on the sleep queue. -/
lemma tends_timerTick (h : InOrder s) (tick : BitVec 32) :
  ∃ s', s.timerTick tick = some s' ∧ Tends T s s'
  := by
  -- over the sleep queue, which loses its first task in every round
  suffices hloop : ∀ (l : List Tid) (fuel : ℕ) (s : Sched), InOrder s → s.toSleepQueue.Holds l →
      l.length < fuel → ∃ s', timerLoop tick.toNat fuel s = some s' ∧ Tends T s s' by
    obtain ⟨l, hl⟩ := h.sleep
    exact hloop l SleepQueue.walkLimit s h hl (SleepQueue.length_lt_walkLimit hl.nodup)
  intro l
  induction l with
  | nil =>
    intro fuel s h hl hfuel
    obtain ⟨fuel, rfl⟩ := Nat.exists_eq_succ_of_ne_zero (Nat.ne_zero_of_lt hfuel)
    have hhead : s.sleepQueueHead = none := hl.path
    refine ⟨s, ?_, Tends.refl h⟩
    rw [timerLoop, hhead]
  | cons c l ih =>
    intro fuel s h hl hfuel
    obtain ⟨fuel, rfl⟩ := Nat.exists_eq_succ_of_ne_zero (Nat.ne_zero_of_lt hfuel)
    have hhead : s.sleepQueueHead = some c := hl.path.1
    rw [timerLoop, hhead]
    simp only
    split
    · have hout : Tends (· ≠ c) s { s with toSleepQueue := s.toSleepQueue.pop c } :=
        tends_sleepQueue h hl.pop fun t state _ ha hmem =>
          ha.off _ hl (mem_cons_of_mem c hmem)
      have hback := hout.trans (tends_enqueue hout.order c)
      have hpopped : (({ s with toSleepQueue := s.toSleepQueue.pop c } : Sched).enqueue
          c).toSleepQueue.Holds l := by
        rw [toSleepQueue_enqueue]
        exact hl.pop
      rw [length_cons] at hfuel
      obtain ⟨s', hs', hrest⟩ := ih fuel _ hback.order hpopped (by omega)
      refine ⟨s', hs', ⟨hrest.order, ?_, fun t ht => hback.live t (hrest.live t ht)⟩,
        hrest.current.trans hback.current, hrest.idle.trans hback.idle⟩
      intro t state ht ha
      apply hrest.keeps t state ht
      apply hback.keeps t state _ ha
      rintro rfl
      exact ha.off _ hl (by simp)
    · exact ⟨s, rfl, Tends.refl h⟩

/-! ### I/O waiters -/

/-- The table of I/O waiters does not matter. -/
lemma tends_ioWaiters (h : InOrder s) {waiters : List Tid} (hwaiters : waiters.Nodup) :
  Tends T s { s with ioWaiters := waiters }
  := ⟨Guards.congr h rfl rfl rfl hwaiters (fun _ _ => rfl) fun _ ht => ht, rfl, rfl⟩

lemma tends_ioWakeAll (h : InOrder s) : ∃ s', s.ioWakeAll = some s' ∧ Tends T s s'
  := by
  have hloop : ∀ (tasks : List Tid) (s : Sched), InOrder s →
      ∃ s', tasks.foldlM wake s = some s' ∧ Tends T s s' := by
    intro tasks
    induction tasks with
    | nil => exact fun s h => ⟨s, rfl, Tends.refl h⟩
    | cons c tasks ih =>
      intro s h
      obtain ⟨s₁, hs₁, hg₁⟩ := tends_wake (T := T) h c
      obtain ⟨s₂, hs₂, hg₂⟩ := ih s₁ hg₁.order
      refine ⟨s₂, ?_, hg₁.trans hg₂⟩
      rw [foldlM_cons, hs₁]
      exact hs₂
  obtain ⟨s', hs', hg⟩ := hloop s.ioWaiters s h
  refine ⟨{ s' with ioWaiters := [] }, ?_, hg.trans (tends_ioWaiters hg.order nodup_nil)⟩
  rw [ioWakeAll, hs']
  rfl

/-- Putting the last entry in the place of another one, and shortening the table, removes that
one. -/
lemma perm_set_dropLast {i : ℕ} (hi : l.idxOf? c = some i) :
  (l.set i (l.getLastD c)).dropLast.Perm (l.erase c)
  := by
  induction l generalizing i with
  | nil => cases hi
  | cons a l ih =>
    rw [idxOf?_cons] at hi
    by_cases hac : a = c
    · subst hac
      obtain rfl : 0 = i := by simpa using hi
      rw [erase_cons_head, set_cons_zero]
      rcases eq_nil_or_concat l with rfl | ⟨l', z, rfl⟩
      · simp
      have hlast : (a :: (l' ++ [z])).getLastD a = z := by
        rw [← cons_append, getLastD_eq_getLast?, getLast?_concat]
        rfl
      rw [concat_eq_append, hlast, ← cons_append, dropLast_concat]
      exact (perm_append_singleton z l').symm
    · rw [beq_false_of_ne hac] at hi
      obtain ⟨j, hj, rfl⟩ := Option.map_eq_some_iff.mp (by simpa using hi)
      rw [erase_cons_tail (by simpa using hac), set_cons_succ]
      have hne : l ≠ [] := by
        rintro rfl
        cases hj
      have hlast : (a :: l).getLastD c = l.getLastD c := by
        cases l with
        | nil => exact absurd rfl hne
        | cons b l => simp
      have hne' : l.set j (l.getLastD c) ≠ [] := by simpa using hne
      rw [hlast, dropLast_cons_of_ne_nil hne']
      exact (ih hj).cons a

lemma removeIoWaiter_eq (s : Sched) (c : Tid) :
  ∃ waiters, s.removeIoWaiter c = { s with ioWaiters := waiters }
    ∧ waiters.Perm (s.ioWaiters.erase c)
  := by
  rw [removeIoWaiter]
  split
  · next hnone =>
    refine ⟨s.ioWaiters, rfl, ?_⟩
    rw [erase_of_not_mem (idxOf?_eq_none_iff.mp hnone)]
  · next i hi => exact ⟨_, rfl, perm_set_dropLast hi⟩

/-- A task is on no queue and in no table. -/
structure Gone (s : Sched) (t : Tid) : Prop where
  unqueued : s.queued t = false
  off (l : List Tid) : s.toSleepQueue.Holds l → t ∉ l
  waiter : t ∉ s.ioWaiters

/-- `sched_forget` leaves all tasks alone that are on no queue, and the other ones; and the task
is gone. -/
lemma tends_forget (h : InOrder s) (c : Tid) :
  ∃ s', s.forget c = some s' ∧ Tends T s s' ∧ s'.state = s.state ∧ Gone s' c
    ∧ ∀ t, Gone s t → Gone s' t
  := by
  obtain ⟨q, hq⟩ := h.run
  have hout := tends_dequeue (T := T) h c
  obtain ⟨l, hl⟩ := hout.order.sleep
  obtain ⟨queue, hunlink, hqueue, -⟩ := hl.unlink c
  set s₁ : Sched := { s.dequeue c with toSleepQueue := queue } with hs₁
  have hoff : Tends T s s₁ :=
    hout.trans (tends_sleepQueue hout.order hqueue fun t state _ ha hmem =>
      ha.off l hl (mem_of_mem_erase hmem))
  obtain ⟨waiters, heq, hperm⟩ := removeIoWaiter_eq s₁ c
  have hwaiters₁ : s₁.ioWaiters = s.ioWaiters := ioWaiters_dequeue
  rw [hwaiters₁] at hperm
  have hnodup : waiters.Nodup := hperm.nodup_iff.mpr (h.waiters.erase c)
  refine ⟨{ s₁ with ioWaiters := waiters }, ?_, hoff.trans (tends_ioWaiters hoff.order hnodup),
    state_dequeue, ⟨?_, ?_, ?_⟩, ?_⟩
  · rw [forget]
    simp only [hunlink, Option.bind_eq_bind, Option.bind_some]
    rw [← heq]
  · exact queued_dequeue_self hq
  · exact off_of_holds hqueue hl.nodup.not_mem_erase
  · rw [hperm.mem_iff]
    exact h.waiters.not_mem_erase
  · intro t ht
    refine ⟨?_, off_of_holds hqueue ?_, ?_⟩
    · have hqueued : ({ s₁ with ioWaiters := waiters } : Sched).queued t = (s.dequeue c).queued t :=
        rfl
      rw [hqueued]
      by_cases htc : t = c
      · subst htc
        exact queued_dequeue_self hq
      · rw [queued_dequeue_of_ne hq htc]
        exact ht.unqueued
    · intro hmem
      rw [toSleepQueue_dequeue] at hl
      exact ht.off l hl (mem_of_mem_erase hmem)
    · rw [hperm.mem_iff]
      exact fun hmem => ht.waiter (mem_of_mem_erase hmem)

lemma tends_ioWaitPrepare (h : InOrder s) : Tends T s s.ioWaitPrepare
  := by
  rw [ioWaitPrepare]
  split
  · exact Tends.refl h
  next task _ =>
    split_ifs with hmem
    · exact Tends.refl h
    · apply tends_ioWaiters h
      rw [nodup_append]
      refine ⟨h.waiters, nodup_singleton task, ?_⟩
      rintro a ha b hb rfl
      exact hmem (mem_singleton.mp hb ▸ ha)
    · exact Tends.refl h

lemma tends_ioWaitDone (h : InOrder s) : Tends T s s.ioWaitDone
  := by
  rw [ioWaitDone]
  split
  · exact Tends.refl h
  next task _ =>
    obtain ⟨waiters, heq, hperm⟩ := removeIoWaiter_eq s task
    rw [heq]
    exact tends_ioWaiters h (hperm.nodup_iff.mpr (h.waiters.erase task))

end Sched
