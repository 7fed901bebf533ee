import EquantOS.Proc.SleepQueue

/-!
# Sleepers

The invariant that ties the two kinds of queues to the states of the tasks: the tasks on
the sleep queue are those that are asleep, and the tasks on the run queues are runnable,
but for a current task that is about to leave.
-/

open Function List Option

namespace Sched

open Sched SleepQueue

variable {s s' : Sched} {q : ℕ → List Tid} {l : List Tid} {t : Tid}

/-- The run queues contain `q`, the sleep queue contains `l`, and both agree with the states. -/
structure Tied (s : Sched) (q : ℕ → List Tid) (l : List Tid) : Prop where
  run : s.Holds q
  sleep : s.toSleepQueue.Holds l
  asleep (t : Tid) : t ∈ l ↔ s.state t = .sleeping
  runnable (p : ℕ) : ∀ t ∈ q p, s.state t = .runnable ∨ s.currentTask = some t ∧ s.idleTask ≠ some t

/-- The invariant: the current task and the idle task are awake. -/
structure Awake (s : Sched) : Prop where
  tied : ∃ q l, Tied s q l
  current (t : Tid) : s.currentTask = some t → s.state t ≠ .sleeping
  idle : ∃ t, s.idleTask = some t ∧ s.state t ≠ .sleeping

/-- No task falls asleep, who stays asleep keeps the deadline, and the same task stays
current. -/
structure Wakes (s s' : Sched) : Prop where
  sleeping (t : Tid) : s'.state t = .sleeping → s.state t = .sleeping
  deadline (t : Tid) : s'.state t = .sleeping → s'.sleepUntil t = s.sleepUntil t
  current : s'.currentTask = s.currentTask
  idle : s'.idleTask = s.idleTask

lemma Wakes.refl (s : Sched) : Wakes s s := ⟨fun _ h => h, fun _ _ => rfl, rfl, rfl⟩

lemma Wakes.trans {s'' : Sched} (h : Wakes s s') (h' : Wakes s' s'') : Wakes s s''
  where
  sleeping t ht := h.sleeping t (h'.sleeping t ht)
  deadline t ht := (h'.deadline t ht).trans (h.deadline t (h'.sleeping t ht))
  current := h'.current.trans h.current
  idle := h'.idle.trans h.idle

/-- No task but the current one falls asleep, and who stays asleep keeps the deadline. -/
def Naps (s s' : Sched) : Prop :=
  ∀ t, s.currentTask ≠ some t → s'.state t = .sleeping →
    s.state t = .sleeping ∧ s'.sleepUntil t = s.sleepUntil t

lemma Wakes.naps (h : Wakes s s') : Naps s s'
  := fun t _ ht => ⟨h.sleeping t ht, h.deadline t ht⟩

lemma Wakes.trans_naps {s'' : Sched} (h : Wakes s s') (h' : Naps s' s'') : Naps s s''
  := by
  intro t ht hsleep
  obtain ⟨hsleep', hdeadline⟩ := h' t (h.current ▸ ht) hsleep
  exact ⟨h.sleeping t hsleep', hdeadline.trans (h.deadline t hsleep')⟩

/-- The current task and the idle task stay awake. -/
lemma Awake.of_wakes (h : Awake s) (hw : Wakes s s') (htied : ∃ q l, Tied s' q l) : Awake s'
  := by
  refine ⟨htied, ?_, ?_⟩
  · intro t ht hsleep
    exact h.current t (hw.current ▸ ht) (hw.sleeping t hsleep)
  · obtain ⟨t, ht, hawake⟩ := h.idle
    exact ⟨t, hw.idle.trans ht, fun hsleep => hawake (hw.sleeping t hsleep)⟩

/-! ### The run queues -/

lemma wakes_enqueue (s : Sched) (t : Tid) : Wakes s (s.enqueue t)
  := by
  refine ⟨?_, fun c _ => by rw [toSleepQueue_enqueue], currentTask_enqueue, idleTask_enqueue⟩
  intro c hc
  rw [enqueue] at hc
  split at hc
  · exact hc
  by_cases hct : c = t
  · subst hct
    simp [pushBack] at hc
  · simpa [pushBack, update_of_ne hct] using hc

lemma wakes_dequeue (s : Sched) (t : Tid) : Wakes s (s.dequeue t)
  := ⟨fun c hc => by rwa [state_dequeue] at hc, fun c _ => by rw [toSleepQueue_dequeue],
    currentTask_dequeue, idleTask_dequeue⟩

variable {queue : SleepQueue} {state : TaskState}

/-- A task that is not queued becomes runnable, and is taken off the sleep queue with that. -/
lemma Tied.rouse (h : Tied s q l) (ht : s.queued t = false) (hqueue : queue.Holds (l.erase t)) :
  Tied ({ s with toSleepQueue := queue }.pushBack t)
    (update q (s.prio t) (q (s.prio t) ++ [t])) (l.erase t)
  := by
  have hrun : Holds { s with toSleepQueue := queue } q := h.run.congr rfl fun _ => rfl
  refine ⟨hrun.pushBack ((h.run.not_queued_iff t).mp ht), hqueue, ?_, ?_⟩
  · intro c
    rw [h.sleep.nodup.mem_erase_iff, h.asleep]
    by_cases hc : c = t
    · subst hc
      simp [pushBack]
    · simp [pushBack, hc]
  · intro p c hc
    by_cases hct : c = t
    · subst hct
      exact .inl (update_self ..)
    have hold : c ∈ q p := by
      by_cases hp : p = s.prio t
      · subst hp
        rw [update_self, mem_append, mem_singleton] at hc
        exact hc.resolve_right hct
      · rwa [update_of_ne hp] at hc
    have hsame : ({ s with toSleepQueue := queue }.pushBack t).state c = s.state c :=
      update_of_ne hct ..
    exact (h.runnable p c hold).imp_left hsame.trans

/-- A task that is awake is enqueued. -/
lemma Tied.enqueue (h : Tied s q l) (ht : s.state t ≠ .sleeping) :
  ∃ q', Tied (s.enqueue t) q' l
  := by
  rw [Sched.enqueue]
  split
  · exact ⟨q, h⟩
  next hnot =>
    have hl : l.erase t = l := erase_of_not_mem (by rwa [h.asleep])
    have hsleep : s.toSleepQueue.Holds (l.erase t) := hl.symm ▸ h.sleep
    have hroused := h.rouse (by simpa using hnot) hsleep
    rw [hl] at hroused
    exact ⟨_, hroused⟩

lemma Tied.dequeue (h : Tied s q l) (t : Tid) :
  Tied (s.dequeue t) (update q (s.prio t) ((q (s.prio t)).erase t)) l
  where
  run := h.run.dequeue t
  sleep := by
    rw [toSleepQueue_dequeue]
    exact h.sleep
  asleep c := by
    rw [state_dequeue]
    exact h.asleep c
  runnable p c hc := by
    rw [state_dequeue, currentTask_dequeue, idleTask_dequeue]
    apply h.runnable p
    by_cases hp : p = s.prio t
    · subst hp
      rw [update_self] at hc
      exact mem_of_mem_erase hc
    · rwa [update_of_ne hp] at hc

/-- A task that is neither queued nor asleep, or the current task, gets another state. -/
lemma Tied.stop (h : Tied s q l) (hstate : state ≠ .sleeping) (ht : s.state t ≠ .sleeping)
    (hq : (∀ p, t ∉ q p) ∨ s.currentTask = some t ∧ s.idleTask ≠ some t) :
  Tied (s.stop t state) q l
  where
  run := h.run.congr rfl fun _ => rfl
  sleep := h.sleep
  asleep c := by
    rw [h.asleep]
    by_cases hc : c = t
    · subst hc
      simp [stop, ht, hstate]
    · simp [Sched.stop, update_of_ne hc]
  runnable p c hc := by
    by_cases hct : c = t
    · subst hct
      rcases hq with hq | hq
      · exact absurd hc (hq p)
      · exact .inr hq
    · have hsame : (s.stop t state).state c = s.state c := update_of_ne hct ..
      rw [hsame]
      exact h.runnable p c hc

lemma wakes_stop (hstate : state ≠ .sleeping) (s : Sched) (t : Tid) :
  Wakes s (s.stop t state)
  := by
  refine ⟨?_, fun _ _ => rfl, rfl, rfl⟩
  intro c hc
  by_cases hct : c = t
  · subst hct
    simp [stop, hstate] at hc
  · simpa [stop, update_of_ne hct] using hc

/-- `sched_unblock` of a task that is awake. -/
lemma Awake.enqueue (h : Awake s) (ht : s.state t ≠ .sleeping) : Awake (s.enqueue t)
  := by
  obtain ⟨q, l, htied⟩ := h.tied
  obtain ⟨q', htied'⟩ := htied.enqueue ht
  exact h.of_wakes (wakes_enqueue s t) ⟨q', l, htied'⟩

/-- A task is in no queue once it is dequeued. -/
lemma Holds.not_mem_dequeue (h : Holds s q) (p : ℕ) :
  t ∉ update q (s.prio t) ((q (s.prio t)).erase t) p
  := by
  by_cases hp : p = s.prio t
  · subst hp
    rw [update_self]
    exact (h.nodup _).not_mem_erase
  · rw [update_of_ne hp]
    exact h.not_mem_of_ne hp

/-- `sched_block` of a task that is awake. -/
lemma Awake.block (h : Awake s) (ht : s.state t ≠ .sleeping) : Awake (s.block t)
  := by
  obtain ⟨q, l, htied⟩ := h.tied
  have hw := (wakes_dequeue s t).trans (wakes_stop (show TaskState.blocked ≠ .sleeping by decide) _ t)
  refine h.of_wakes hw ⟨_, l, (htied.dequeue t).stop (by decide) ?_ (.inl ?_)⟩
  · rwa [state_dequeue]
  · exact htied.run.not_mem_dequeue

lemma wakes_block (s : Sched) (t : Tid) : Wakes s (s.block t)
  := (wakes_dequeue s t).trans (wakes_stop (by decide) _ t)

/-! ### Switching -/

lemma state_enqueue_self (h : s.state t = .runnable) : (s.enqueue t).state t = .runnable
  := by
  rw [enqueue]
  split
  · exact h
  · exact update_self ..

/-- After the first part of `sched_switch` all queued tasks are runnable. -/
lemma Tied.requeue (h : Tied s q l) (ht : s.currentTask = some t) :
  ∃ q', Tied (s.requeue t) q' l ∧ ∀ p, ∀ c ∈ q' p, (s.requeue t).state c = .runnable
  := by
  rw [Sched.requeue]
  split
  · next hidle =>
    refine ⟨q, h, ?_⟩
    intro p c hc
    rcases h.runnable p c hc with hrun | ⟨hcur, hne⟩
    · exact hrun
    · rw [ht] at hcur
      exact absurd (some.inj hcur ▸ hidle) hne
  · have hout := h.dequeue t
    have hall : ∀ p, ∀ c ∈ update q (s.prio t) ((q (s.prio t)).erase t) p,
        s.state c = .runnable := by
      intro p c hc
      rcases hout.runnable p c hc with hrun | ⟨hcur, -⟩
      · rwa [state_dequeue] at hrun
      · rw [currentTask_dequeue, ht] at hcur
        exact absurd (some.inj hcur ▸ hc) (h.run.not_mem_dequeue p)
    simp only [state_dequeue]
    split
    · next hrun =>
      obtain ⟨q', hq'⟩ := hout.enqueue (t := t) (by rw [state_dequeue, hrun]; decide)
      refine ⟨q', hq', ?_⟩
      intro p c hc
      rcases hq'.runnable p c hc with hstate | ⟨hcur, -⟩
      · exact hstate
      · rw [currentTask_enqueue, currentTask_dequeue, ht] at hcur
        obtain rfl := some.inj hcur
        exact state_enqueue_self (by rwa [state_dequeue])
    · refine ⟨_, hout, ?_⟩
      intro p c hc
      rw [state_dequeue]
      exact hall p c hc

lemma idleTask_requeue : (s.requeue t).idleTask = s.idleTask
  := by
  rw [requeue]
  simp only
  split_ifs <;> simp

/-- `sched_switch` puts nobody to sleep. -/
lemma naps_switch (s : Sched) : Naps s s.switch
  := by
  have hrequeue : ∀ task, Wakes s (s.requeue task) := by
    intro task
    rw [requeue]
    simp only
    split_ifs
    · exact Wakes.refl s
    · exact (wakes_dequeue s task).trans (wakes_enqueue _ task)
    · exact wakes_dequeue s task
  rw [switch]
  split
  · exact (Wakes.refl s).naps
  next task _ =>
    simp only
    split_ifs
    · exact (hrequeue task).naps
    · exact (hrequeue task).naps

/-- A current task that is not runnable keeps its state. -/
lemma state_switch_self (ht : s.currentTask = some t) (hstate : s.state t ≠ .runnable) :
  s.switch.state t = s.state t
  := by
  have hrequeue : (s.requeue t).state t = s.state t := by
    rw [requeue]
    simp only [state_dequeue]
    split_ifs
    · rfl
    · rw [state_dequeue]
  rw [switch, ht]
  simp only
  split_ifs
  · exact hrequeue
  · exact hrequeue

/-- `sched_switch` restores the invariant, whatever the state of the task that it leaves. -/
lemma Tied.switch (h : Tied s q l) (ht : s.currentTask = some t)
    (hidle : ∃ i, s.idleTask = some i ∧ s.state i ≠ .sleeping) :
  Awake s.switch
  := by
  obtain ⟨q', htied, hall⟩ := h.requeue ht
  obtain ⟨i, hi, hawake⟩ := hidle
  have hidle' : (s.requeue t).idleTask = some i := idleTask_requeue.trans hi
  have hsleep : ∀ c, (s.requeue t).state c = .sleeping → s.state c = .sleeping := by
    intro c hc
    exact (h.asleep c).mp ((htied.asleep c).mpr hc)
  have hswitch : s.switch = { s.requeue t with currentTask := (s.requeue t).select } := by
    rw [Sched.switch, ht]
    simp only
    rw [if_neg]
    rw [hidle']
    exact fun hno => some_ne_none i hno.2
  rw [hswitch]
  refine ⟨⟨q', l, ⟨htied.run.congr rfl fun _ => rfl, htied.sleep, htied.asleep, ?_⟩⟩, ?_, ?_⟩
  · intro p c hc
    exact .inl (hall p c hc)
  · intro c hc hsleeping
    by_cases hzero : (s.requeue t).activePriorityBitmap = 0
    · rw [select, if_pos hzero, hidle'] at hc
      exact hawake (some.inj hc ▸ hsleep c hsleeping)
    obtain ⟨p, -, -, hselect⟩ := htied.run.select hzero
    have hmem := mem_of_mem_head? (hselect.symm.trans hc)
    have hrun : (s.requeue t).state c = .runnable := hall p c hmem
    rw [hrun] at hsleeping
    cases hsleeping
  · exact ⟨i, hidle', fun hsleeping => hawake (hsleep i hsleeping)⟩

lemma Awake.switch (h : Awake s) : Awake s.switch
  := by
  obtain ⟨q, l, htied⟩ := h.tied
  cases ht : s.currentTask with
  | none =>
    rw [Sched.switch, ht]
    exact h
  | some t => exact htied.switch ht h.idle

/-- The current task, not the idle task, ends and the next one is selected. -/
lemma Awake.stop_switch (h : Awake s) (hstate : state ≠ .sleeping)
    (ht : s.currentTask = some t) (hidle : s.idleTask ≠ some t) :
  Awake (s.stop t state).switch
  := by
  obtain ⟨q, l, htied⟩ := h.tied
  obtain ⟨i, hi, hawake⟩ := h.idle
  refine (htied.stop hstate (h.current t ht) (.inr ⟨ht, hidle⟩)).switch ht ⟨i, hi, ?_⟩
  intro hsleep
  exact hawake ((wakes_stop hstate s t).sleeping i hsleep)

/-! ### The sleep queue -/

/-- The current task, not the idle task, goes to sleep and the next one is selected. -/
lemma Awake.sleep (h : Awake s) (ht : s.currentTask = some t) (hidle : s.idleTask ≠ some t)
    (u : ℕ) :
  ∃ s', s.makeSleep t u = some s' ∧ Awake s'.switch ∧ Naps s s'.switch
    ∧ s'.switch.state t = .sleeping ∧ s'.switch.sleepUntil t = u
  := by
  obtain ⟨q, l, htied⟩ := h.tied
  obtain ⟨i, hi, hawake⟩ := h.idle
  have hl : t ∉ l := by
    rw [htied.asleep]
    exact h.current t ht
  obtain ⟨queue, l', hinsert, hsleep, hperm, huntil⟩ := htied.sleep.insert hl u
  set s₁ : Sched := { s.stop t .sleeping with toSleepQueue := queue } with hs₁
  have hasleep : s₁.state t = .sleeping := update_self ..
  refine ⟨s₁, ?_, ?_, ?_, ?_, ?_⟩
  · rw [makeSleep, hinsert]
    rfl
  · refine Tied.switch (q := q) (l := l') ⟨htied.run.congr rfl fun _ => rfl, hsleep, ?_, ?_⟩ ht
      ⟨i, hi, ?_⟩
    · intro c
      rw [hperm.mem_iff, mem_cons, htied.asleep]
      by_cases hc : c = t
      · subst hc
        simp [hasleep]
      · have hsame : s₁.state c = s.state c := update_of_ne hc ..
        simp [hsame, hc]
    · intro p c hc
      by_cases hct : c = t
      · subst hct
        exact .inr ⟨ht, hidle⟩
      · have hsame : (s.stop t .sleeping).state c = s.state c := update_of_ne hct ..
        exact (htied.runnable p c hc).imp_left hsame.trans
    · have hit : i ≠ t := by
        rintro rfl
        exact hidle hi
      have hsame : (s.stop t .sleeping).state i = s.state i := update_of_ne hit ..
      exact fun hsleeping => hawake (hsame.symm.trans hsleeping)
  · intro c hc hsleeping
    have hct : c ≠ t := by
      rintro rfl
      exact hc ht
    obtain ⟨hstate, hdeadline⟩ := naps_switch s₁ c hc hsleeping
    have hsame : (s.stop t .sleeping).state c = s.state c := update_of_ne hct ..
    refine ⟨hsame.symm.trans hstate, hdeadline.trans ?_⟩
    simp only [hs₁, huntil, update_of_ne hct]
  · have hcurrent : s₁.currentTask = some t := ht
    rw [state_switch_self hcurrent (by rw [hasleep]; decide), hasleep]
  · rw [toSleepQueue_switch]
    simp only [hs₁, huntil, update_self]

/-- A sleeping task is on no run queue. -/
lemma Tied.not_queued (h : Tied s q l)
    (hcurrent : ∀ t, s.currentTask = some t → s.state t ≠ .sleeping) (ht : s.state t = .sleeping) :
  s.queued t = false
  := by
  rw [h.run.not_queued_iff]
  intro hmem
  rcases h.runnable _ t hmem with hstate | ⟨hcur, -⟩
  · rw [ht] at hstate
    cases hstate
  · exact hcurrent t hcur ht

lemma wakes_rouse (huntil : ∀ c ≠ t, queue.sleepUntil c = s.sleepUntil c) :
  Wakes s ({ s with toSleepQueue := queue }.pushBack t)
  := by
  have hne : ∀ c, ({ s with toSleepQueue := queue }.pushBack t).state c = .sleeping → c ≠ t := by
    rintro c hc rfl
    simp [pushBack] at hc
  refine ⟨?_, fun c hc => huntil c (hne c hc), rfl, rfl⟩
  intro c hc
  simpa [pushBack, update_of_ne (hne c hc)] using hc

/-- The loop of `sched_timer_tick` wakes the tasks that are due, and only these. -/
lemma Tied.timerLoop {fuel : ℕ} (h : Tied s q l) (tick : ℕ)
    (hcurrent : ∀ t, s.currentTask = some t → s.state t ≠ .sleeping) (hfuel : l.length < fuel) :
  ∃ s' q' due rest, timerLoop tick fuel s = some s' ∧ l = due ++ rest ∧ Tied s' q' rest
    ∧ Wakes s s' ∧ (∀ t ∈ due, s.sleepUntil t ≤ tick ∧ t ∈ q' (s'.prio t) ∧ s'.state t = .runnable)
    ∧ (∀ t ∈ rest, tick < s.sleepUntil t) ∧ (∀ t ∈ rest, s'.sleepUntil t = s.sleepUntil t)
    ∧ (∀ p, ∀ t ∈ q p, t ∈ q' p)
  := by
  induction l generalizing s q fuel with
  | nil =>
    obtain ⟨fuel, rfl⟩ := Nat.exists_eq_succ_of_ne_zero (Nat.ne_zero_of_lt hfuel)
    have hhead : s.sleepQueueHead = none := h.sleep.path
    refine ⟨s, q, [], [], ?_, rfl, h, Wakes.refl s, by simp, by simp, by simp, fun _ _ ht => ht⟩
    rw [timerLoop, hhead]
  | cons t l ih =>
    obtain ⟨fuel, rfl⟩ := Nat.exists_eq_succ_of_ne_zero (Nat.ne_zero_of_lt hfuel)
    have hhead : s.sleepQueueHead = some t := h.sleep.path.1
    rw [timerLoop, hhead]
    simp only
    split
    · next hdue =>
      have hnot := h.not_queued hcurrent ((h.asleep t).mp (by simp))
      have hpop : (s.toSleepQueue.pop t).Holds ((t :: l).erase t) := by
        rw [erase_cons_head]
        exact h.sleep.pop
      have htied := h.rouse hnot hpop
      have henqueue : ({ s with toSleepQueue := s.toSleepQueue.pop t } : Sched).enqueue t
          = { s with toSleepQueue := s.toSleepQueue.pop t }.pushBack t := if_neg (by
        have hq : ({ s with toSleepQueue := s.toSleepQueue.pop t } : Sched).queued t = false := hnot
        rw [hq]
        exact Bool.false_ne_true)
      rw [henqueue]
      rw [erase_cons_head] at htied
      set s₁ := ({ s with toSleepQueue := s.toSleepQueue.pop t } : Sched).pushBack t with hs₁
      have hwakes : Wakes s s₁ := wakes_rouse fun c hct => update_of_ne hct ..
      have hl : l.length < fuel := by
        rw [length_cons] at hfuel
        omega
      obtain ⟨s', q', due, rest, hloop, heq, htied', hw, hdues, hlater, hkept, hq'⟩ := ih htied (by
        intro c hc hsleep
        exact hcurrent c (hwakes.current ▸ hc) (hwakes.sleeping c hsleep)) hl
      have htl : t ∉ l := (nodup_cons.mp h.sleep.nodup).1
      have huntil : ∀ c ∈ l, s₁.sleepUntil c = s.sleepUntil c := by
        intro c hc
        apply update_of_ne
        rintro rfl
        exact htl hc
      have hmem : t ∈ q' (s.prio t) := by
        apply hq'
        simp
      have htprio := htied'.run.prio_eq _ t hmem
      have hstate : s'.state t = .runnable := by
        rcases htied'.runnable _ t hmem with hrun | ⟨hcur, -⟩
        · exact hrun
        · rw [hw.current] at hcur
          exact absurd ((h.asleep t).mp (by simp)) (hcurrent t hcur)
      refine ⟨s', q', t :: due, rest, hloop, by rw [heq]; rfl, htied', hwakes.trans hw, ?_, ?_, ?_,
        ?_⟩
      · intro c hc
        rcases mem_cons.mp hc with rfl | hc
        · exact ⟨hdue, htprio.symm ▸ hmem, hstate⟩
        · rw [← huntil c (by rw [heq]; simp [hc])]
          exact hdues c hc
      · intro c hc
        rw [← huntil c (by rw [heq]; simp [hc])]
        exact hlater c hc
      · intro c hc
        rw [← huntil c (by rw [heq]; simp [hc])]
        exact hkept c hc
      · intro p c hc
        apply hq'
        by_cases hp : p = s.prio t
        · subst hp
          simp [hc]
        · rwa [update_of_ne hp]
    · refine ⟨s, q, [], t :: l, rfl, rfl, h, Wakes.refl s, by simp, ?_, fun _ _ => rfl,
        fun _ _ ht => ht⟩
      apply lt_of_lt_head h.sleep.sorted
      intro b hb
      rw [head?_cons, mem_some] at hb
      subst hb
      omega

section

variable (h : Awake s)

include h

lemma Awake.timerTick (tick : BitVec 32) :
  ∃ s', s.timerTick tick = some s' ∧ Awake s' ∧ Wakes s s'
  := by
  obtain ⟨q, l, htied⟩ := h.tied
  obtain ⟨s', q', -, rest, hloop, -, htied', hw, -⟩ := htied.timerLoop tick.toNat
    h.current (length_lt_walkLimit htied.sleep.nodup)
  exact ⟨s', hloop, h.of_wakes hw ⟨q', rest, htied'⟩, hw⟩

/-- A sleeping task is made runnable by the tick of its deadline, and not before. -/
lemma Awake.timerTick_self (tick : BitVec 32) (ht : s.state t = .sleeping) :
  ∃ s', s.timerTick tick = some s' ∧ Awake s'
    ∧ (s.sleepUntil t ≤ tick.toNat → s'.state t = .runnable ∧ s'.queued t)
    ∧ (tick.toNat < s.sleepUntil t →
      s'.state t = .sleeping ∧ s'.sleepUntil t = s.sleepUntil t)
  := by
  obtain ⟨q, l, htied⟩ := h.tied
  obtain ⟨s', q', due, rest, hloop, hl, htied', hw, hdue, hrest, hkept, -⟩ :=
    htied.timerLoop tick.toNat h.current
      (length_lt_walkLimit htied.sleep.nodup)
  have hmem : t ∈ due ∨ t ∈ rest := by
    rw [← mem_append, ← hl, htied.asleep]
    exact ht
  refine ⟨s', hloop, h.of_wakes hw ⟨q', rest, htied'⟩, ?_, ?_⟩
  · intro hle
    rcases hmem with hmem | hmem
    · obtain ⟨-, hqueue, hstate⟩ := hdue t hmem
      exact ⟨hstate, (htied'.run.queued_iff t).mpr hqueue⟩
    · exact absurd hle (Nat.not_le.mpr (hrest t hmem))
  · intro hlt
    rcases hmem with hmem | hmem
    · exact absurd (hdue t hmem).1 (Nat.not_le.mpr hlt)
    · exact ⟨(htied'.asleep t).mp hmem, hkept t hmem⟩

lemma Awake.wake (t : Tid) : ∃ s', s.wake t = some s' ∧ Awake s' ∧ Wakes s s'
  := by
  obtain ⟨q, l, htied⟩ := h.tied
  rw [Sched.wake]
  split
  · next hsleep =>
    obtain ⟨queue, hunlink, hqueue, huntil⟩ := htied.sleep.unlink t
    have hnot := htied.not_queued h.current hsleep
    rw [hunlink]
    set queue' : SleepQueue := { queue with sleepUntil := update queue.sleepUntil t 0 }
    have hqueue' : queue'.Holds (l.erase t) := by
      refine hqueue.congr rfl (fun _ _ => rfl) ?_
      intro c hc
      apply update_of_ne
      rintro rfl
      exact htied.sleep.nodup.not_mem_erase hc
    have henqueue : ({ s with toSleepQueue := queue' } : Sched).enqueue t
        = { s with toSleepQueue := queue' }.pushBack t := if_neg (by
      have hq : ({ s with toSleepQueue := queue' } : Sched).queued t = false := hnot
      rw [hq]
      exact Bool.false_ne_true)
    have hwakes : Wakes s ({ s with toSleepQueue := queue' }.pushBack t) := by
      apply wakes_rouse
      intro c hct
      simp only [queue', update_of_ne hct, huntil]
    exact ⟨{ s with toSleepQueue := queue' }.pushBack t, congrArg some henqueue,
      h.of_wakes hwakes ⟨_, _, htied.rouse hnot hqueue'⟩, hwakes⟩
  · exact ⟨s, rfl, h, Wakes.refl s⟩

/-- The table of I/O waiters does not matter. -/
lemma Awake.withIoWaiters (waiters : List Tid) :
  Awake { s with ioWaiters := waiters }
  := by
  obtain ⟨q, l, htied⟩ := h.tied
  exact ⟨⟨q, l, htied.run.congr rfl fun _ => rfl, htied.sleep, htied.asleep, htied.runnable⟩,
    h.current, h.idle⟩

lemma Awake.ioWaitPrepare : Awake s.ioWaitPrepare
  := by
  rw [Sched.ioWaitPrepare]
  split
  · exact h
  split_ifs
  · exact h
  · exact h.withIoWaiters _
  · exact h

lemma Awake.ioWakeAll : ∃ s', s.ioWakeAll = some s' ∧ Awake s' ∧ Wakes s s'
  := by
  have hloop : ∀ (tasks : List Tid) (s : Sched), Awake s →
      ∃ s', tasks.foldlM Sched.wake s = some s' ∧ Awake s' ∧ Wakes s s' := by
    intro tasks
    induction tasks with
    | nil => exact fun s h => ⟨s, rfl, h, Wakes.refl s⟩
    | cons t tasks ih =>
      intro s h
      obtain ⟨s₁, hs₁, h₁, hw₁⟩ := h.wake t
      obtain ⟨s₂, hs₂, h₂, hw₂⟩ := ih s₁ h₁
      refine ⟨s₂, ?_, h₂, hw₁.trans hw₂⟩
      rw [foldlM_cons, hs₁]
      exact hs₂
  obtain ⟨s', hs', h', hw⟩ := hloop s.ioWaiters s h
  refine ⟨{ s' with ioWaiters := [] }, ?_, h'.withIoWaiters [],
    hw.trans ⟨fun _ ht => ht, fun _ _ => rfl, rfl, rfl⟩⟩
  rw [Sched.ioWakeAll, hs']
  rfl

end

/-- The part of `sched_forget` behind `sched_dequeue`, for a task that is awake or whose state
has just been changed. -/
lemma forget_eq (hunlink : s.toSleepQueue.unlink t = some queue) :
  ∃ waiters, s.forget t
    = some { s.dequeue t with toSleepQueue := queue, ioWaiters := waiters }
  := by
  rw [forget]
  simp only [toSleepQueue_dequeue, hunlink, bind_eq_bind, bind_some, removeIoWaiter]
  split
  · exact ⟨_, rfl⟩
  · exact ⟨_, rfl⟩

/-- `sched_forget` of a task that is not asleep. -/
lemma Awake.forget (h : Awake s) (ht : s.state t ≠ .sleeping) :
  ∃ s', s.forget t = some s' ∧ Awake s' ∧ Wakes s s'
  := by
  obtain ⟨q, l, htied⟩ := h.tied
  obtain ⟨queue, hunlink, hqueue, huntil⟩ := htied.sleep.unlink t
  obtain ⟨waiters, hforget⟩ := forget_eq hunlink
  rw [erase_of_not_mem (by rwa [htied.asleep])] at hqueue
  have hw : Wakes s { s.dequeue t with toSleepQueue := queue, ioWaiters := waiters } :=
    (wakes_dequeue s t).trans ⟨fun _ hc => hc, fun c _ => by
      rw [toSleepQueue_dequeue]
      exact congrFun huntil c, rfl, rfl⟩
  have hout := htied.dequeue t
  exact ⟨_, hforget, h.of_wakes hw
    ⟨_, l, hout.run.congr rfl fun _ => rfl, hqueue, hout.asleep, hout.runnable⟩, hw⟩

/-- A task ends: it leaves every queue. -/
lemma Awake.terminate (h : Awake s) (t : Tid) :
  ∃ s', (s.stop t .zombie).forget t = some s' ∧ Awake s' ∧ Wakes s s'
  := by
  obtain ⟨q, l, htied⟩ := h.tied
  obtain ⟨queue, hunlink, hqueue, huntil⟩ := htied.sleep.unlink t
  obtain ⟨waiters, hforget⟩ := forget_eq (s := s.stop t .zombie) hunlink
  have hw : Wakes s { (s.stop t .zombie).dequeue t with
      toSleepQueue := queue, ioWaiters := waiters } :=
    ((wakes_stop (by decide) s t).trans (wakes_dequeue _ t)).trans ⟨fun _ hc => hc, fun c _ => by
      rw [toSleepQueue_dequeue]
      exact congrFun huntil c, rfl, rfl⟩
  have hrun : Holds (s.stop t .zombie) q := htied.run.congr rfl fun _ => rfl
  refine ⟨_, hforget, h.of_wakes hw ⟨_, l.erase t, (hrun.dequeue t).congr rfl fun _ => rfl, hqueue,
    ?_, ?_⟩, hw⟩
  · intro c
    rw [htied.sleep.nodup.mem_erase_iff, htied.asleep]
    by_cases hc : c = t
    · subst hc
      simp [stop]
    · simp [stop, hc]
  · intro p c hc
    have hct : c ≠ t := by
      rintro rfl
      exact hrun.not_mem_dequeue p hc
    have hold : c ∈ q p := by
      by_cases hp : p = (s.stop t .zombie).prio t
      · subst hp
        rw [update_self] at hc
        exact mem_of_mem_erase hc
      · rwa [update_of_ne hp] at hc
    simp only [state_dequeue, currentTask_dequeue, idleTask_dequeue]
    have hsame : (s.stop t .zombie).state c = s.state c := update_of_ne hct ..
    exact (htied.runnable p c hold).imp_left hsame.trans

end Sched
