import EquantOS.Proc.Sched

/-!
# The run queues

What the run queues contain: for every priority a doubly linked list, with a bit in the
bitmap for every list that is not empty.  The links of a task tell whether it is queued.
-/

open LinkedList Function List Option

namespace Sched

open Sched SleepQueue BitVec

variable {s : Sched} {q : ℕ → List Tid} {t : Tid}

/-- The run queue of priority `p` contains the tasks `q p`. -/
structure Holds (s : Sched) (q : ℕ → List Tid) : Prop where
  /-- Head, tail and the links in both directions agree. -/
  linked (p : ℕ) : Queue s.schedNext s.schedPrev (s.runQueues p) (s.runQueuesTail p) (q p)
  nodup (p : ℕ) : (q p).Nodup
  /-- A task is only in the queue of its priority. -/
  prio_eq (p : ℕ) : ∀ t ∈ q p, s.prio t = p
  unlinked (t : Tid) : t ∉ q (s.prio t) → s.schedNext t = none ∧ s.schedPrev t = none
  bit (p : ℕ) : s.activePriorityBitmap.getLsbD p = true ↔ q p ≠ []

/-! ### Single fields -/

lemma prio_lt (t : Tid) : s.prio t < 32
  := by
  rw [prio, numPriorities, prioNormal]
  split <;> omega

@[simp]
lemma toSleepQueue_enqueue : (s.enqueue t).toSleepQueue = s.toSleepQueue
  := by
  rw [enqueue]
  split <;> rfl

@[simp]
lemma toSleepQueue_dequeue : (s.dequeue t).toSleepQueue = s.toSleepQueue
  := by
  rw [dequeue]
  split <;> rfl

@[simp]
lemma priority_enqueue : (s.enqueue t).priority = s.priority
  := by
  rw [enqueue]
  split <;> rfl

@[simp]
lemma priority_dequeue : (s.dequeue t).priority = s.priority
  := by
  rw [dequeue]
  split <;> rfl

@[simp]
lemma prio_enqueue : (s.enqueue t).prio = s.prio
  := by
  funext c
  rw [prio, priority_enqueue, prio]

@[simp]
lemma prio_dequeue : (s.dequeue t).prio = s.prio
  := by
  funext c
  rw [prio, priority_dequeue, prio]

@[simp]
lemma state_dequeue : (s.dequeue t).state = s.state
  := by
  rw [dequeue]
  split <;> rfl

/-- The fields that the run queues have nothing to do with. -/
@[simp]
lemma currentTask_enqueue : (s.enqueue t).currentTask = s.currentTask
  := by
  rw [enqueue]
  split <;> rfl

@[simp]
lemma currentTask_dequeue : (s.dequeue t).currentTask = s.currentTask
  := by
  rw [dequeue]
  split <;> rfl

@[simp]
lemma idleTask_enqueue : (s.enqueue t).idleTask = s.idleTask
  := by
  rw [enqueue]
  split <;> rfl

@[simp]
lemma idleTask_dequeue : (s.dequeue t).idleTask = s.idleTask
  := by
  rw [dequeue]
  split <;> rfl

@[simp]
lemma ioWaiters_enqueue : (s.enqueue t).ioWaiters = s.ioWaiters
  := by
  rw [enqueue]
  split <;> rfl

@[simp]
lemma ioWaiters_dequeue : (s.dequeue t).ioWaiters = s.ioWaiters
  := by
  rw [dequeue]
  split <;> rfl

/-! ### Bits -/

lemma getLsbD_set {b : BitVec 32} {p : ℕ} (hp : p < 32) (i : ℕ) :
  (b ||| 1#32 <<< p).getLsbD i ↔ i = p ∨ b.getLsbD i
  := by
  by_cases hi : i < 32
  · by_cases h : i = p
    · simp [h, hp]
    · simp [hi, h]
      omega
  · have hne : i ≠ p := by omega
    simp [hi, hne]

lemma getLsbD_clear {b : BitVec 32} {p : ℕ} (i : ℕ) :
  (b &&& ~~~(1#32 <<< p)).getLsbD i ↔ i ≠ p ∧ b.getLsbD i
  := by
  by_cases hi : i < 32
  · by_cases h : i = p
    · simp [h]
    · simp [h]
      omega
  · rw [getLsbD_of_ge _ _ (by omega), getLsbD_of_ge _ _ (by omega)]
    simp

/-! ### Single operations -/

namespace Holds

section

variable (h : Holds s q)

include h

/-- Membership is read off the links and the head. -/
lemma queued_iff (t : Tid) : s.queued t ↔ t ∈ q (s.prio t)
  := by
  rw [queued, Bool.or_eq_true, Bool.or_eq_true, isSome_iff_ne_none, isSome_iff_ne_none, beq_iff_eq]
  constructor
  · intro hq
    by_contra hnot
    obtain ⟨hn, hp⟩ := h.unlinked t hnot
    rw [hn, hp] at hq
    have hhead : s.runQueues (s.prio t) = some t := by simpa using hq
    apply hnot
    apply (hhead ▸ h.linked (s.prio t)).linked.head_mem
  · intro hmem
    by_cases hp : s.schedPrev t = none
    · right
      exact (h.linked _).head_of_prev_eq_none hmem hp
    · left
      right
      exact hp

lemma not_queued_iff (t : Tid) : s.queued t = false ↔ t ∉ q (s.prio t)
  := by
  rw [← h.queued_iff, Bool.not_eq_true]

/-- Queues of different priorities have no task in common. -/
lemma disjoint {p r : ℕ} (hpr : p ≠ r) : (q p).Disjoint (q r)
  := by
  intro t hp hr
  exact hpr ((h.prio_eq p t hp).symm.trans (h.prio_eq r t hr))

lemma not_mem_of_ne {p : ℕ} (hp : p ≠ s.prio t) : t ∉ q p
  := fun hmem => hp (h.prio_eq p t hmem).symm

/-- Behind the guard of `sched_enqueue`. -/
lemma pushBack (ht : t ∉ q (s.prio t)) :
  Holds (s.pushBack t) (update q (s.prio t) (q (s.prio t) ++ [t]))
  := by
  have hl := h.linked (s.prio t)
  constructor
  case linked =>
    intro p
    by_cases hp : p = s.prio t
    · subst hp
      simp only [Sched.pushBack, update_self]
      exact hl.insert_tail ht (h.nodup _)
    · simp only [Sched.pushBack, update_of_ne hp]
      exact hl.insert_tail_other (h.linked p) (h.not_mem_of_ne hp) (h.disjoint (Ne.symm hp))
  case nodup =>
    intro p
    by_cases hp : p = s.prio t
    · subst hp
      rw [update_self, ← concat_eq_append]
      exact (h.nodup _).concat ht
    · rw [update_of_ne hp]
      exact h.nodup p
  case prio_eq =>
    intro p c hc
    by_cases hp : p = s.prio t
    · subst hp
      rw [update_self, mem_append, mem_singleton] at hc
      rcases hc with hc | rfl
      · exact h.prio_eq _ c hc
      · rfl
    · rw [update_of_ne hp] at hc
      exact h.prio_eq p c hc
  case unlinked =>
    intro c hc
    have hprio : (s.pushBack t).prio c = s.prio c := rfl
    have hct : c ≠ t := by
      rintro rfl
      exact hc (by rw [hprio]; simp)
    have hout : c ∉ q (s.prio c) := by
      intro hmem
      apply hc
      rw [hprio]
      by_cases hp : s.prio c = s.prio t
      · rw [hp, update_self, mem_append]
        exact .inl (hp ▸ hmem)
      · rw [update_of_ne hp]
        exact hmem
    have htail : s.runQueuesTail (s.prio t) ≠ some c := by
      intro heq
      have hlast := mem_of_getLast? (hl.tail_eq.symm.trans heq)
      exact hout (by rw [h.prio_eq _ c hlast]; exact hlast)
    simp only [Sched.pushBack]
    rw [redirect_of_ne htail, update_of_ne hct, update_of_ne hct]
    exact h.unlinked c hout
  case bit =>
    intro p
    rw [Sched.pushBack, getLsbD_set (prio_lt t), h.bit]
    by_cases hp : p = s.prio t
    · simp [hp]
    · simp [hp]

/-- `sched_enqueue` puts a task that is not queued at the tail of its queue. -/
lemma enqueue (ht : t ∉ q (s.prio t)) :
  Holds (s.enqueue t) (update q (s.prio t) (q (s.prio t) ++ [t]))
  := by
  rw [Sched.enqueue, if_neg (by rw [h.queued_iff]; exact ht)]
  exact h.pushBack ht

/-- Behind the guard of `sched_dequeue`. -/
lemma takeOut (ht : t ∈ q (s.prio t)) :
  Holds (s.takeOut t) (update q (s.prio t) ((q (s.prio t)).erase t))
  := by
  have hl := h.linked (s.prio t)
  have hnew := hl.remove ht (h.nodup _)
  constructor
  case linked =>
    intro p
    by_cases hp : p = s.prio t
    · subst hp
      simp only [Sched.takeOut, update_self]
      exact hnew
    · simp only [Sched.takeOut, update_of_ne hp]
      exact hl.linked.remove_queue (h.linked p) ht (h.disjoint (Ne.symm hp))
  case nodup =>
    intro p
    by_cases hp : p = s.prio t
    · subst hp
      rw [update_self]
      exact (h.nodup _).erase t
    · rw [update_of_ne hp]
      exact h.nodup p
  case prio_eq =>
    intro p c hc
    by_cases hp : p = s.prio t
    · subst hp
      rw [update_self] at hc
      exact h.prio_eq _ c (mem_of_mem_erase hc)
    · rw [update_of_ne hp] at hc
      exact h.prio_eq p c hc
  case unlinked =>
    intro c hc
    have hprio : (s.takeOut t).prio c = s.prio c := rfl
    simp only [Sched.takeOut]
    by_cases hct : c = t
    · subst hct
      simp
    have hout : c ∉ q (s.prio c) := by
      intro hmem
      apply hc
      rw [hprio]
      by_cases hp : s.prio c = s.prio t
      · rw [hp, update_self, mem_erase_of_ne hct]
        exact hp ▸ hmem
      · rw [update_of_ne hp]
        exact hmem
    have hside : ∀ c' ∈ q (s.prio t), c' ≠ c := by
      rintro c' hc' rfl
      exact hout (by rw [h.prio_eq _ c' hc']; exact hc')
    rw [update_of_ne hct, update_of_ne hct, redirect_of_ne, redirect_of_ne]
    · exact h.unlinked c hout
    · intro heq
      exact hside c (hl.linked.next_mem ht heq) rfl
    · intro heq
      exact hside c (hl.linked.prev_mem ht heq) rfl
  case bit =>
    intro p
    simp only [Sched.takeOut]
    rw [hnew.head_eq]
    simp only [head?_eq_none_iff]
    by_cases hp : p = s.prio t
    · subst hp
      split
      · next hnil => simp [hnil]
      · next hne => simp [h.bit, hne, ne_nil_of_mem ht]
    · rw [update_of_ne hp, ← h.bit]
      split
      · rw [getLsbD_clear]
        simp [hp]
      · rfl

/-- `sched_dequeue` takes a task out of its queue, if it is there. -/
lemma dequeue (t : Tid) :
  Holds (s.dequeue t) (update q (s.prio t) ((q (s.prio t)).erase t))
  := by
  rw [Sched.dequeue]
  by_cases ht : t ∈ q (s.prio t)
  · rw [if_pos ((h.queued_iff t).mpr ht)]
    exact h.takeOut ht
  · rw [if_neg (by rw [h.queued_iff]; exact ht), erase_of_not_mem ht, update_eq_self]
    exact h

/-- The first part of `sched_switch`. -/
lemma requeue (hidle : s.idleTask ≠ some t) :
  Holds (s.requeue t) (update q (s.prio t)
    (if s.state t = .runnable then (q (s.prio t)).erase t ++ [t] else (q (s.prio t)).erase t))
  := by
  have hout := h.dequeue t
  rw [Sched.requeue, if_neg hidle]
  simp only [state_dequeue]
  split
  · have ht : t ∉ update q (s.prio t) ((q (s.prio t)).erase t) ((s.dequeue t).prio t) := by
      rw [prio_dequeue, update_self]
      exact (h.nodup _).not_mem_erase
    have hnew := hout.enqueue ht
    rw [prio_dequeue, update_self, update_idem] at hnew
    exact hnew
  · exact hout

/-- `sched_switch` selects the head of the first queue that is not empty. -/
lemma select (hne : s.activePriorityBitmap ≠ 0) :
  ∃ p, q p ≠ [] ∧ (∀ r < p, q r = []) ∧ s.select = (q p).head?
  := by
  refine ⟨s.activePriorityBitmap.ctz.toNat, ?_, ?_, ?_⟩
  · rw [← h.bit]
    exact getLsbD_true_ctz_of_ne_zero hne
  · intro r hr
    have hbit := getLsbD_false_of_lt_ctz hr
    by_contra hnot
    rw [(h.bit r).mpr hnot] at hbit
    cases hbit
  · rw [Sched.select, if_neg hne]
    exact (h.linked _).head_eq

end

end Holds

/-! ### Runs -/

/-- The scheduler before `sched_init`: no task is queued or asleep. -/
def boot (priority : Tid → ℕ) (state : Tid → TaskState) (running : Tid → Bool)
    (idleTask : Option Tid) : Sched where
  runQueues _ := none
  runQueuesTail _ := none
  activePriorityBitmap := 0
  schedNext _ := none
  schedPrev _ := none
  sleepQueueHead := none
  sleepNext _ := none
  sleepUntil _ := 0
  priority := priority
  state := state
  running := running
  ioWaiters := []
  currentTask := none
  idleTask := idleTask

/-- A call that works on the run queues. -/
inductive QueueCall where
  | enqueue (task : Tid)
  | dequeue (task : Tid)
  | block (task : Tid)
  | unblock (task : Tid)
  | forget (task : Tid)
  | switch

def QueueCall.step (s : Sched) : QueueCall → Option Sched
  | .enqueue task => some (s.enqueue task)
  | .dequeue task => some (s.dequeue task)
  | .block task => some (s.block task)
  | .unblock task => some (s.unblock task)
  | .forget task => s.forget task
  | .switch => some s.switch

/-- What the calls keep: the run queues are in order, nobody sleeps and some task runs. -/
structure Ready (s : Sched) : Prop where
  holds : ∃ q, Holds s q
  awake : s.sleepQueueHead = none
  current : s.currentTask ≠ none

lemma holds_boot (priority : Tid → ℕ) (state : Tid → TaskState) (running : Tid → Bool)
    (idleTask : Option Tid) :
  Holds (boot priority state running idleTask) fun _ => []
  where
  linked _ := queue_nil
  nodup _ := nodup_nil
  prio_eq _ _ h := by cases h
  unlinked _ _ := ⟨rfl, rfl⟩
  bit p := by simp [boot]

/-- The run queues are seen in the fields of the run queues and the priorities only. -/
lemma Holds.congr {s' : Sched} (h : Holds s q) (hrun : s'.toRunQueue = s.toRunQueue)
    (hprio : ∀ t, s'.prio t = s.prio t) :
  Holds s' q
  := by
  obtain ⟨hl, hd, hp, hu, hb⟩ := h
  constructor
  · rwa [hrun]
  · exact hd
  · simpa only [hprio] using hp
  · rw [hrun]
    simpa only [hprio] using hu
  · rwa [hrun]

lemma holds_init (priority : Tid → ℕ) (state : Tid → TaskState) (running : Tid → Bool)
    (idleTask : Option Tid) (task : Tid) :
  ∃ q, Holds ((boot priority state running idleTask).init task) q
  := by
  have h := holds_boot (update priority task prioInteractive) state running idleTask
  refine ⟨_, Holds.enqueue (q := fun _ => []) ?_ (not_mem_nil)⟩
  apply h.congr
  · rw [boot, boot]
    simp
  · intro _
    rfl

lemma Holds.enqueue_any (h : Holds s q) (t : Tid) : ∃ q', Holds (s.enqueue t) q'
  := by
  by_cases ht : t ∈ q (s.prio t)
  · rw [Sched.enqueue, if_pos ((h.queued_iff t).mpr ht)]
    exact ⟨q, h⟩
  · exact ⟨_, h.enqueue ht⟩

lemma Holds.requeue_any (h : Holds s q) (t : Tid) : ∃ q', Holds (s.requeue t) q'
  := by
  by_cases hidle : s.idleTask = some t
  · rw [Sched.requeue, if_pos hidle]
    exact ⟨q, h⟩
  · exact ⟨_, h.requeue hidle⟩

/-- Nobody is taken off an empty sleep queue. -/
lemma unlink_empty {queue : SleepQueue} (h : queue.sleepQueueHead = none) (t : Tid) :
  queue.unlink t = some { queue with sleepNext := update queue.sleepNext t none }
  := by
  have hfind : queue.findLink t walkLimit none = some none := by
    rw [walkLimit, findLink, link, h]
  rw [unlink, hfind]
  simp [link, h]

lemma Holds.forget (h : Holds s q) (hs : s.sleepQueueHead = none) (t : Tid) :
  ∃ s', s.forget t = some s' ∧ s'.sleepQueueHead = none ∧ s'.currentTask = s.currentTask
    ∧ ∃ q', Holds s' q'
  := by
  have hempty : (s.dequeue t).toSleepQueue.sleepQueueHead = none := by
    rw [toSleepQueue_dequeue]
    exact hs
  rw [Sched.forget, unlink_empty hempty]
  refine ⟨_, rfl, ?_, ?_, _, (h.dequeue t).congr ?_ ?_⟩
  all_goals rw [removeIoWaiter]
  · split <;> exact hempty
  · split <;> exact currentTask_dequeue
  · split <;> rfl
  · intro c
    split <;> rfl

lemma toSleepQueue_requeue : (s.requeue t).toSleepQueue = s.toSleepQueue
  := by
  rw [requeue]
  simp only
  split_ifs <;> simp

lemma currentTask_requeue : (s.requeue t).currentTask = s.currentTask
  := by
  rw [requeue]
  simp only
  split_ifs <;> simp

lemma toSleepQueue_switch : s.switch.toSleepQueue = s.toSleepQueue
  := by
  rw [switch]
  split
  · rfl
  · simp only
    split_ifs <;> exact toSleepQueue_requeue

section

variable (hcurrent : s.currentTask = some t) (h : Holds (s.requeue t) q)

include hcurrent h

/-- The queues after `sched_switch` are those after its first part. -/
lemma Holds.switch :
  Holds s.switch q
  := by
  rw [Sched.switch, hcurrent]
  simp only
  split_ifs
  · exact h
  · exact h.congr rfl fun _ => rfl

/-- If some queue is not empty, `sched_switch` selects the head of the first one. -/
lemma Holds.switch_selects (hne : s.switch.activePriorityBitmap ≠ 0) :
  ∃ p, q p ≠ [] ∧ (∀ r < p, q r = []) ∧ s.switch.currentTask = (q p).head?
  := by
  have hbitmap : s.switch.activePriorityBitmap = (s.requeue t).activePriorityBitmap := by
    rw [Sched.switch, hcurrent]
    simp only
    split_ifs <;> rfl
  rw [hbitmap] at hne
  obtain ⟨p, hp, hfirst, hselect⟩ := h.select hne
  refine ⟨p, hp, hfirst, ?_⟩
  rw [← hselect, Sched.switch, hcurrent]
  simp only
  rw [if_neg fun hno => hne hno.1]

lemma currentTask_switch_ne_none :
  s.switch.currentTask ≠ none
  := by
  by_cases hne : s.switch.activePriorityBitmap = 0
  · rw [switch, hcurrent] at hne ⊢
    simp only at hne ⊢
    split_ifs at hne ⊢ with hno
    · rw [currentTask_requeue, hcurrent]
      exact some_ne_none t
    · rw [select, if_pos hne]
      exact fun hidle => hno ⟨hne, hidle⟩
  · obtain ⟨p, hp, -, hhead⟩ := h.switch_selects hcurrent hne
    rw [hhead]
    exact fun hnone => hp (head?_eq_none_iff.mp hnone)

end

lemma Ready.step (h : Ready s) (call : QueueCall) : ∃ s', call.step s = some s' ∧ Ready s'
  := by
  obtain ⟨⟨q, hq⟩, hawake, hcurrent⟩ := h
  cases call with
  | enqueue task =>
    refine ⟨_, rfl, hq.enqueue_any task, ?_, ?_⟩
    · rw [toSleepQueue_enqueue]
      exact hawake
    · rwa [currentTask_enqueue]
  | dequeue task =>
    refine ⟨_, rfl, ⟨_, hq.dequeue task⟩, ?_, ?_⟩
    · rw [toSleepQueue_dequeue]
      exact hawake
    · rwa [currentTask_dequeue]
  | block task =>
    refine ⟨_, rfl, ⟨_, (hq.dequeue task).congr rfl fun _ => rfl⟩, ?_, ?_⟩
    · exact (congrArg sleepQueueHead toSleepQueue_dequeue).trans hawake
    · exact currentTask_dequeue.trans_ne hcurrent
  | unblock task =>
    refine ⟨_, rfl, hq.enqueue_any task, ?_, ?_⟩
    · exact (congrArg sleepQueueHead toSleepQueue_enqueue).trans hawake
    · exact currentTask_enqueue.trans_ne hcurrent
  | forget task =>
    obtain ⟨s', hs', hawake', hcurrent', hq'⟩ := hq.forget hawake task
    exact ⟨s', hs', hq', hawake', hcurrent'.trans_ne hcurrent⟩
  | switch =>
    obtain ⟨task, htask⟩ := ne_none_iff_exists'.mp hcurrent
    obtain ⟨q', hq'⟩ := hq.requeue_any task
    refine ⟨_, rfl, ⟨q', hq'.switch htask⟩, ?_, currentTask_switch_ne_none htask hq'⟩
    rw [toSleepQueue_switch]
    exact hawake

lemma ready_init (priority : Tid → ℕ) (state : Tid → TaskState) (running : Tid → Bool)
    (idleTask : Option Tid) (task : Tid) :
  Ready ((boot priority state running idleTask).init task)
  := by
  refine ⟨holds_init .., ?_, ?_⟩
  · rw [init, toSleepQueue_enqueue]
    rfl
  · rw [init, currentTask_enqueue]
    exact some_ne_none task

lemma Ready.run (h : Ready s) (calls : List QueueCall) :
  ∃ s', calls.foldlM QueueCall.step s = some s' ∧ Ready s'
  := by
  induction calls generalizing s with
  | nil => exact ⟨s, rfl, h⟩
  | cons call calls ih =>
    obtain ⟨s₁, hs₁, h₁⟩ := h.step call
    rw [foldlM_cons, hs₁]
    exact ih h₁

/-- After every run of calls from `sched_init` on: the run queues are in order; and
`sched_switch` moves the task that was running to the tail of its queue, if it is still
runnable, or out of it, leaves everything in place if it was the idle task, and selects the
head of the first queue that is then not empty. -/
theorem run_queues_ordered (priority : Tid → ℕ) (state : Tid → TaskState) (running : Tid → Bool)
    (idleTask : Option Tid) (task : Tid) (calls : List QueueCall) :
  ∃ s, calls.foldlM QueueCall.step ((boot priority state running idleTask).init task) = some s
    ∧ ∃ q, Holds s q ∧ ∃ prev q', s.currentTask = some prev ∧ Holds s.switch q'
      ∧ (s.idleTask ≠ some prev → q' = Function.update q (s.prio prev)
        (if s.state prev = .runnable then (q (s.prio prev)).erase prev ++ [prev]
          else (q (s.prio prev)).erase prev))
      ∧ (s.idleTask = some prev → q' = q)
      ∧ (s.switch.activePriorityBitmap ≠ 0 →
        ∃ p, q' p ≠ [] ∧ (∀ r < p, q' r = []) ∧ s.switch.currentTask = (q' p).head?)
  := by
  obtain ⟨s, hrun, ⟨q, hq⟩, -, hcurrent⟩ :=
    (ready_init priority state running idleTask task).run calls
  obtain ⟨prev, hprev⟩ := ne_none_iff_exists'.mp hcurrent
  refine ⟨s, hrun, q, hq, prev, ?_⟩
  by_cases hidle : s.idleTask = some prev
  · have hsame : Holds (s.requeue prev) q := by
      rw [requeue, if_pos hidle]
      exact hq
    exact ⟨q, hprev, hsame.switch hprev, fun h => absurd hidle h, fun _ => rfl,
      hsame.switch_selects hprev⟩
  · have hmoved := hq.requeue hidle
    exact ⟨_, hprev, hmoved.switch hprev, fun _ => rfl, fun h => absurd h hidle,
      hmoved.switch_selects hprev⟩

/-- The idle task runs and a task is woken: the switch selects that task, and the idle task,
runnable as ever, is at the tail of no queue. -/
theorem idle_not_requeued :
  ∃ s, [QueueCall.block 1, .switch, .unblock 1].foldlM QueueCall.step
      ((boot (fun _ => 16) (fun _ => .runnable) (fun _ => true) (some 2)).init 1) = some s
    ∧ s.currentTask = some 2 ∧ s.state 2 = .runnable ∧ s.switch.activePriorityBitmap ≠ 0
    ∧ s.switch.currentTask = some 1 ∧ s.switch.runQueuesTail (s.prio 2) ≠ some 2
  := by
  refine ⟨_, rfl, rfl, rfl, ?_, ?_, ?_⟩ <;> decide +kernel

end Sched
