import EquantOS.Lib.Ledger
import EquantOS.Proc.Kernel
import EquantOS.Proc.RunQueue

/-!
# Address spaces

Who owns an address space.  A process that is not `vm_shared` owns its address space, and a
process that is borrows that of another one.  The owner destroys the address space when it is
released, calls `execve` or is killed for want of memory, whether or not somebody else borrows
it.  What the scheduler does in the meantime does not matter.
-/

open Function List Option

namespace Kernel

open Function Sched Nat

/-! ### What is seen of the processes -/

/-- The numbers and the address space of a process. -/
structure Identity where
  pid : ℕ
  parentPid : ℕ
  cr3 : ℕ
  vmShared : Bool

/-- What a process shows. -/
def identity (p : Process) : Identity := ⟨p.pid, p.parentPid, p.cr3, p.vmShared⟩

/-- The task list, the processes and their address spaces. -/
structure View where
  taskList : List Tid
  process : Tid → Option ℕ
  processes : ℕ → Identity
  nextPid : ℕ
  processCount : ℕ
  spaceCount : ℕ
  destroyed : List (ℕ × Bool)
  kernelCr3 : ℕ

def view (k : Kernel) : View where
  taskList := k.taskList
  process := k.process
  processes p := identity (k.processes p)
  nextPid := k.nextPid
  processCount := k.processCount
  spaceCount := k.spaceCount
  destroyed := k.destroyed
  kernelCr3 := k.kernelCr3

variable {k k' : Kernel} {t child : Tid} {p : ℕ}

lemma identity_update (f : ℕ → Process) (p : ℕ) (q : Process) :
  (fun r => identity (update f p q r))
    = update (fun r => identity (f r)) p (identity q)
  := comp_update identity f p q

/-- A change to a process. -/
lemma view_modProcess (k : Kernel) (p : ℕ) (f : Process → Process) :
  (k.modProcess p f).view = { k.view with
    processes := update k.view.processes p (identity (f (k.processes p))) }
  := by
  simp only [view, modProcess, identity_update]

/-- A change to a process that leaves its numbers and its address space alone. -/
lemma view_modProcess_same {f : Process → Process} (hf : ∀ q, identity (f q) = identity q) :
  (k.modProcess p f).view = k.view
  := by
  rw [view_modProcess, hf]
  have hsame : update k.view.processes p (identity (k.processes p)) = k.view.processes :=
    update_eq_self p k.view.processes
  rw [hsame]

lemma view_closeProcessFiles {wakeups : List Wakeup}
    (h : k.closeProcessFiles wakeups = some k') :
  k'.view = k.view
  := by
  obtain ⟨s, -, hs⟩ := bind_eq_some_iff.mp h
  rw [← some.inj hs]
  rfl

lemma view_processTerminateTask {closing : ℕ → List Wakeup} {code : ℤ}
    (h : processTerminateTask closing k t code = some k') :
  k'.view = k.view
  := by
  obtain ⟨s, -, h⟩ := bind_eq_some_iff.mp h
  simp only at h
  split at h
  · rw [← some.inj h]
    rfl
  next p _ =>
    have hmod : ((k.withSched s).modProcess p fun q =>
        { q with exitCode := code, exited := true }).view = k.view :=
      view_modProcess_same fun _ => rfl
    split at h
    · rw [← some.inj h]
      exact hmod
    · obtain ⟨k₁, hk₁, hk'⟩ := bind_eq_some_iff.mp h
      rw [← some.inj hk', ← hmod, ← view_closeProcessFiles hk₁]
      rfl

lemma view_futexWake (uaddr val : ℕ) : (k.futexWake uaddr val).view = k.view
  := by
  have hloop : ∀ (tasks : List Tid) (woken : ℕ) (k : Kernel),
      (futexWakeLoop uaddr val woken tasks k).view = k.view := by
    intro tasks
    induction tasks with
    | nil => exact fun _ _ => rfl
    | cons t tasks ih =>
      intro woken k
      rw [futexWakeLoop]
      simp only
      split_ifs
      · rfl
      · rfl
      · rw [ih]
        rfl
      · rw [ih]
        rfl
      · exact ih woken k
  rw [futexWake]
  split
  · rfl
  · exact hloop ..

lemma view_clearTid (writable : Bool) : (clearTid writable k t).view = k.view
  := by
  rw [clearTid]
  split_ifs
  · rfl
  · exact view_futexWake _ _
  · rfl

section

variable {closing : ℕ → List Wakeup}

variable {code : ℤ} {writable : Bool} {sig : ℕ}

lemma view_leaveProcess
    (h : leaveProcess closing k t code = some k') :
  k'.view = k.view
  := by
  rw [leaveProcess] at h
  split at h
  · rw [← some.inj h]
  next p _ =>
    have hmod : (k.modProcess p fun q => { q with exitCode := code, exited := true }).view
        = k.view := view_modProcess_same fun _ => rfl
    simp only at h
    split at h
    · rw [← hmod, ← some.inj h]
      rfl
    · obtain ⟨k₁, hk₁, hk'⟩ := bind_eq_some_iff.mp h
      rw [← hmod, ← view_closeProcessFiles hk₁, ← some.inj hk']
      rfl

lemma view_sysExit
    (h : sysExit closing writable k code = some k') :
  k'.view = k.view
  := by
  rw [sysExit] at h
  split at h
  · rw [← some.inj h]
    rfl
  next task _ =>
    obtain ⟨k₁, hk₁, hk'⟩ := bind_eq_some_iff.mp h
    have hleave : k₁.view = k.view := (view_leaveProcess hk₁).trans (view_clearTid writable)
    rw [← some.inj hk', ← hleave]
    rfl

lemma view_exitGroup
    (h : exitGroup closing writable k code = some k') :
  k'.view = k.view
  := by
  obtain ⟨s, -, h⟩ := bind_eq_some_iff.mp h
  have hexit := view_sysExit h
  exact hexit

lemma view_signalTask {r : Bool × Kernel}
    (h : signalTask closing k sig t p = some r) :
  r.2.view = k.view
  := by
  have hmark : killOrMark closing k sig t = some r → r.2.view = k.view := by
    intro h
    rw [killOrMark] at h
    split at h
    · rw [← some.inj h]
    · obtain ⟨k₁, hk₁, hr⟩ := bind_eq_some_iff.mp h
      rw [← some.inj hr]
      exact view_processTerminateTask hk₁
  have hpost : (k.postSignal p sig t).view = k.view := by
    have hmod : (k.modProcess p fun q =>
        { q with sigpending := q.sigpending ||| 1#64 <<< (sig - 1) }).view = k.view :=
      view_modProcess_same fun _ => rfl
    rw [postSignal]
    split
    · exact hmod
    · exact hmod
  rw [signalTask] at h
  split_ifs at h
  · exact hmark h
  · rw [← some.inj h]
  · rw [← some.inj h]
    exact hpost
  · exact hmark h
  · rw [← some.inj h]
    exact hpost
  · rw [← some.inj h]
  · rw [← some.inj h]
    rfl
  · rw [← some.inj h]
    rfl
  · rw [← some.inj h]

lemma view_killLoop {pid : ℤ} {tasks : List Tid} :
    ∀ {self : Bool} {k : Kernel} {r : Bool × Kernel},
      killLoop closing pid sig tasks self k = some r → r.2.view = k.view
  := by
  induction tasks with
  | nil =>
    intro self k r h
    rw [← some.inj h]
  | cons t tasks ih =>
    intro self k r h
    rw [killLoop] at h
    split at h
    · exact ih h
    split at h
    · obtain ⟨r₁, hr₁, hr⟩ := bind_eq_some_iff.mp h
      rw [ih hr, view_signalTask hr₁]
    · exact ih h

end

/-! ### Releasing a process -/

lemma forget_frame {s s' : Sched} (h : s.forget t = some s') :
  s'.state = s.state ∧ s'.currentTask = s.currentTask ∧ s'.idleTask = s.idleTask
  := by
  obtain ⟨queue, -, hs'⟩ := bind_eq_some_iff.mp h
  rw [← some.inj hs', removeIoWaiter]
  split
  · exact ⟨state_dequeue, currentTask_dequeue, idleTask_dequeue⟩
  · exact ⟨state_dequeue, currentTask_dequeue, idleTask_dequeue⟩

/-- Freeing tasks takes them off the task list, and changes nothing else but queues. -/
lemma foldlM_freeTaskStruct {tasks : List Tid} (h : tasks.foldlM freeTaskStruct k = some k') :
  ∃ s, k' = { k.withSched s with taskList := k.taskList.diff tasks }
    ∧ s.state = k.state ∧ s.currentTask = k.currentTask
  := by
  induction tasks generalizing k with
  | nil =>
    refine ⟨k.toSched, ?_, rfl, rfl⟩
    rw [← some.inj h]
    rfl
  | cons t tasks ih =>
    obtain ⟨k₁, hk₁, h⟩ := bind_eq_some_iff.mp h
    obtain ⟨s₁, hs₁, hk₁⟩ := bind_eq_some_iff.mp hk₁
    obtain rfl := some.inj hk₁
    obtain ⟨s, hk', hstate, hcurrent⟩ := ih h
    obtain ⟨hstate₁, hcurrent₁, -⟩ := forget_frame hs₁
    refine ⟨s, ?_, hstate.trans hstate₁, hcurrent.trans hcurrent₁⟩
    rw [hk', diff_cons]
    rfl

section

variable (hp : k.process child = some p)

include hp

/-- The end of `release_task` takes the process from the task, and may destroy an address space. -/
lemma dropProcess_eq :
  ∃ destroyed, k.dropProcess child
    = { k with destroyed := destroyed, process := update k.process child none }
  := by
  rw [dropProcess, hp]
  simp only
  split
  · exact ⟨_, rfl⟩
  · exact ⟨k.destroyed, rfl⟩

/-- `release_task` frees the other tasks of the process, then the task itself. -/
lemma releaseTask_eq_foldlM :
  k.releaseTask child = ((k.siblings child ++ [child]).foldlM freeTaskStruct k).map
    (dropProcess · child)
  := by
  rw [releaseTask, freeSiblings, hp]
  simp only [isSome_some, if_true, foldlM_append, foldlM_cons, foldlM_nil, bind_eq_bind, map_bind]
  congr 1
  funext k₁
  cases h : k₁.freeTaskStruct child <;> simp [h]

/-- All tasks of the process leave the task list, if the current task is of another one. -/
lemma diff_siblings (hnodup : k.taskList.Nodup)
    (hself : ∀ self ∈ k.taskList, k.currentTask = some self → k.process self ≠ some p) :
  k.taskList.diff (k.siblings child ++ [child])
    = k.taskList.filter fun t => k.process t != some p
  := by
  rw [hnodup.sdiff_eq_filter]
  apply filter_congr
  intro c hc
  have hsibling : c ∈ k.siblings child ↔ c ≠ child ∧ k.process c = some p := by
    simp only [siblings, mem_filter, hc, hp, Bool.and_eq_true, bne_iff_ne, beq_iff_eq,
      true_and, and_congr_left_iff, and_iff_left_iff_imp]
    intro hcp _ hcur
    exact hself c hc hcur hcp
  rw [Bool.eq_iff_iff, decide_eq_true_iff, bne_iff_ne, mem_append, mem_singleton,
    hsibling, not_or, not_and]
  by_cases hcc : c = child
  · subst hcc
    simp [hp]
  · simp [hcc]

end

/-- `release_task` of a task of process `p`, called by a task of another process: all tasks of the
process leave the task list, and its address space is destroyed if the process owns it. -/
lemma releaseTask_eq (h : k.releaseTask child = some k') (hp : k.process child = some p)
    (hnodup : k.taskList.Nodup)
    (hself : ∀ self ∈ k.taskList, k.currentTask = some self → k.process self ≠ some p) :
  ∃ s, s.state = k.state ∧ s.currentTask = k.currentTask
    ∧ k' = ({ k.withSched s with taskList := k.taskList.filter fun t => k.process t != some p }
      : Kernel).dropProcess child
  := by
  rw [releaseTask_eq_foldlM hp] at h
  obtain ⟨k₂, hall, rfl⟩ := map_eq_some_iff.mp h
  obtain ⟨s, rfl, hstate, hcurrent⟩ := foldlM_freeTaskStruct hall
  exact ⟨s, hstate, hcurrent, by rw [diff_siblings hp hnodup hself]⟩

/-! ### Ownership -/

namespace View

variable {v : View} {p q x : ℕ} {child : Tid} {l : List Tid}

def Attached (v : View) (p : ℕ) : Prop := ∃ t ∈ v.taskList, v.process t = some p

/-- The process has a task and owns the address space. -/
def Owner (v : View) (p x : ℕ) : Prop :=
  v.Attached p ∧ (v.processes p).vmShared = false ∧ (v.processes p).cr3 = x

/-- An address space that is neither missing nor that of the kernel. -/
def UserSpace (v : View) (x : ℕ) : Prop := x ≠ 0 ∧ x ≠ v.kernelCr3

/-- The task list is a list of distinct tasks, and the processes of these are numbered. -/
structure Listed (v : View) : Prop where
  nodup : v.taskList.Nodup
  numbered (p : ℕ) : v.Attached p → p < v.processCount
  pid_lt (p : ℕ) : v.Attached p → (v.processes p).pid < v.nextPid
  no_loop (p : ℕ) : v.Attached p → (v.processes p).parentPid ≠ (v.processes p).pid

/-- Every address space has one owner until it is destroyed; it is destroyed once, when nobody
uses it. -/
structure Owned (v : View) : Prop where
  kernel_lt : v.kernelCr3 < v.spaceCount
  known (p : ℕ) : v.Attached p → (v.processes p).cr3 < v.spaceCount
  ledger : Ledger v.Owner v.UserSpace (v.destroyed.map Prod.fst) v.spaceCount
  unused : ∀ e ∈ v.destroyed, e.2 = false

/-- Both. -/
structure Ok (v : View) : Prop extends Listed v, Owned v

/-- Nobody else owns what process `p` owns. -/
lemma Owned.owner_and_ne (h : v.Owned) (hx : v.UserSpace x) (hp : v.Owner p x) {y : ℕ}
    (hy : v.UserSpace y) :
  v.Owner q y ∧ q ≠ p ↔ v.Owner q y ∧ y ≠ x
  := by
  refine and_congr_right fun hq => not_congr ⟨?_, ?_⟩
  · rintro rfl
    exact hq.2.2.symm.trans hp.2.2
  · rintro rfl
    exact h.ledger.unique q p y hy hq hp

/-! ### New tasks -/

/-- A new task. -/
lemma attached_cons (hl : l.Perm (child :: v.taskList)) (hchild : child ∉ v.taskList) :
  Attached { v with taskList := l, process := update v.process child (some p) } q
    ↔ q = p ∨ v.Attached q
  := by
  constructor
  · rintro ⟨t, ht, hq⟩
    by_cases htc : t = child
    · subst htc
      simp only [update_self, some.injEq] at hq
      exact .inl hq.symm
    · simp only [update_of_ne htc] at hq
      exact .inr ⟨t, (mem_cons.mp (hl.mem_iff.mp ht)).resolve_left htc, hq⟩
  · rintro (rfl | ⟨t, ht, hq⟩)
    · exact ⟨child, hl.mem_iff.mpr (by simp), update_self ..⟩
    · refine ⟨t, hl.mem_iff.mpr (mem_cons_of_mem _ ht), ?_⟩
      simp only
      rw [update_of_ne, hq]
      rintro rfl
      exact hchild ht

/-- With a thread of process `p`. -/
def withThread (v : View) (l : List Tid) (child : Tid) (p : ℕ) : View :=
  { v with
    taskList := l, process := update v.process child (some p), nextPid := v.nextPid + 1 }

/-- A new task of a process that has one. -/
lemma Ok.withThread (h : v.Ok) (hl : l.Perm (child :: v.taskList)) (hchild : child ∉ v.taskList)
    (hp : v.Attached p) :
  (v.withThread l child p).Ok
  := by
  have hattached : ∀ q, (v.withThread l child p).Attached q ↔ v.Attached q := by
    intro q
    refine (attached_cons hl hchild).trans ⟨?_, .inr⟩
    rintro (rfl | hq)
    · exact hp
    · exact hq
  have howner : ∀ q x, (v.withThread l child p).Owner q x ↔ v.Owner q x :=
    fun q x => and_congr_left fun _ => hattached q
  refine ⟨⟨?_, ?_, ?_, ?_⟩, h.kernel_lt, ?_, ?_, h.unused⟩
  · exact hl.nodup_iff.mpr (nodup_cons.mpr ⟨hchild, h.nodup⟩)
  · exact fun q hq => h.numbered q ((hattached q).mp hq)
  · exact fun q hq => lt_succ_of_lt (h.pid_lt q ((hattached q).mp hq))
  · exact fun q hq => h.no_loop q ((hattached q).mp hq)
  · exact fun q hq => h.known q ((hattached q).mp hq)
  · exact h.ledger.congr (fun q x hq => h.ledger.own_lt q x ((howner q x).mp hq))
      fun q x _ => howner q x

/-- With a new process and a task of it. -/
def withProcess (v : View) (l : List Tid) (child : Tid) (i : Identity) (spaceCount : ℕ) : View :=
  { v with
    taskList := l, process := update v.process child (some v.processCount)
    processes := update v.processes v.processCount i
    nextPid := v.nextPid + 1, processCount := v.processCount + 1, spaceCount := spaceCount }

/-- A new process that borrows an address space, or that gets a new one. -/
lemma Ok.withProcess (h : v.Ok) (hl : l.Perm (child :: v.taskList)) (hchild : child ∉ v.taskList)
    {i : Identity} (hpid : i.pid = v.nextPid) (hparent : i.parentPid < v.nextPid) {c : ℕ}
    (hcr3 : i.vmShared ∧ i.cr3 < v.spaceCount ∧ c = v.spaceCount
      ∨ i.vmShared = false ∧ i.cr3 = v.spaceCount ∧ c = v.spaceCount + 1) :
  (v.withProcess l child i c).Ok
  := by
  have hattached : ∀ q, (v.withProcess l child i c).Attached q ↔ q = v.processCount ∨ v.Attached q :=
    fun q => attached_cons hl hchild
  have hnew : (v.withProcess l child i c).processes v.processCount = i := update_self ..
  have hold : ∀ q, v.Attached q → (v.withProcess l child i c).processes q = v.processes q :=
    fun q hq => update_of_ne (Nat.ne_of_lt (h.numbered q hq)) ..
  have hcount : v.spaceCount ≤ c ∧ i.cr3 < c := by
    rcases hcr3 with ⟨-, hlt, rfl⟩ | ⟨-, heq, rfl⟩ <;> omega
  have hknown : ∀ q, (v.withProcess l child i c).Attached q →
      ((v.withProcess l child i c).processes q).cr3 < c := by
    intro q hq
    rcases (hattached q).mp hq with rfl | hq
    · rw [hnew]
      exact hcount.2
    · rw [hold q hq]
      exact (h.known q hq).trans_le hcount.1
  -- an owner is an old one, or the new process
  have howner : ∀ q x, (v.withProcess l child i c).Owner q x
      ↔ v.Owner q x ∨ q = v.processCount ∧ i.vmShared = false ∧ i.cr3 = x := by
    intro q x
    rw [Owner, hattached]
    constructor
    · rintro ⟨rfl | hq, hs, hx⟩
      · rw [hnew] at hs hx
        exact .inr ⟨rfl, hs, hx⟩
      · rw [hold q hq] at hs hx
        exact .inl ⟨hq, hs, hx⟩
    · rintro (⟨hq, hs, hx⟩ | ⟨rfl, hs, hx⟩)
      · rw [hold q hq]
        exact ⟨.inr hq, hs, hx⟩
      · rw [hnew]
        exact ⟨.inl rfl, hs, hx⟩
  refine ⟨⟨?_, ?_, ?_, ?_⟩, h.kernel_lt.trans_le hcount.1, hknown, ?_, h.unused⟩
  · exact hl.nodup_iff.mpr (nodup_cons.mpr ⟨hchild, h.nodup⟩)
  · intro q hq
    rcases (hattached q).mp hq with rfl | hq
    · exact lt_succ_self _
    · exact lt_succ_of_lt (h.numbered q hq)
  · intro q hq
    rcases (hattached q).mp hq with rfl | hq
    · rw [hnew, hpid]
      exact lt_succ_self _
    · rw [hold q hq]
      exact lt_succ_of_lt (h.pid_lt q hq)
  · intro q hq
    rcases (hattached q).mp hq with rfl | hq
    · rw [hnew, hpid]
      exact Nat.ne_of_lt hparent
    · rw [hold q hq]
      exact h.no_loop q hq
  · have hlt : ∀ q x, (v.withProcess l child i c).Owner q x → x < c := by
      rintro q x ⟨hq, -, rfl⟩
      exact hknown q hq
    rcases hcr3 with ⟨hs, -, rfl⟩ | ⟨hs, hx, rfl⟩
    · refine h.ledger.congr hlt fun q x _ => (howner q x).trans ⟨?_, .inl⟩
      rintro (hq | ⟨-, hs', -⟩)
      · exact hq
      · rw [hs] at hs'
        cases hs'
    · refine h.ledger.handOut (a := v.processCount) hlt ?_ ?_
      · intro q
        rw [howner]
        constructor
        · rintro (hq | ⟨hq, -⟩)
          · exact absurd (h.ledger.own_lt q _ hq) (lt_irrefl _)
          · exact hq
        · rintro rfl
          exact .inr ⟨rfl, hs, hx⟩
      · intro q x _ hne
        rw [howner]
        refine ⟨?_, .inl⟩
        rintro (hq | ⟨-, -, hx'⟩)
        · exact hq
        · exact absurd (hx'.symm.trans hx) hne

/-- A new process that gets no task. -/
lemma Ok.spareProcess (h : v.Ok) (i : Identity) :
  Ok { v with
    processes := update v.processes v.processCount i
    nextPid := v.nextPid + 1, processCount := v.processCount + 1 }
  := by
  set v' : View := { v with
    processes := update v.processes v.processCount i
    nextPid := v.nextPid + 1, processCount := v.processCount + 1 }
  have hold : ∀ q, v.Attached q → v'.processes q = v.processes q :=
    fun q hq => update_of_ne (Nat.ne_of_lt (h.numbered q hq)) ..
  have howner : ∀ q x, v'.Owner q x ↔ v.Owner q x := by
    intro q x
    refine and_congr_right fun hq => ?_
    rw [hold q hq]
  refine ⟨⟨h.nodup, ?_, ?_, ?_⟩, h.kernel_lt, ?_, ?_, h.unused⟩
  · exact fun q hq => lt_succ_of_lt (h.numbered q hq)
  · intro q hq
    rw [hold q hq]
    exact lt_succ_of_lt (h.pid_lt q hq)
  · intro q hq
    rw [hold q hq]
    exact h.no_loop q hq
  · intro q hq
    rw [hold q hq]
    exact h.known q hq
  · exact h.ledger.congr (fun q x hq => h.ledger.own_lt q x ((howner q x).mp hq))
      fun q x _ => howner q x

/-! ### Address spaces that are destroyed -/

/-- With the address space `x` destroyed. -/
def destroy (v : View) (x : ℕ) : View := { v with destroyed := (x, false) :: v.destroyed }

lemma unused_destroy (h : ∀ e ∈ v.destroyed, e.2 = false) :
  ∀ e ∈ (v.destroy x).destroyed, e.2 = false
  := by
  intro e he
  rcases mem_cons.mp he with rfl | he
  · rfl
  · exact h e he

/-- A new address space is destroyed at once. -/
lemma Ok.waste (h : v.Ok) : Ok ({ v with spaceCount := v.spaceCount + 1 }.destroy v.spaceCount)
  := by
  refine ⟨⟨h.nodup, h.numbered, h.pid_lt, h.no_loop⟩, lt_succ_of_lt h.kernel_lt, ?_,
    h.ledger.waste, unused_destroy h.unused⟩
  exact fun q hq => lt_succ_of_lt (h.known q hq)

/-- Without the tasks of process `p`. -/
def withoutProcess (v : View) (child : Tid) (p : ℕ) : View :=
  { v with
    taskList := v.taskList.filter fun t => v.process t != some p
    process := update v.process child none }

lemma attached_withoutProcess (hchild : v.process child = some p) :
  (v.withoutProcess child p).Attached q ↔ v.Attached q ∧ q ≠ p
  := by
  have hne : ∀ t, v.process t ≠ some p → (v.withoutProcess child p).process t = v.process t := by
    intro t ht
    apply update_of_ne
    rintro rfl
    exact ht hchild
  constructor
  · rintro ⟨t, ht, hq⟩
    obtain ⟨ht, hp⟩ := mem_filter.mp ht
    rw [bne_iff_ne] at hp
    rw [hne t hp] at hq
    refine ⟨⟨t, ht, hq⟩, ?_⟩
    rintro rfl
    exact hp hq
  · rintro ⟨⟨t, ht, hq⟩, hqp⟩
    have hp : v.process t ≠ some p := by
      rw [hq]
      exact fun heq => hqp (some.inj heq)
    refine ⟨t, mem_filter.mpr ⟨ht, bne_iff_ne.mpr hp⟩, ?_⟩
    rw [hne t hp, hq]

lemma Listed.withoutProcess (h : v.Listed) (hchild : v.process child = some p) :
  (v.withoutProcess child p).Listed
  where
  nodup := h.nodup.filter _
  numbered q hq := h.numbered q ((attached_withoutProcess hchild).mp hq).1
  pid_lt q hq := h.pid_lt q ((attached_withoutProcess hchild).mp hq).1
  no_loop q hq := h.no_loop q ((attached_withoutProcess hchild).mp hq).1

/-- A process goes that owns no address space of a user. -/
lemma Ok.withoutProcess (h : v.Ok) (hchild : v.process child = some p)
    (hp : ∀ x, v.UserSpace x → ¬v.Owner p x) :
  (v.withoutProcess child p).Ok
  := by
  refine ⟨h.toListed.withoutProcess hchild, h.kernel_lt, ?_, ?_, h.unused⟩
  · exact fun q hq => h.known q ((attached_withoutProcess hchild).mp hq).1
  refine h.ledger.congr ?_ ?_
  · rintro q x ⟨hq, hs, hx⟩
    exact h.ledger.own_lt q x ⟨((attached_withoutProcess hchild).mp hq).1, hs, hx⟩
  intro q x hx
  rw [Owner, attached_withoutProcess hchild]
  refine ⟨fun ⟨hq, hrest⟩ => ⟨hq.1, hrest⟩, ?_⟩
  rintro ⟨hq, hrest⟩
  refine ⟨⟨hq, ?_⟩, hrest⟩
  rintro rfl
  exact hp x hx ⟨hq, hrest⟩

/-- A process goes with the address space that it owns. -/
lemma Ok.withoutProcess_destroy (h : v.Ok) (hchild : v.process child = some p)
    (hx : v.UserSpace x) (hp : v.Owner p x) :
  ((v.withoutProcess child p).destroy x).Ok
  := by
  refine ⟨?_, h.kernel_lt, ?_, ?_, unused_destroy h.unused⟩
  · have := h.toListed.withoutProcess hchild
    exact ⟨this.nodup, this.numbered, this.pid_lt, this.no_loop⟩
  · exact fun q hq => h.known q ((attached_withoutProcess hchild).mp hq).1
  · refine h.ledger.giveBack hx hp ?_ ?_
    · rintro q y ⟨hq, hs, hy⟩
      exact h.ledger.own_lt q y ⟨((attached_withoutProcess hchild).mp hq).1, hs, hy⟩
    intro q y hy
    rw [← h.owner_and_ne hx hp hy]
    have hattached : ((v.withoutProcess child p).destroy x).Attached q ↔ v.Attached q ∧ q ≠ p :=
      attached_withoutProcess hchild
    rw [Owner, hattached]
    exact and_right_comm

/-! ### Processes that change their address space -/

/-- With another address space for process `p`. -/
def withSpace (v : View) (p cr3 : ℕ) : View :=
  { v with
    processes := update v.processes p
      { v.processes p with cr3 := cr3, vmShared := false } }

lemma processes_withSpace_of_ne {c : ℕ} (hq : q ≠ p) :
  (v.withSpace p c).processes q = v.processes q
  := update_of_ne hq ..

lemma owner_withSpace {c : ℕ} :
  (v.withSpace p c).Owner q x ↔ v.Owner q x ∧ q ≠ p ∨ q = p ∧ v.Attached p ∧ c = x
  := by
  by_cases hq : q = p
  · subst hq
    have hself : (v.withSpace q c).processes q = { v.processes q with cr3 := c, vmShared := false } :=
      update_self ..
    rw [Owner, hself]
    simp only [ne_eq, not_true_eq_false, and_false, true_and, false_or]
    exact Iff.rfl
  · rw [Owner, processes_withSpace_of_ne hq]
    simp only [ne_eq, hq, not_false_eq_true, and_true, false_and, or_false]
    exact Iff.rfl

lemma Listed.withSpace (h : v.Listed) (p c : ℕ) : (v.withSpace p c).Listed
  := by
  have hsame : ∀ q, ((v.withSpace p c).processes q).pid = (v.processes q).pid
      ∧ ((v.withSpace p c).processes q).parentPid = (v.processes q).parentPid := by
    intro q
    by_cases hq : q = p
    · subst hq
      simp [View.withSpace]
    · rw [processes_withSpace_of_ne hq]
      exact ⟨rfl, rfl⟩
  refine ⟨h.nodup, h.numbered, ?_, ?_⟩
  · intro q hq
    rw [(hsame q).1]
    exact h.pid_lt q hq
  · intro q hq
    rw [(hsame q).1, (hsame q).2]
    exact h.no_loop q hq

lemma Owned.known_withSpace (h : v.Owned) {c limit : ℕ} (hlimit : v.spaceCount ≤ limit)
    (hc : c < limit) :
  ∀ q, v.Attached q → ((v.withSpace p c).processes q).cr3 < limit
  := by
  intro q hq
  by_cases hqp : q = p
  · subst hqp
    simpa [View.withSpace] using hc
  · rw [processes_withSpace_of_ne hqp]
    exact (h.known q hq).trans_le hlimit

/-- With a new address space for process `p`. -/
def withNewSpace (v : View) (p : ℕ) : View :=
  { v.withSpace p v.spaceCount with spaceCount := v.spaceCount + 1 }

/-- The new address space is that of process `p`, if the process had none of its own. -/
lemma Owned.ledger_withNewSpace (h : v.Owned) (hp : v.Attached p) {gone : List ℕ}
    (hless : Ledger (fun q y => v.Owner q y ∧ q ≠ p) v.UserSpace gone v.spaceCount) :
  Ledger (v.withNewSpace p).Owner v.UserSpace gone (v.spaceCount + 1)
  := by
  have howner : ∀ q y, (v.withNewSpace p).Owner q y
      ↔ v.Owner q y ∧ q ≠ p ∨ q = p ∧ v.Attached p ∧ v.spaceCount = y := fun q y =>
    owner_withSpace (v := v) (c := v.spaceCount)
  refine hless.handOut (a := p) ?_ ?_ ?_
  · rintro q y ⟨hq, -, rfl⟩
    exact h.known_withSpace (le_succ _) (lt_succ_self _) q hq
  · intro q
    rw [howner]
    constructor
    · rintro (hq | ⟨hq, -⟩)
      · exact absurd (hless.own_lt q _ hq) (lt_irrefl _)
      · exact hq
    · rintro rfl
      exact .inr ⟨rfl, hp, rfl⟩
  · intro q y _ hne
    rw [howner]
    refine ⟨?_, .inl⟩
    rintro (hq | ⟨-, -, hy⟩)
    · exact hq
    · exact absurd hy.symm hne

/-- A process that borrows an address space gets one of its own. -/
lemma Ok.withNewSpace (h : v.Ok) (hp : v.Attached p)
    (hshared : (v.processes p).vmShared) :
  (v.withNewSpace p).Ok
  := by
  have hlisted := h.toListed.withSpace p v.spaceCount
  refine ⟨⟨hlisted.nodup, hlisted.numbered, hlisted.pid_lt, hlisted.no_loop⟩,
    lt_succ_of_lt h.kernel_lt, h.toOwned.known_withSpace (le_succ _) (lt_succ_self _),
    h.toOwned.ledger_withNewSpace hp ?_, h.unused⟩
  refine h.ledger.congr (fun q y hq => h.ledger.own_lt q y hq.1) fun q y _ => ?_
  refine and_iff_left_of_imp ?_
  rintro hq rfl
  have hs := hq.2.1
  rw [hshared] at hs
  cases hs

/-- A process gets a new address space for the one that it owns. -/
lemma Ok.withNewSpace_destroy (h : v.Ok) (hx : v.UserSpace x) (hp : v.Owner p x) :
  ((v.withNewSpace p).destroy x).Ok
  := by
  have hlisted := h.toListed.withSpace p v.spaceCount
  refine ⟨⟨hlisted.nodup, hlisted.numbered, hlisted.pid_lt, hlisted.no_loop⟩,
    lt_succ_of_lt h.kernel_lt, h.toOwned.known_withSpace (le_succ _) (lt_succ_self _),
    h.toOwned.ledger_withNewSpace hp.1 ?_, unused_destroy h.unused⟩
  exact h.ledger.giveBack hx hp (fun q y hq => h.ledger.own_lt q y hq.1) fun q y hy =>
    h.owner_and_ne hx hp hy

/-- A process loses the address space that it owns. -/
lemma Ok.lose (h : v.Ok) (hx : v.UserSpace x) (hp : v.Owner p x) :
  ((v.withSpace p 0).destroy x).Ok
  := by
  have hpos : 0 < v.spaceCount := zero_lt_of_lt h.kernel_lt
  have hknown := h.toOwned.known_withSpace (p := p) le_rfl hpos
  have hlisted := h.toListed.withSpace p 0
  refine ⟨⟨hlisted.nodup, hlisted.numbered, hlisted.pid_lt, hlisted.no_loop⟩, h.kernel_lt, hknown,
    ?_, unused_destroy h.unused⟩
  refine h.ledger.giveBack hx hp ?_ ?_
  · rintro q y ⟨hq, -, rfl⟩
    exact hknown q hq
  intro q y hy
  rw [← h.owner_and_ne hx hp hy]
  refine (owner_withSpace (v := v) (c := 0)).trans ⟨?_, .inl⟩
  rintro (hq | ⟨-, -, hzero⟩)
  · exact hq
  · exact absurd hzero.symm hy.1

end View

end Kernel
