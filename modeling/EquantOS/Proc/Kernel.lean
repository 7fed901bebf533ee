import EquantOS.Proc.Sched

/-!
# Tasks and processes

The task list, the processes and the calls of `proc/syscall.c` that wait, signal, create and
end them, with `oom_killer` of `core/mem/pmm.c`.  The circular task list is a list that
starts at `task_list`.  A process is known by the number of its `process_t`, an address
space by the number that it got when it was made; `destroyed` logs the calls of
`vmm_destroy_address_space`, and whether the address space was in use then.  What the close
operations of files do to the scheduler is an input: they wake tasks that they have on
record.  Kernel code is not interrupted.
-/

/-- What a close operation does to the scheduler. -/
inductive Wakeup where
  | unblock (task : Tid)
  | ioWakeAll

/-- `process_t`, as far as it is used here. -/
structure Process where
  pid : ℕ
  parentPid : ℕ
  pgid : ℕ
  cr3 : ℕ
  vmShared : Bool
  /-- `sigactions[sig - 1].handler`. -/
  handler : ℕ → ℕ
  sigpending : BitVec 64
  exitCode : ℤ
  exited : Bool

/-- The state of tasks and processes. -/
structure Kernel extends Sched where
  taskList : List Tid
  futexAddr : Tid → ℕ
  clearChildTid : Tid → ℕ
  process : Tid → Option ℕ
  processes : ℕ → Process
  nextPid : ℕ
  /-- How many `process_t` and address spaces have been made. -/
  processCount : ℕ
  spaceCount : ℕ
  destroyed : List (ℕ × Bool)
  /-- The address space of the kernel. -/
  kernelCr3 : ℕ

namespace Kernel

open Function

/-! ### Access -/

def withSched (k : Kernel) (s : Sched) : Kernel := { k with toSched := s }

def modProcess (k : Kernel) (p : ℕ) (f : Process → Process) : Kernel :=
  { k with processes := update k.processes p (f (k.processes p)) }

def processOf (k : Kernel) (t : Tid) : Option Process := (k.process t).map k.processes

/-- The conversion of a number to `int`. -/
def toInt (n : ℕ) : ℤ := (BitVec.ofNat 32 n).toInt

/-- `process_has_other_live_tasks`. -/
def hasOtherLiveTasks (k : Kernel) (p : ℕ) : Bool :=
  k.taskList.any fun t =>
    k.currentTask != some t && k.process t == some p && k.state t != .zombie

def processAlive (k : Kernel) (pid : ℕ) : Bool :=
  pid != 0 && k.taskList.any fun t =>
    (k.processOf t).any (fun p => p.pid == pid) && k.state t != .zombie

/-! ### Waking -/

/-- What the close operations do. -/
def Wakeup.run (s : Sched) : Wakeup → Option Sched
  | .unblock task => some (s.unblock task)
  | .ioWakeAll => s.ioWakeAll

/-- Unblock the tasks of the list that a test picks in the state in which it finds them. -/
def unblockAll (test : Sched → Tid → Bool) (tasks : List Tid) (s : Sched) : Sched :=
  tasks.foldl (fun s t => if test s t then s.unblock t else s) s

/-- `wake_parent_of`, and the same loop in `sys_exit_handler`. -/
def wakeParentOf (k : Kernel) (p : ℕ) : Kernel :=
  k.withSched (unblockAll (fun s t =>
    (k.processOf t).any (fun parent => parent.pid == (k.processes p).parentPid)
      && s.state t == .blocked) k.taskList k.toSched)

/-! ### Futexes -/

/-- Note the word on which a task waits. -/
def setFutexAddr (k : Kernel) (t : Tid) (uaddr : ℕ) : Kernel :=
  { k with futexAddr := update k.futexAddr t uaddr }

/-- `sys_futex_handler`, `FUTEX_WAIT`, up to the call of `sched_yield` and with it; `value` is
what the word contains, if it can be written.  The ticks to wait are those that the
handler computes from the timeout. -/
def futexWait (k : Kernel) (uaddr : ℕ) (value : Option ℕ) (val : ℕ) (waitTicks : Option ℕ)
    (tick : BitVec 32) : Option Kernel :=
  match k.currentTask with
  | none => some k
  | some task =>
    if uaddr ≠ 0 ∧ value = some val then
      let k := k.setFutexAddr task uaddr
      match waitTicks with
      | some n => do
        let s ← k.makeSleep task (tick.toNat + max n 1)
        some (k.withSched s.yield)
      | none => some (k.withSched (k.block task).yield)
    else some k

/-- The end of `FUTEX_WAIT`, when the task runs again. -/
def futexResume (k : Kernel) : Kernel :=
  match k.currentTask with
  | none => k
  | some task => k.setFutexAddr task 0

/-- The loop of `FUTEX_WAKE` over the task list; `woken` counts the tasks found. -/
def futexWakeLoop (uaddr val : ℕ) : ℕ → List Tid → Kernel → Kernel
  | _, [], k => k
  | woken, t :: tasks, k =>
    if k.futexAddr t = uaddr then
      let k := k.setFutexAddr t 0
      let k :=
        if k.state t = .blocked ∨ k.state t = .sleeping then k.withSched (k.unblock t) else k
      if val ≤ woken + 1 then k else futexWakeLoop uaddr val (woken + 1) tasks k
    else futexWakeLoop uaddr val woken tasks k

/-- `sys_futex_handler`, `FUTEX_WAKE`. -/
def futexWake (k : Kernel) (uaddr val : ℕ) : Kernel :=
  if uaddr = 0 then k else futexWakeLoop uaddr val 0 k.taskList k

/-! ### The end of tasks -/

/-- `close_process_files`: the close operations wake tasks. -/
def closeProcessFiles (k : Kernel) (wakeups : List Wakeup) : Option Kernel := do
  let s ← wakeups.foldlM Wakeup.run k.toSched
  some (k.withSched s)

/-- `process_terminate_task`; `closing p` is what closing the files of process `p` wakes. -/
def processTerminateTask (closing : ℕ → List Wakeup) (k : Kernel) (t : Tid) (code : ℤ) :
    Option Kernel := do
  let s ← (k.stop t .zombie).forget t
  let k := k.withSched s
  match k.process t with
  | none => some k
  | some p =>
    let k := k.modProcess p fun q => { q with exitCode := code, exited := true }
    if k.hasOtherLiveTasks p then some k
    else do
      let k ← k.closeProcessFiles (closing p)
      some (k.wakeParentOf p)

/-- The start of `sys_exit_handler`: the word at `clear_child_tid` is cleared, if it can be
written, and who waits on it is woken. -/
def clearTid (writable : Bool) (k : Kernel) (task : Tid) : Kernel :=
  let tid := k.clearChildTid task
  if tid = 0 then k
  else
    let k := if writable then k.futexWake tid 1 else k
    { k with clearChildTid := update k.clearChildTid task 0 }

/-- What `sys_exit_handler` does to the process of the task. -/
def leaveProcess (closing : ℕ → List Wakeup) (k : Kernel) (task : Tid) (code : ℤ) :
    Option Kernel :=
  match k.process task with
  | none => some k
  | some p => do
    let k := k.modProcess p fun q => { q with exitCode := code, exited := true }
    let k ← if k.hasOtherLiveTasks p then some k else k.closeProcessFiles (closing p)
    some (k.wakeParentOf p)

def sysExit (closing : ℕ → List Wakeup) (writable : Bool) (k : Kernel) (code : ℤ) :
    Option Kernel :=
  match k.currentTask with
  | none => some (k.withSched k.yield)
  | some task => do
    let k ← leaveProcess closing (clearTid writable k task) task code
    some (k.withSched (k.stop task .zombie).yield)

/-- `free_task_struct`: the task leaves the task list and every queue. -/
def freeTaskStruct (k : Kernel) (t : Tid) : Option Kernel := do
  let s ← k.forget t
  some { k.withSched s with taskList := k.taskList.erase t }

/-- The other tasks of a process that `release_task` frees first. -/
def siblings (k : Kernel) (child : Tid) : List Tid :=
  k.taskList.filter fun t =>
    t != child && k.currentTask != some t && k.process t == k.process child

/-- Some task that is not a zombie uses the address space. -/
def inUse (k : Kernel) (cr3 : ℕ) : Bool :=
  k.taskList.any fun t => k.state t != .zombie && (k.processOf t).any fun p => p.cr3 == cr3

/-- `vmm_destroy_address_space`. -/
def destroySpace (k : Kernel) (cr3 : ℕ) : Kernel :=
  { k with destroyed := (cr3, k.inUse cr3) :: k.destroyed }

/-- The first loop of `release_task`. -/
def freeSiblings (k : Kernel) (child : Tid) : Option Kernel :=
  if (k.process child).isSome then (k.siblings child).foldlM freeTaskStruct k else some k

/-- The end of `release_task`: the address space and the process of the task go. -/
def dropProcess (k : Kernel) (child : Tid) : Kernel :=
  match k.process child with
  | none => k
  | some p =>
    let proc := k.processes p
    let k :=
      if proc.cr3 ≠ 0 ∧ proc.cr3 ≠ k.kernelCr3 ∧ proc.vmShared = false then
        k.destroySpace proc.cr3
      else k
    { k with process := update k.process child none }

def releaseTask (k : Kernel) (child : Tid) : Option Kernel := do
  let k ← k.freeSiblings child
  let k ← k.freeTaskStruct child
  some (k.dropProcess child)

/-- A zombie that nobody can wait for; `parent_pid` is `0` if the kernel started it. -/
def orphan (k : Kernel) (t : Tid) : Bool :=
  k.currentTask != some t && k.state t == .zombie
    && (k.processOf t).any (fun p => p.parentPid != 0 && !k.processAlive p.parentPid)
    && !k.taskList.any fun other => other != t && k.process other == k.process t

/-- An orphan has no siblings. -/
lemma siblings_of_orphan {k : Kernel} {t : Tid} (h : k.orphan t) : k.siblings t = []
  := by
  rw [orphan, Bool.and_eq_true, Bool.not_eq_true'] at h
  have hnone := h.2
  rw [List.any_eq_false] at hnone
  rw [siblings, List.filter_eq_nil_iff]
  intro c hc
  have := hnone c hc
  simp only [Bool.and_eq_true, not_and] at this ⊢
  exact fun hct => this hct.1

/-- The loop of `reap_orphan_zombies`. -/
def reapLoop : ℕ → Kernel → Option Kernel
  | 0, k => some k
  | fuel + 1, k =>
    match k.taskList.find? k.orphan with
    | none => some k
    | some t => do
      let k ← k.releaseTask t
      reapLoop fuel k

/-- `reap_orphan_zombies`: every round takes a task off the task list. -/
def reapOrphanZombies (k : Kernel) : Option Kernel := reapLoop k.taskList.length k

/-! ### Signals -/

def sigint : ℕ := 2

def sigquit : ℕ := 3

def sigkill : ℕ := 9

def sigterm : ℕ := 15

def sigcont : ℕ := 18

def sigstop : ℕ := 19

def sigtstp : ℕ := 20

def sigwinch : ℕ := 28

/-- The processes that `kill` means by a number. -/
def matchesPid (k : Kernel) (pid : ℤ) (p : Process) : Bool :=
  if 0 < pid then toInt p.pid == pid
  else if pid = 0 then
    (k.currentTask.bind k.processOf).any fun self => p.pgid == self.pgid
  else if pid < -1 then toInt p.pgid == -pid
  else true

/-- A signal is left to its handler: it becomes pending and the task is woken. -/
def postSignal (k : Kernel) (p : ℕ) (sig : ℕ) (t : Tid) : Kernel :=
  let k := k.modProcess p fun q => { q with sigpending := q.sigpending ||| 1#64 <<< (sig - 1) }
  if k.state t = .blocked ∨ k.state t = .sleeping then k.withSched (k.unblock t) else k

/-- A task is killed, but the current one only after the others. -/
def killOrMark (closing : ℕ → List Wakeup) (k : Kernel) (sig : ℕ) (t : Tid) :
    Option (Bool × Kernel) :=
  if k.currentTask = some t then some (true, k)
  else do
    let k ← processTerminateTask closing k t (128 + sig)
    some (false, k)

/-- What `sys_kill_handler` does to a live task `t` of process `p` that it means; the flag tells
to kill the current task at the end. -/
def signalTask (closing : ℕ → List Wakeup) (k : Kernel) (sig : ℕ) (t : Tid) (p : ℕ) :
    Option (Bool × Kernel) :=
  let handler := (k.processes p).handler sig
  if sig = sigkill ∨ sig = sigterm then killOrMark closing k sig t
  else if sig = sigint ∨ sig = sigquit then
    if handler = 1 then some (false, k)
    else if 1 < handler then some (false, k.postSignal p sig t)
    else killOrMark closing k sig t
  else if sig = sigwinch then
    if 1 < handler then some (false, k.postSignal p sig t) else some (false, k)
  else if sig = sigstop ∨ sig = sigtstp then some (false, k.withSched (k.block t))
  else if sig = sigcont then some (false, k.withSched (k.unblock t))
  else some (false, k)

/-- The loop of `sys_kill_handler` over the task list. -/
def killLoop (closing : ℕ → List Wakeup) (pid : ℤ) (sig : ℕ) :
    List Tid → Bool → Kernel → Option (Bool × Kernel)
  | [], self, k => some (self, k)
  | t :: tasks, self, k =>
    match k.process t with
    | none => killLoop closing pid sig tasks self k
    | some p =>
      if k.state t ≠ .zombie ∧ k.matchesPid pid (k.processes p) then do
        let r ← signalTask closing k sig t p
        killLoop closing pid sig tasks (self || r.1) r.2
      else killLoop closing pid sig tasks self k

/-- `sys_kill_handler`, for a signal below `NSIG`. -/
def sysKill (closing : ℕ → List Wakeup) (writable : Bool) (k : Kernel) (pid : ℤ) (sig : ℕ) :
    Option Kernel := do
  let k ← k.reapOrphanZombies
  let r ← killLoop closing pid sig k.taskList false k
  if r.1 then sysExit closing writable r.2 (128 + sig) else some r.2

/-- `SYS_EXIT_GROUP`: the other tasks of the process end first. -/
def exitGroup (closing : ℕ → List Wakeup) (writable : Bool) (k : Kernel) (code : ℤ) :
    Option Kernel := do
  let s ←
    (k.taskList.filter fun t =>
      k.currentTask != some t && (k.currentTask.bind k.process).isSome
        && k.process t == k.currentTask.bind k.process).foldlM
      (fun s t => if s.state t = .zombie then some s else (s.stop t .zombie).forget t) k.toSched
  sysExit closing writable (k.withSched s) code

/-! ### New processes -/

/-- What becomes of a call of `clone`, as far as memory decides. -/
inductive CloneOutcome where
  /-- No free pages, or no address space. -/
  | refused
  /-- No `process_t`. -/
  | noProcess
  /-- No `task_t`. -/
  | noTask
  /-- The new task is at this address. -/
  | created (child : Tid)

/-- A copy of the process of the current task, for `clone` without `CLONE_THREAD`. -/
def copyProcess (k : Kernel) (parent : Process) (vm : Bool) (space : ℕ) : Kernel :=
  { k with
    processes := update k.processes k.processCount
      { pid := k.nextPid, parentPid := parent.pid, pgid := parent.pgid
        cr3 := if vm then parent.cr3 else space
        vmShared := vm, handler := fun _ => 0, sigpending := 0, exitCode := 0, exited := false }
    nextPid := k.nextPid + 1
    processCount := k.processCount + 1 }

/-- Put a new task next to the first one of the task list. -/
def linkTask (k : Kernel) (child : Tid) : Kernel :=
  { k with
    taskList :=
      match k.taskList with
      | [] => [child]
      | t :: tasks => t :: child :: tasks }

/-- The new task of `clone`, all zeros but for what is copied. -/
def startTask (k : Kernel) (child : Tid) (p : ℕ) (priority clearTid : ℕ) : Kernel :=
  let k := { k.linkTask child with
    futexAddr := update k.futexAddr child 0
    clearChildTid := update k.clearChildTid child clearTid
    process := update k.process child (some p) }
  let s := { k.toSched with
    state := update k.state child .runnable
    running := update k.running child true
    priority := update k.priority child priority
    schedNext := update k.schedNext child none
    schedPrev := update k.schedPrev child none
    sleepNext := update k.sleepNext child none
    sleepUntil := update k.sleepUntil child 0 }
  k.withSched (s.enqueue child)

/-- `sys_clone_handler`; `vm` and `thread` are the flags `CLONE_VM` and `CLONE_THREAD`. -/
def sysClone (k : Kernel) (vm thread : Bool) (clearTid : ℕ) (outcome : CloneOutcome) :
    Option Kernel :=
  match k.currentTask with
  | none => some k
  | some self =>
    match k.process self with
    | none => some k
    | some p => do
      let k ← k.reapOrphanZombies
      let space := k.spaceCount
      match outcome with
      | .refused => some k
      | .noProcess =>
        if thread then some k
        else if vm then some k
        else some ({ k with spaceCount := space + 1 }.destroySpace space)
      | .noTask =>
        let k := if vm then k else { k with spaceCount := space + 1 }
        let k := if thread then k else k.copyProcess (k.processes p) vm space
        some (if vm then k else k.destroySpace space)
      | .created child =>
        let k := if vm then k else { k with spaceCount := space + 1 }
        if thread then
          some ({ k with nextPid := k.nextPid + 1 }.startTask child p (k.priority self) clearTid)
        else
          some ((k.copyProcess (k.processes p) vm space).startTask child k.processCount
            (k.priority self) clearTid)

/-- What becomes of a call of `execve`. -/
inductive ExecOutcome where
  /-- No program, or no address space. -/
  | refused
  /-- The new address space could not be filled. -/
  | dropped
  | loaded

/-- `sys_execve_handler`, the address spaces. -/
def sysExecve (k : Kernel) (outcome : ExecOutcome) : Kernel :=
  match k.currentTask.bind k.process with
  | none => k
  | some p =>
    let space := k.spaceCount
    match outcome with
    | .refused => k
    | .dropped => { k with spaceCount := space + 1 }.destroySpace space
    | .loaded =>
      let old := (k.processes p).cr3
      let shared := (k.processes p).vmShared
      let k := { k with spaceCount := space + 1 }.modProcess p fun q =>
        { q with cr3 := space, vmShared := false }
      if shared then k else k.destroySpace old

/-! ### Waiting for children -/

inductive WaitResult where
  | child (pid : ℕ) (status : ℤ)
  | noChild
  | notYet
  /-- The caller is blocked and will scan again. -/
  | blocked
  deriving DecidableEq

/-- A task of a child that is asked for. -/
def waitMatches (k : Kernel) (self : Process) (pid : ℤ) (t : Tid) : Bool :=
  (k.processOf t).any fun p => p.parentPid == self.pid && (pid ≤ 0 || toInt p.pid == pid)

/-- A task that `wait4` takes for that of a dead child. -/
def waitable (k : Kernel) (self : Process) (pid : ℤ) (t : Tid) : Bool :=
  k.waitMatches self pid t
    && (k.state t == .zombie || (k.processOf t).any fun p => p.exited)

/-- One round of `sys_wait4_handler`. -/
def sysWait4 (k : Kernel) (pid : ℤ) (nohang : Bool) : Option (WaitResult × Kernel) :=
  match k.currentTask with
  | none => some (.noChild, k)
  | some self =>
    match k.processOf self with
    | none => some (.noChild, k)
    | some parent =>
      match k.taskList.find? (k.waitable parent pid) with
      | some child => do
        let result :=
          match k.processOf child with
          | some p => WaitResult.child p.pid (p.exitCode % 256 * 256)
          | none => .noChild
        let k ← k.releaseTask child
        some (result, k)
      | none =>
        if !k.taskList.any (k.waitMatches parent pid) then some (.noChild, k)
        else if nohang then some (.notYet, k)
        else
          let s := (k.stop self .blocked).dequeue self
          some (.blocked, k.withSched s.yield)

/-! ### Out of memory -/

/-- The score of a task for `oom_killer`. -/
def oomScore (k : Kernel) (p : Process) : ℕ :=
  1 + 10 * (k.taskList.filter fun t =>
    (k.processOf t).any fun q => q.parentPid == p.pid).length

/-- The victim of `oom_killer`: the first task with the highest score. -/
def oomVictim (k : Kernel) : Option Tid :=
  (k.taskList.foldl (fun (best : ℕ × Option Tid) t =>
    match k.processOf t with
    | some p =>
      if 1 < p.pid ∧ k.state t ≠ .zombie ∧ best.1 < k.oomScore p then (k.oomScore p, some t)
      else best
    | none => best) (0, none)).2

lemma mem_oomVictim {k : Kernel} {t : Tid} (h : k.oomVictim = some t) : t ∈ k.taskList
  := by
  have hfold : ∀ (tasks : List Tid) (best : ℕ × Option Tid), (∀ c, best.2 = some c → c ∈ k.taskList) →
      tasks ⊆ k.taskList → ∀ c, (tasks.foldl (fun (best : ℕ × Option Tid) t =>
        match k.processOf t with
        | some p =>
          if 1 < p.pid ∧ k.state t ≠ .zombie ∧ best.1 < k.oomScore p then (k.oomScore p, some t)
          else best
        | none => best) best).2 = some c → c ∈ k.taskList := by
    intro tasks
    induction tasks with
    | nil => exact fun best hbest _ => hbest
    | cons u tasks ih =>
      intro best hbest hsub
      obtain ⟨hu, hsub⟩ := List.cons_subset.mp hsub
      apply ih _ _ hsub
      intro c hc
      beta_reduce at hc
      split at hc
      · split_ifs at hc
        · rwa [← Option.some.inj hc]
        · exact hbest c hc
      · exact hbest c hc
  exact hfold k.taskList (0, none) (fun _ hc => by cases hc) (fun _ hc => hc) t h

def oomKiller (k : Kernel) : Kernel :=
  match k.oomVictim with
  | none => k
  | some t =>
    match k.process t with
    | none => k
    | some p =>
      let k := k.modProcess p fun q => { q with exitCode := 137, exited := true }
      let k := k.withSched ((k.stop t .zombie).dequeue t)
      let cr3 := (k.processes p).cr3
      if cr3 = 0 then k
      else (k.destroySpace cr3).modProcess p fun q => { q with cr3 := 0 }

end Kernel
