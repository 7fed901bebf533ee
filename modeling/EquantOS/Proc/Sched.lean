import EquantOS.Lib.LinkedList
import Mathlib.Data.BitVec

/-!
# The scheduler

The run queues, the sleep queue and the table of I/O waiters of `proc/sched.c`.  A task is
known by the address of its `task_t`; the fields of the tasks are maps.  A walk along the
sleep queue that does not end has no result: a walk over distinct tasks visits at most
`2 ^ 64` of them.
-/

open LinkedList

/-- The address of a `task_t`. -/
abbrev Tid := BitVec 64

inductive TaskState where
  | runnable
  | sleeping
  | blocked
  | zombie
  deriving DecidableEq, Repr

def numPriorities : ℕ := 32

def prioNormal : ℕ := 16

def prioInteractive : ℕ := 8

def maxIoWaiters : ℕ := 64

structure SleepQueue where
  sleepQueueHead : Option Tid
  sleepNext : Tid → Option Tid
  sleepUntil : Tid → ℕ

structure RunQueue where
  runQueues : ℕ → Option Tid
  runQueuesTail : ℕ → Option Tid
  activePriorityBitmap : BitVec 32
  schedNext : Tid → Option Tid
  schedPrev : Tid → Option Tid

/-- The globals of the scheduler, and of each task what the scheduler uses. -/
structure Sched extends RunQueue, SleepQueue where
  priority : Tid → ℕ
  state : Tid → TaskState
  running : Tid → Bool
  ioWaiters : List Tid
  currentTask : Option Tid
  idleTask : Option Tid

namespace Sched

open Function

/-! ### Run queues -/

/-- The queue of a task. -/
def prio (s : Sched) (task : Tid) : ℕ :=
  if numPriorities ≤ s.priority task then prioNormal else s.priority task

/-- A task with links, or at the head of its queue, is taken to be queued. -/
def queued (s : Sched) (task : Tid) : Bool :=
  (s.schedNext task).isSome || (s.schedPrev task).isSome
    || s.runQueues (s.prio task) == some task

/-- The part of `sched_enqueue` behind its guard: the task becomes the tail of its queue. -/
def pushBack (s : Sched) (task : Tid) : Sched :=
  let prio := s.prio task
  let tail := s.runQueuesTail prio
  { s with
    state := update s.state task .runnable
    running := update s.running task true
    schedNext := redirect (update s.schedNext task none) tail (some task)
    schedPrev := update s.schedPrev task tail
    runQueues :=
      update s.runQueues prio (if tail = none then some task else s.runQueues prio)
    runQueuesTail := update s.runQueuesTail prio (some task)
    activePriorityBitmap := s.activePriorityBitmap ||| 1#32 <<< prio }

def enqueue (s : Sched) (task : Tid) : Sched := if s.queued task then s else s.pushBack task

/-- The part of `sched_dequeue` behind its guard: the neighbours of the task are linked. -/
def takeOut (s : Sched) (task : Tid) : Sched :=
  let prio := s.prio task
  let prev := s.schedPrev task
  let next := s.schedNext task
  let head := if prev = none then next else s.runQueues prio
  let tail := if next = none then prev else s.runQueuesTail prio
  { s with
    schedNext := update (redirect s.schedNext prev next) task none
    schedPrev := update (redirect s.schedPrev next prev) task none
    runQueues := update s.runQueues prio head
    runQueuesTail := update s.runQueuesTail prio tail
    activePriorityBitmap :=
      if head = none then s.activePriorityBitmap &&& ~~~(1#32 <<< prio)
      else s.activePriorityBitmap }

def dequeue (s : Sched) (task : Tid) : Sched := if s.queued task then s.takeOut task else s

/-- `task->state = state; task->running = false`. -/
def stop (s : Sched) (task : Tid) (state : TaskState) : Sched :=
  { s with
    state := update s.state task state
    running := update s.running task false }

def block (s : Sched) (task : Tid) : Sched := (s.dequeue task).stop task .blocked

def unblock (s : Sched) (task : Tid) : Sched := s.enqueue task

/-- The first part of `sched_switch`: the current task goes to the tail of its queue, or out
of it if it is not runnable any more. -/
def requeue (s : Sched) (task : Tid) : Sched :=
  if s.idleTask = some task then s
  else
    let s := s.dequeue task
    if s.state task = .runnable then s.enqueue task else s

/-- The task that `sched_switch` selects. -/
def select (s : Sched) : Option Tid :=
  if s.activePriorityBitmap = 0 then s.idleTask
  else s.runQueues s.activePriorityBitmap.ctz.toNat

/-- `sched_switch`, without the registers; nothing is selected if there is no idle task. -/
def switch (s : Sched) : Sched :=
  match s.currentTask with
  | none => s
  | some task =>
    let s := s.requeue task
    if s.activePriorityBitmap = 0 ∧ s.idleTask = none then s
    else { s with currentTask := s.select }

/-- `sched_yield`: the interrupt handler calls `sched_switch`. -/
def yield (s : Sched) : Sched := s.switch

def init (s : Sched) (task : Tid) : Sched :=
  let s := { s with
    state := update s.state task .runnable
    running := update s.running task true
    priority := update s.priority task prioInteractive
    schedNext := update s.schedNext task none
    schedPrev := update s.schedPrev task none
    currentTask := some task }
  s.enqueue task

end Sched

/-! ### The sleep queue -/

namespace SleepQueue

/-- How many steps a walk over distinct tasks can take. -/
def walkLimit : ℕ := 2 ^ 64 + 1

/-- The loop of `sched_make_sleep`: the last task from `curr` on that is not due after
`sleepUntil`. -/
def place (s : SleepQueue) (sleepUntil : ℕ) : ℕ → Tid → Option Tid
  | 0, _ => none
  | fuel + 1, curr =>
    match s.sleepNext curr with
    | none => some curr
    | some next => if s.sleepUntil next ≤ sleepUntil then place s sleepUntil fuel next else some curr

/-- The links that `sched_make_sleep` writes, once the fields of the task are set. -/
def putIn (s : SleepQueue) (task : Tid) (sleepUntil : ℕ) : Option SleepQueue :=
  match s.sleepQueueHead with
  | none => some { s with sleepQueueHead := some task }
  | some head =>
    if sleepUntil < s.sleepUntil head then
      some { s with
        sleepNext := Function.update s.sleepNext task (some head), sleepQueueHead := some task }
    else do
      let curr ← s.place sleepUntil walkLimit head
      some { s with
        sleepNext :=
          Function.update (Function.update s.sleepNext task (s.sleepNext curr)) curr (some task) }

/-- The part of `sched_make_sleep` that puts a task into the queue. -/
def insert (s : SleepQueue) (task : Tid) (sleepUntil : ℕ) : Option SleepQueue :=
  { s with
    sleepUntil := Function.update s.sleepUntil task sleepUntil
    sleepNext := Function.update s.sleepNext task none }.putIn task sleepUntil

/-- A link of the queue: the head, or the link of a task. -/
def link (s : SleepQueue) : Option Tid → Option Tid
  | none => s.sleepQueueHead
  | some task => s.sleepNext task

def setLink (s : SleepQueue) (link next : Option Tid) : SleepQueue :=
  match link with
  | none => { s with sleepQueueHead := next }
  | some task => { s with sleepNext := Function.update s.sleepNext task next }

/-- The loop of `sched_wake` and `sched_forget`: the link to a task, or the last one. -/
def findLink (s : SleepQueue) (task : Tid) : ℕ → Option Tid → Option (Option Tid)
  | 0, _ => none
  | fuel + 1, link =>
    match s.link link with
    | none => some link
    | some curr => if curr = task then some link else findLink s task fuel (some curr)

/-- Take a task off the queue, the common part of `sched_wake` and `sched_forget`. -/
def unlink (s : SleepQueue) (task : Tid) : Option SleepQueue := do
  let link ← s.findLink task walkLimit none
  let s := if (s.link link).isSome then s.setLink link (s.sleepNext task) else s
  some { s with sleepNext := Function.update s.sleepNext task none }

/-- Take the first task off the queue, as `sched_timer_tick` does. -/
def pop (s : SleepQueue) (task : Tid) : SleepQueue :=
  { sleepQueueHead := s.sleepNext task
    sleepNext := Function.update s.sleepNext task none
    sleepUntil := Function.update s.sleepUntil task 0 }

end SleepQueue

namespace Sched

def makeSleep (s : Sched) (task : Tid) (sleepUntil : ℕ) : Option Sched := do
  let queue ← s.toSleepQueue.insert task sleepUntil
  some { s.stop task .sleeping with toSleepQueue := queue }

def wake (s : Sched) (task : Tid) : Option Sched :=
  if s.state task = .sleeping then do
    let queue ← s.toSleepQueue.unlink task
    let queue := { queue with sleepUntil := Function.update queue.sleepUntil task 0 }
    some ({ s with toSleepQueue := queue }.enqueue task)
  else some s

/-- The loop of `sched_timer_tick`. -/
def timerLoop (tick : ℕ) : ℕ → Sched → Option Sched
  | 0, _ => none
  | fuel + 1, s =>
    match s.sleepQueueHead with
    | none => some s
    | some task =>
      if s.sleepUntil task ≤ tick then
        timerLoop tick fuel ({ s with toSleepQueue := s.toSleepQueue.pop task }.enqueue task)
      else some s

def timerTick (s : Sched) (tick : BitVec 32) : Option Sched :=
  timerLoop tick.toNat SleepQueue.walkLimit s

/-! ### I/O waiters -/

/-- Remove the first entry for a task, putting the last one in its place. -/
def removeIoWaiter (s : Sched) (task : Tid) : Sched :=
  match s.ioWaiters.idxOf? task with
  | none => s
  | some i =>
    { s with ioWaiters := (s.ioWaiters.set i (s.ioWaiters.getLastD task)).dropLast }

def forget (s : Sched) (task : Tid) : Option Sched := do
  let s := s.dequeue task
  let queue ← s.toSleepQueue.unlink task
  some ({ s with toSleepQueue := queue }.removeIoWaiter task)

def ioWaitPrepare (s : Sched) : Sched :=
  match s.currentTask with
  | none => s
  | some task =>
    if task ∈ s.ioWaiters then s
    else if s.ioWaiters.length < maxIoWaiters then { s with ioWaiters := s.ioWaiters ++ [task] }
    else s

def ioWaitDone (s : Sched) : Sched :=
  match s.currentTask with
  | none => s
  | some task => s.removeIoWaiter task

def ioWakeAll (s : Sched) : Option Sched := do
  let s ← s.ioWaiters.foldlM wake s
  some { s with ioWaiters := [] }

end Sched
