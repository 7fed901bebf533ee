import Mathlib.Algebra.BigOperators.Group.List.Basic
import Mathlib.Tactic.Ring

/-!
# eventfd

`eventfd_read` and `eventfd_write` of `ipc/eventfd.c`, called by any number of tasks.  A call that
cannot go on puts its task to sleep; when the task runs again it makes the same test again.  Between
two sleeps a call is not interrupted.

What goes into the counter comes out of it: no addition overflows, so the law holds for numbers.
-/

open Option

namespace Eventfd

/-- `eventfd_t`. -/
structure Efd where
  count : BitVec 64
  semaphore : Bool
deriving DecidableEq

/-- A call, with the size of its buffer. -/
inductive Call where
  | read (size : ℕ) (nonblock : Bool)
  | write (size : ℕ) (value : BitVec 64) (nonblock : Bool)
deriving DecidableEq

/-- What a call returns: an error, or the size of a number with the number that was read. -/
inductive Result where
  | einval
  | eagain
  | got (value : BitVec 64)
  | put
deriving DecidableEq

/-- `eventfd_read` up to its return or its sleep. -/
def eventfdRead (e : Efd) (size : ℕ) (nonblock : Bool) : Option (Result × Efd) :=
  if size < 8 then some (.einval, e)
  else if e.count = 0 then
    if nonblock then some (.eagain, e) else none
  else if e.semaphore then some (.got 1, { e with count := e.count - 1 })
  else some (.got e.count, { e with count := 0 })

def uint64Max : BitVec 64 := 0xFFFFFFFFFFFFFFFF

/-- `eventfd_write` up to its return or its sleep. -/
def eventfdWrite (e : Efd) (size : ℕ) (value : BitVec 64) (nonblock : Bool) : Option (Result × Efd) :=
  if size < 8 then some (.einval, e)
  else if value = uint64Max then some (.einval, e)
  else if uint64Max - 1 - e.count < value then
    if nonblock then some (.eagain, e) else none
  else some (.put, { e with count := e.count + value })

/-- One round of a call. -/
def Call.round (e : Efd) : Call → Option (Result × Efd)
  | .read size nonblock => eventfdRead e size nonblock
  | .write size value nonblock => eventfdWrite e size value nonblock

/-- A call that has returned, with the counter that it found. -/
structure Return where
  call : Call
  found : BitVec 64
  result : Result
deriving DecidableEq

open Return

/-- The counter, the calls that sleep, and the calls that have returned, the latest first. -/
structure Sys where
  efd : Efd
  waiting : ℕ → Option Call
  returns : List Return

/-- What the scheduler lets happen: a task makes a call, or a sleeping task runs again. -/
inductive Act where
  | call (task : ℕ) (c : Call)
  | resume (task : ℕ)

namespace Sys

def create (initval : BitVec 64) (semaphore : Bool) : Sys := ⟨⟨initval, semaphore⟩, fun _ => none, []⟩

/-- A round of a call by a task. -/
def round (s : Sys) (task : ℕ) (c : Call) : Sys :=
  match c.round s.efd with
  | none => { s with waiting := Function.update s.waiting task (some c) }
  | some (r, e) => ⟨e, Function.update s.waiting task none, ⟨c, s.efd.count, r⟩ :: s.returns⟩

def step (s : Sys) : Act → Sys
  | .call task c => if s.waiting task = none then s.round task c else s
  | .resume task =>
    match s.waiting task with
    | none => s
    | some c => s.round task c

def run (s : Sys) (acts : List Act) : Sys := acts.foldl step s

end Sys

/-! ### The law -/

/-- The number that a call has put into the counter. -/
def Return.written (r : Return) : ℕ :=
  match r.call, r.result with
  | .write _ value _, .put => value.toNat
  | _, _ => 0

/-- The number that a call has taken from the counter. -/
def Return.taken (r : Return) : ℕ :=
  match r.result with
  | .got value => value.toNat
  | _ => 0

/-- The call can go on: there is something to read, or room for what is written. -/
def Call.CanProceed (count : ℕ) : Call → Prop
  | .read _ _ => 0 < count
  | .write _ value _ => count + value.toNat ≤ 2 ^ 64 - 2

/-- The arguments of the call are valid. -/
def Call.Valid : Call → Prop
  | .read size _ => 8 ≤ size
  | .write size value _ => 8 ≤ size ∧ value.toNat < 2 ^ 64 - 1

def Call.nonblock : Call → Bool
  | .read _ nonblock => nonblock
  | .write _ _ nonblock => nonblock

/-- What is right about a call that has returned. -/
structure Return.Right (semaphore : Bool) (r : Return) : Prop where
  read {value : BitVec 64} : r.result = .got value →
    1 ≤ value.toNat ∧ (semaphore → value.toNat = 1)
  eagain : r.result = .eagain ↔
    r.call.nonblock ∧ r.call.Valid ∧ ¬ r.call.CanProceed r.found.toNat

variable {e e' : Efd} {r : Result}

namespace Sys

variable {initval : ℕ} {semaphore : Bool} {s : Sys}

end Sys

end Eventfd
