import EquantOS.Lib.ByteRing
import EquantOS.Lib.CallLog

/-!
# Pipes

`pipe_read_op`, `pipe_write_op` and the close operations of `proc/pipe.c`, called by any number of
tasks.  A task that has to wait enters itself in the slot of the pipe and is blocked; when it runs
again it clears the slot and makes its test again.  Between two waits a call is not interrupted.

A blocked task may also be made runnable by something else, such as a signal.  The pipe is there as
long as one of its ends is open.
-/

namespace Pipe

open Function List CallLog

def pipeBufSize : ℕ := 4096

/-- `pipe_t`. -/
structure PipeBuf extends ByteRing where
  writeClosed : Bool
  readClosed : Bool
  blockedReader : Option ℕ
  blockedWriter : Option ℕ

/-- The call that a task waits in.  A write counts the bytes it has stored in `total_written`. -/
inductive Op where
  | idle
  | read (size : ℕ)
  | write (data : List UInt8) (totalWritten : ℕ)
deriving DecidableEq

inductive Result where
  | ebadf
  | epipe
  | bytes (n : ℕ)
deriving DecidableEq

/-- A call that has returned, with its task and its number: a read with the bytes it got and what it
found, a write with the bytes it was given. -/
inductive Return where
  | read (call : ℕ × ℕ) (got : List UInt8) (count : ℕ) (writeClosed : Bool) (result : Result)
  | write (call : ℕ × ℕ) (data : List UInt8) (result : Result)
deriving DecidableEq

/-- The pipe, the tasks, how many calls of each have returned, the bytes stored so far with the calls
that stored them, and the calls that have returned, the latest first. -/
structure Sys where
  pipe : PipeBuf
  op : ℕ → Op
  runnable : ℕ → Bool
  calls : ℕ → ℕ
  stored : List ((ℕ × ℕ) × UInt8)
  returns : List Return

/-- What happens: a task makes a call, a waiting task runs again, an end is closed, or a task is
made runnable by something else. -/
inductive Act where
  | read (task size : ℕ)
  | write (task : ℕ) (data : List UInt8)
  | resume (task : ℕ)
  | closeRead
  | closeWrite
  | wake (task : ℕ)

namespace PipeBuf

def create : PipeBuf := ⟨.empty, false, false, none, none⟩

/-- Replace the buffer. -/
def withRing (p : PipeBuf) (r : ByteRing) : PipeBuf := { p with toByteRing := r }

end PipeBuf

namespace Sys

def create : Sys := ⟨.create, fun _ => .idle, fun _ => true, fun _ => 0, [], []⟩

/-- `sched_unblock`, if there is a task. -/
def unblock (s : Sys) (task : Option ℕ) : Sys :=
  match task with
  | none => s
  | some t => { s with runnable := update s.runnable t true }

/-- Make the task in the slot of the readers runnable. -/
def wakeReader (s : Sys) : Sys :=
  let s := s.unblock s.pipe.blockedReader
  { s with pipe := { s.pipe with blockedReader := none } }

/-- Make the task in the slot of the writers runnable. -/
def wakeWriter (s : Sys) : Sys :=
  let s := s.unblock s.pipe.blockedWriter
  { s with pipe := { s.pipe with blockedWriter := none } }

/-- The call that a task is in. -/
def callOf (s : Sys) (task : ℕ) : ℕ × ℕ := (task, s.calls task)

/-- A call returns. -/
def ret (s : Sys) (task : ℕ) (r : Return) : Sys :=
  { s with
    op := update s.op task .idle
    calls := update s.calls task (s.calls task + 1)
    returns := r :: s.returns }

/-- `sched_block` and `sched_yield` in a call. -/
def block (s : Sys) (task : ℕ) (op : Op) : Sys :=
  { s with op := update s.op task op, runnable := update s.runnable task false }

/-- `pipe_read_op` up to its return or its wait. -/
def readRound (s : Sys) (task size : ℕ) : Sys :=
  if s.pipe.count = 0 then
    if s.pipe.writeClosed then
      s.ret task (.read (s.callOf task) [] s.pipe.count s.pipe.writeClosed (.bytes 0))
    else
      { s with pipe := { s.pipe with blockedReader := some task } }.block task (.read size)
  else
    let toRead := min size s.pipe.count
    let taken := s.pipe.toByteRing.takeBytes pipeBufSize toRead
    let s' := { s with pipe := s.pipe.withRing taken.2 }.wakeWriter
    s'.ret task (.read (s.callOf task) taken.1 s.pipe.count s.pipe.writeClosed (.bytes toRead))

/-- `pipe_write_op` up to its return or its wait, with the bytes that are left. -/
def writeRound (task : ℕ) (data : List UInt8) : List UInt8 → ℕ → Sys → Sys
  | [], total, s => s.ret task (.write (s.callOf task) data (.bytes total))
  | b :: rest, total, s =>
    if pipeBufSize ≤ s.pipe.count then
      if s.pipe.readClosed then
        s.ret task (.write (s.callOf task) data (if 0 < total then .bytes total else .epipe))
      else
        { s with pipe := { s.pipe with blockedWriter := some task } }.block task (.write data total)
    else
      writeRound task data rest (total + 1)
        { s with
          pipe := s.pipe.withRing (s.pipe.toByteRing.putByte pipeBufSize b)
          stored := s.stored ++ [(s.callOf task, b)] }.wakeReader

/-- A task that waits runs on. -/
def resume (s : Sys) (task : ℕ) : Sys :=
  match s.op task with
  | .idle => s
  | .read size => { s with pipe := { s.pipe with blockedReader := none } }.readRound task size
  | .write data total =>
    writeRound task data (data.drop total) total
      { s with pipe := { s.pipe with blockedWriter := none } }

def step (s : Sys) : Act → Sys
  | .read task size =>
    if s.op task ≠ .idle then s
    else if size = 0 then
      s.ret task (.read (s.callOf task) [] s.pipe.count s.pipe.writeClosed .ebadf)
    else s.readRound task size
  | .write task data =>
    if s.op task ≠ .idle then s
    else if data = [] then s.ret task (.write (s.callOf task) data .ebadf)
    else if s.pipe.readClosed then s.ret task (.write (s.callOf task) data .epipe)
    else writeRound task data data 0 s
  | .resume task => if s.runnable task then s.resume task else s
  | .closeRead => { s with pipe := { s.pipe with readClosed := true } }.wakeWriter
  | .closeWrite => { s with pipe := { s.pipe with writeClosed := true } }.wakeReader
  | .wake task => s.unblock (some task)

def run (s : Sys) (acts : List Act) : Sys := acts.foldl step s

end Sys

/-! ### First in, first out -/

namespace Return

def call : Return → ℕ × ℕ
  | .read call _ _ _ _ => call
  | .write call _ _ => call

/-- The bytes that a call got. -/
def got : Return → List UInt8
  | .read _ got _ _ _ => got
  | .write _ _ _ => []

/-- What is right about a call that has returned and has put some bytes into the pipe.  A read has put
none; it returns the number of bytes it got, and 0 only for an empty pipe whose write end is closed.  A
write has put as many of its bytes as it returns. -/
def Right (put : List UInt8) : Return → Prop
  | .read _ got count writeClosed result =>
    put = [] ∧ match result with
    | .bytes n => n = got.length ∧ (n = 0 → count = 0 ∧ writeClosed)
    | _ => got = []
  | .write _ data result =>
    match result with
    | .bytes n => put = data.take n ∧ n ≤ data.length
    | _ => put = []

end Return

/-- The bytes that the reads got, in order. -/
def received (returns : List Return) : List UInt8 := returns.reverse.flatMap Return.got

namespace Op

/-- The bytes that a call which waits has put into the pipe. -/
def put : Op → List UInt8
  | .write data total => data.take total
  | _ => []

/-- A read that waits was asked for a byte at least, and a write counts bytes that it has. -/
def Good : Op → Prop
  | .idle => True
  | .read size => 0 < size
  | .write data total => total ≤ data.length

end Op

/-- The law of the bytes, where the present calls have put `cur`. -/
structure Inv (s : Sys) (cur : ℕ → List UInt8) : Prop where
  keeps : s.pipe.Keeps pipeBufSize (s.stored.map Prod.snd) (received s.returns)
  account : Account Return.call (fun r put => r.Right put) s.stored s.calls cur s.returns
  ops (t : ℕ) : (s.op t).Good

namespace Sys

variable {s : Sys} {cur : ℕ → List UInt8}

end Sys

end Pipe
