import EquantOS.Lib.ByteRing
import EquantOS.Lib.CallLog

/-!
# Connected UNIX sockets

`unix_socket_read`, `unix_socket_write` and `unix_socket_close` of `ipc/af_unix.c` on a connected pair,
called by any number of tasks.  A socket has the buffer of what it receives; a write puts its bytes
into the buffer of the other side.  A call that has to wait blocks its task, and makes its test again
when the task runs again, which may be at any time.  Between two waits a call is not interrupted.

A socket that is closed is freed; the calls that still wait find its memory as it was.
-/

namespace UnixStream

open Function List CallLog

/-- `UNIX_SOCK_BUF_SIZE`. -/
def sockBufSize : ℕ := 64 * 4096

/-- The call that a task waits in, on one of the sides.  A write counts the bytes it has enqueued in
`written`. -/
inductive Op where
  | idle
  | read (side : Bool) (size : ℕ)
  | write (side : Bool) (data : List UInt8) (written : ℕ)
deriving DecidableEq

inductive Result where
  | epipe
  | eagain
  | bytes (n : ℕ)
deriving DecidableEq

/-- A call that has returned, with its task and its number: a read with the bytes it got, the count that
it found and whether the other side was closed; a write with the bytes it was given. -/
inductive Return where
  | read (call : ℕ × ℕ) (side : Bool) (got : List UInt8) (count : ℕ) (peerGone : Bool) (result : Result)
  | write (call : ℕ × ℕ) (side : Bool) (data : List UInt8) (result : Result)
deriving DecidableEq

open Return

/-- The two sockets, the tasks, how many calls of each have returned, the bytes enqueued with the calls
that enqueued them and the sides they are for, and the calls that have returned, the latest first. -/
structure Sys where
  ring : Bool → ByteRing
  peerClosed : Bool → Bool
  closed : Bool → Bool
  op : ℕ → Op
  calls : ℕ → ℕ
  enqueued : List ((ℕ × ℕ) × (Bool × UInt8))
  returns : List Return

inductive Act where
  | read (task : ℕ) (side : Bool) (size : ℕ) (nonblock : Bool)
  | write (task : ℕ) (side : Bool) (data : List UInt8) (nonblock : Bool)
  | resume (task : ℕ)
  | close (side : Bool)

namespace Sys

/-- A pair that has just been connected. -/
def connected : Sys where
  ring _ := .empty
  peerClosed _ := false
  closed _ := false
  op _ := .idle
  calls _ := 0
  enqueued := []
  returns := []

/-- The call that a task is in. -/
def callOf (s : Sys) (task : ℕ) : ℕ × ℕ := (task, s.calls task)

def ret (s : Sys) (task : ℕ) (r : Return) : Sys :=
  { s with
    op := update s.op task .idle
    calls := update s.calls task (s.calls task + 1)
    returns := r :: s.returns }

def block (s : Sys) (task : ℕ) (op : Op) : Sys := { s with op := update s.op task op }

/-- `unix_socket_read` up to its return or its wait. -/
def readRound (s : Sys) (task : ℕ) (side : Bool) (size : ℕ) (nonblock : Bool) : Sys :=
  if (s.ring side).count = 0 then
    if s.peerClosed side then
      s.ret task (.read (s.callOf task) side [] (s.ring side).count (s.closed !side) (.bytes 0))
    else if nonblock then
      s.ret task (.read (s.callOf task) side [] (s.ring side).count (s.closed !side) .eagain)
    else s.block task (.read side size)
  else
    let toRead := min size (s.ring side).count
    let taken := (s.ring side).takeBytes sockBufSize toRead
    { s with ring := update s.ring side taken.2 }.ret task
      (.read (s.callOf task) side taken.1 (s.ring side).count (s.closed !side) (.bytes toRead))

/-- `unix_socket_write` up to its return or its wait, with the bytes that are left. -/
def writeRound (task : ℕ) (side : Bool) (data : List UInt8) (nonblock : Bool) :
    List UInt8 → ℕ → Sys → Sys
  | [], written, s => s.ret task (.write (s.callOf task) side data (.bytes written))
  | b :: rest, written, s =>
    if sockBufSize ≤ (s.ring !side).count then
      if s.peerClosed !side || s.peerClosed side then
        s.ret task (.write (s.callOf task) side data .epipe)
      else if nonblock then
        s.ret task (.write (s.callOf task) side data (if 0 < written then .bytes written else .eagain))
      else s.block task (.write side data written)
    else
      writeRound task side data nonblock rest (written + 1)
        { s with
          ring := update s.ring (!side) ((s.ring !side).putByte sockBufSize b)
          enqueued := s.enqueued ++ [(s.callOf task, !side, b)] }

/-- A task that waits runs on. -/
def resume (s : Sys) (task : ℕ) : Sys :=
  match s.op task with
  | .idle => s
  | .read side size => s.readRound task side size false
  | .write side data written => writeRound task side data false (data.drop written) written s

/-- A step.  There are no calls on a side that is closed. -/
def step (s : Sys) : Act → Sys
  | .read task side size nonblock =>
    if s.op task ≠ .idle ∨ s.closed side then s
    else if size = 0 then
      s.ret task (.read (s.callOf task) side [] (s.ring side).count (s.closed !side) (.bytes 0))
    else s.readRound task side size nonblock
  | .write task side data nonblock =>
    if s.op task ≠ .idle ∨ s.closed side then s
    else if data = [] then s.ret task (.write (s.callOf task) side data (.bytes 0))
    else if s.peerClosed side then s.ret task (.write (s.callOf task) side data .epipe)
    else writeRound task side data nonblock data 0 s
  | .resume task => s.resume task
  | .close side =>
    if s.closed side then s
    else { s with closed := update s.closed side true, peerClosed := fun _ => true }

def run (s : Sys) (acts : List Act) : Sys := acts.foldl step s

end Sys

/-! ### The law of the stream -/

namespace Return

def call : Return → ℕ × ℕ
  | .read call _ _ _ _ _ => call
  | .write call _ _ _ => call

/-- The bytes that a call got on a side. -/
def got (side : Bool) : Return → List UInt8
  | .read _ side' got _ _ _ => if side' = side then got else []
  | .write _ _ _ _ => []

/-- What is right about a call that has returned and has enqueued some bytes.  A read has enqueued none,
and returns 0 only after the other side has closed and everything has been read.  A write has enqueued
the first of its bytes for the other side, and returns their number if there are any. -/
def Right (put : List (Bool × UInt8)) : Return → Prop
  | .read _ _ got count peerGone result =>
    put = [] ∧ match result with
    | .bytes n => n = got.length ∧ (n = 0 → peerGone ∧ count = 0)
    | _ => got = []
  | .write _ side data result =>
    put = (data.take put.length).map (!side, ·) ∧ (put ≠ [] → result = .bytes put.length)

end Return

/-- The bytes that the reads of a side got, in order. -/
def received (side : Bool) (returns : List Return) : List UInt8 :=
  returns.reverse.flatMap (got side)

/-- The bytes that were enqueued for a side, in order. -/
def enqueuedFor (side : Bool) (log : List ((ℕ × ℕ) × (Bool × UInt8))) : List UInt8 :=
  (log.filter (·.2.1 = side)).map (·.2.2)

/-- The bytes that a call which waits has enqueued, and the side they are for. -/
def Op.put : Op → List (Bool × UInt8)
  | .write side data written => (data.take written).map (!side, ·)
  | _ => []

/-- The bytes read on a side are the first of those enqueued for it, the others are in its buffer.  What
a call has enqueued is right for what it returned, or for how far it is, and there is nothing from other
calls. -/
structure Stream (s : Sys) : Prop where
  order (side : Bool) : received side s.returns
      ++ Ring.window (s.ring side).buf sockBufSize (s.ring side).readPos (s.ring side).count
    = enqueuedFor side s.enqueued
  returns {r : Return} : r ∈ s.returns → r.Right (ofCall s.enqueued r.call)
  waiting (t : ℕ) : ofCall s.enqueued (s.callOf t) = (s.op t).put
  others {call : ℕ × ℕ} : ofCall s.enqueued call ≠ [] →
    call ∈ s.returns.map Return.call ∨ call = s.callOf call.1

/-- What the calls that wait keep. -/
def Op.Good (closed : Bool → Bool) : Op → Prop
  | .idle => True
  | .read side size => 0 < size ∧ closed side = false
  | .write _ data written => written ≤ data.length ∧ ∀ side, closed side = false

/-- The law of the stream, where the present calls have enqueued `cur`. -/
structure Inv (s : Sys) (cur : ℕ → List (Bool × UInt8)) : Prop where
  keeps (side : Bool) :
    (s.ring side).Keeps sockBufSize (enqueuedFor side s.enqueued) (received side s.returns)
  account : Account Return.call (fun r put => r.Right put) s.enqueued s.calls cur s.returns
  ops (t : ℕ) : (s.op t).Good s.closed
  gone (side : Bool) : s.peerClosed side = (s.closed side || s.closed !side)

lemma Inv.stream {s : Sys} (h : Inv s (Op.put ∘ s.op)) : Stream s
  where
  order side := (h.keeps side).contents
  returns := h.account.right
  waiting := h.account.current
  others := h.account.of_ne_nil

namespace Sys

variable {s : Sys} {cur : ℕ → List (Bool × UInt8)}

end Sys

end UnixStream
