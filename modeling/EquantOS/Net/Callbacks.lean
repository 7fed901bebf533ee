import EquantOS.Net.State

/-!
# What the socket layer does for a connection

The receive ring of a stream socket and the three callbacks of `net/socket.c` that a
connection calls: to deliver bytes, to ask for space and to report an event.  Waking the
waiting tasks has no effect on the state of the stack.
-/

namespace SocketEntry

open Ring

/-! ### The receive ring -/

def ringUsed (e : SocketEntry) : BitVec 32 := e.rxHead - e.rxTail

def ringFree (e : SocketEntry) : BitVec 32 :=
  match e.rxRing with
  | some _ => BitVec.ofNat 32 sockRxRingSize - e.ringUsed
  | none => 0

/-- `ring_push`, with the number of bytes taken.  The size of the ring divides `2 ^ 32`, so
that the index may be reduced after the addition. -/
def ringPush (e : SocketEntry) (data : List Byte) : ℕ × SocketEntry :=
  let len := min data.length e.ringFree.toNat
  match e.rxRing with
  | some ring => (len, { e with
      rxRing := some (write ring sockRxRingSize e.rxHead.toNat (data.take len))
      rxHead := e.rxHead + BitVec.ofNat 32 len })
  | none => (len, e)

/-- `ring_pop`, with the bytes read. -/
def ringPop (e : SocketEntry) (max : ℕ) (peek : Bool) : List Byte × SocketEntry :=
  let len := min max e.ringUsed.toNat
  let ring := e.rxRing.getD fun _ => 0
  (window ring sockRxRingSize e.rxTail.toNat len,
    if peek then e else { e with rxTail := e.rxTail + BitVec.ofNat 32 len })

/-! ### Its contents -/

/-- The bytes in the ring, the oldest first. -/
def contents (e : SocketEntry) : List Byte :=
  window (e.rxRing.getD fun _ => 0) sockRxRingSize e.rxTail.toNat e.ringUsed.toNat

variable {e : SocketEntry}

@[simp]
lemma length_contents : e.contents.length = e.ringUsed.toNat := length_window

/-- The free space of a ring that is not overfull. -/
lemma toNat_ringFree (hr : e.rxRing.isSome) (h : e.ringUsed.toNat ≤ sockRxRingSize) :
  e.ringFree.toNat = sockRxRingSize - e.ringUsed.toNat
  := by
  obtain ⟨ring, hring⟩ := Option.isSome_iff_exists.mp hr
  simp only [ringFree, hring, sockRxRingSize] at h ⊢
  bv_omega

/-- The head of the ring is as far from the tail as bytes are in use. -/
lemma rxHead_mod : e.rxHead.toNat % sockRxRingSize
    = (e.rxTail.toNat + e.ringUsed.toNat) % sockRxRingSize
  := by
  simp only [ringUsed, sockRxRingSize]
  bv_omega

lemma ringPush_fst (data : List Byte) :
  (e.ringPush data).1 = min data.length e.ringFree.toNat
  := by
  rw [ringPush]
  cases e.rxRing <;> rfl

/-- What is pushed comes behind the contents. -/
lemma contents_ringPush
    (hr : e.rxRing.isSome) (h : e.ringUsed.toNat ≤ sockRxRingSize) (data : List Byte) :
  (e.ringPush data).2.contents = e.contents ++ data.take (e.ringPush data).1
    ∧ (e.ringPush data).2.ringUsed.toNat ≤ sockRxRingSize
  := by
  have hfree := toNat_ringFree hr h
  obtain ⟨ring, hring⟩ := Option.isSome_iff_exists.mp hr
  have hfst := ringPush_fst (e := e) data
  set n := min data.length e.ringFree.toNat with hn
  have hlen : (data.take n).length = n := by
    rw [List.length_take]
    omega
  have hpush : (e.ringPush data).2 = { e with
      rxRing := some (write ring sockRxRingSize e.rxHead.toNat (data.take n))
      rxHead := e.rxHead + BitVec.ofNat 32 n } := by
    simp only [ringPush, hring, hn]
  have hused : (e.ringPush data).2.ringUsed.toNat = e.ringUsed.toNat + n := by
    simp only [hpush, ringUsed, sockRxRingSize] at hfree h ⊢
    bv_omega
  refine ⟨?_, by omega⟩
  rw [hfst, contents, hused, hpush, contents, hring]
  simp only [Option.getD_some]
  rw [write_congr_pos rxHead_mod]
  have hroom : e.ringUsed.toNat + (data.take n).length ≤ sockRxRingSize := by omega
  have happend := @window_write _ ring _ e.rxTail.toNat _ _ hroom
  rwa [hlen] at happend

/-- What is popped comes off the front of the contents. -/
lemma contents_ringPop (h : e.ringUsed.toNat ≤ sockRxRingSize) (max : ℕ) :
  e.contents = (e.ringPop max false).1 ++ (e.ringPop max false).2.contents
    ∧ (e.ringPop max false).2.ringUsed.toNat ≤ sockRxRingSize
  := by
  set n := min max e.ringUsed.toNat with hn
  have hused : (e.ringPop max false).2.ringUsed.toNat = e.ringUsed.toNat - n := by
    simp only [ringPop, ringUsed] at hn ⊢
    simp only [Bool.false_eq_true, if_false]
    bv_omega
  have htail : (e.ringPop max false).2.rxTail.toNat % sockRxRingSize
      = (e.rxTail.toNat + n) % sockRxRingSize := by
    simp only [ringPop, ← hn, Bool.false_eq_true, if_false, sockRxRingSize]
    bv_omega
  refine ⟨?_, by omega⟩
  have hsplit : e.ringUsed.toNat = n + (e.ringUsed.toNat - n) := by omega
  rw [contents, contents, hused, window_congr_pos htail]
  conv_lhs => rw [hsplit, window_add]
  rfl

end SocketEntry

namespace Net

/-! ### The callbacks -/

/-- `sock_tcp_on_data`, with the number of bytes taken. -/
def sockTcpOnData (w : Net) (i : ℕ) (data : List Byte) : ℕ × Net :=
  match (w.tcpSockets i).owner with
  | none => (data.length, w)
  | some j =>
    if (w.sockets j).rxRing.isNone || (w.sockets j).shutRd then (data.length, w)
    else
      let push := (w.sockets j).ringPush data
      (push.1, w.modSock j fun _ => push.2)

def sockTcpRxSpace (w : Net) (i : ℕ) : ℕ :=
  match (w.tcpSockets i).owner with
  | none => 65535
  | some j => (w.sockets j).ringFree.toNat

/-- `tcp_error_to_errno`: `ECONNREFUSED`, `ECONNRESET`, `ETIMEDOUT` or no error. -/
def tcpErrorToErrno (err : TcpError) (connecting : Bool) : ℕ :=
  match err with
  | .refused => 111
  | .reset => if connecting then 111 else 104
  | .timeout => 110
  | .none => 0

/-- What `sock_tcp_on_event` does to the owner of a connection. -/
def onEvent (s : TcpSocket) (e : SocketEntry) : SocketEntry :=
  let e :=
    match s.state with
    | .established => if e.state = .connecting then { e with state := .connected } else e
    | .closed =>
      let err := tcpErrorToErrno s.error (e.state = .connecting)
      { e with
        err := if err = 0 then e.err else err
        peerClosed := true
        tcb := none
        state := .closed }
    | _ => e
  if s.peerFin then { e with peerClosed := true } else e

def sockTcpOnEvent (w : Net) (i : ℕ) : Net :=
  match (w.tcpSockets i).owner with
  | none => w
  | some j => w.modSock j (onEvent (w.tcpSockets i))

end Net
