import EquantOS.Net.Input
import EquantOS.Net.Socket

/-!
# The sent stream

The transmit ring of a connection holds the bytes that were accepted and not yet
acknowledged; `snd_una` and `snd_nxt` point into the stream of the accepted bytes, and
every segment carries a piece of that stream at its sequence number.  The FIN comes right
behind the last byte.
-/

open List hiding after
open Serial

/-- The segment acknowledges the sequence number. -/
def Segment.Acks (seg : Segment) (seq : BitVec 32) : Prop :=
  seg.flags.ack ∧ Gt seg.ack seq

namespace Net

open Ring

/-- What the guard of `tcp_write` and `tcp_shutdown` lets through. -/
lemma open_of_guard {s : TcpSocket} (h : ¬ (!s.active || s.finPending)) :
  s.active ∧ s.finPending = false
  := by
  simpa only [Bool.or_eq_true, Bool.not_eq_true', not_or, Bool.not_eq_true, Bool.not_eq_false] using h

/-! ### The queue -/

/-- The states of a connection whose FIN is queued. -/
def finQueued : TcpState → Bool
  | .finWait1 | .finWait2 | .closing | .lastAck | .timeWait => true
  | _ => false

/-- Data may be on its way: `acked` are the bytes acknowledged so far. -/
structure InData (isn : BitVec 32) (acked : List Byte) (s : TcpSocket) : Prop where
  state : s.state ≠ .synSent
  una : s.sndUna = after isn (1 + acked.length)
  flight : inFlight s ≤ s.txLen + finLen s
  queued : s.finPending = finQueued s.state
  sent : s.finSent → s.finPending

/-- The FIN has been acknowledged. -/
structure Flushed (s : TcpSocket) : Prop where
  len : s.txLen = 0
  nxt : s.sndNxt = s.sndUna
  pending : s.finPending
  queued : finQueued s.state

/-- The SYN is on its way. -/
structure InSyn (isn : BitVec 32) (acked : List Byte) (s : TcpSocket) : Prop where
  state : s.state = .synSent
  una : s.sndUna = isn
  nxt : s.sndNxt = after isn 1
  acked : acked = []
  pending : s.finPending = false
  sent : s.finSent = false

/-- The ring holds the bytes of the stream `W` from `acked` on. -/
def Holds (W acked : List Byte) (s : TcpSocket) : Prop :=
  ∃ buf, s.txBuf = some buf ∧ s.txLen ≤ tcpTxBufSize
    ∧ W = acked ++ window buf tcpTxBufSize s.txHead s.txLen

/-- The send side of a connection whose application has written the stream `W`.  The FIN
is acknowledged only if `heard` holds, which the acknowledgements received give. -/
def Queue (isn : BitVec 32) (W : List Byte) (heard : Prop) (s : TcpSocket) : Prop :=
  ∃ acked, Holds W acked s
    ∧ (InSyn isn acked s ∨ InData isn acked s ∨ Flushed s ∧ heard ∧ canSend s.state = false)

/-- A segment that agrees with the stream: its payload is a piece of the stream and a FIN
comes behind the last byte. -/
def Agrees (isn : BitVec 32) (W : List Byte) (pending : Bool) (seg : OutSegment) : Prop :=
  (seg.payload ≠ [] → Piece W isn seg.seq seg.payload)
    ∧ (seg.flags.fin → pending ∧ seg.seq = after isn (1 + W.length))

/-- The state of the send side of connection `i`: its queue, and the segments sent since
those in `base`. -/
structure Sending (isn : BitVec 32) (base : List OutSegment) (heard : Prop) (i : ℕ)
    (W : List Byte) (w : Net) : Prop where
  queue : (w.tcpSockets i).active → Queue isn W heard (w.tcpSockets i)
  log : ∃ log, w.sent = base ++ log ∧ ∀ seg ∈ log, Agrees isn W (w.tcpSockets i).finPending seg

variable {isn : BitVec 32} {base : List OutSegment} {i : ℕ} {W acked : List Byte} {w w' : Net}
  {s s' : TcpSocket} {heard heard' : Prop}

lemma Holds.length_eq (h : Holds W acked s) : W.length = acked.length + s.txLen
  := by
  obtain ⟨buf, -, -, hW⟩ := h
  rw [hW, length_append, length_window]

/-- What lies in the queue at an offset is a piece of the stream. -/
lemma Holds.piece (h : Holds W acked s) (hu : s.sndUna = after isn (1 + acked.length))
    {off len : ℕ} (hle : off + len ≤ s.txLen) :
  Piece W isn (after s.sndUna off)
    (window (s.txBuf.getD fun _ => 0) tcpTxBufSize (s.txHead + off) len)
  := by
  obtain ⟨buf, hbuf, -, hW⟩ := h
  refine ⟨acked ++ window buf tcpTxBufSize s.txHead off,
    window buf tcpTxBufSize (s.txHead + off + len) (s.txLen - (off + len)), ?_, ?_⟩
  · have hlen : s.txLen = off + (len + (s.txLen - (off + len))) := by omega
    conv_lhs => rw [hW, hlen, window_add, window_add]
    simp [hbuf]
  · rw [hu, after_after, length_append, length_window]
    congr 1
    omega

/-- A queue depends on the send side and the state only. -/
lemma Queue.congr (h : Queue isn W heard s) (hs : s'.toTcpSend = s.toTcpSend)
    (hst : s'.state = s.state) :
  Queue isn W heard s'
  := by
  have hflight : inFlight s' = inFlight s := by rw [inFlight, hs, inFlight]
  have hlen : finLen s' = finLen s := by rw [finLen, hs, finLen]
  obtain ⟨acked, hh, hphase⟩ := h
  refine ⟨acked, ?_, ?_⟩
  · rw [Holds, hs]
    exact hh
  rw [hst]
  rcases hphase with hsyn | hdata | ⟨hflush, hheard, hno⟩
  · left
    constructor <;> first | rw [hst] | rw [hs] | skip
    exacts [hsyn.state, hsyn.una, hsyn.nxt, hsyn.acked, hsyn.pending, hsyn.sent]
  · right; left
    constructor <;> first | rw [hst, hs] | rw [hst] | rw [hflight, hlen, hs] | rw [hs]
    exacts [hdata.state, hdata.una, hdata.flight, hdata.queued, hdata.sent]
  right; right
  refine ⟨?_, hheard, hno⟩
  constructor <;> first | rw [hst] | rw [hs]
  exacts [hflush.len, hflush.nxt, hflush.pending, hflush.queued]

/-- More acknowledgements may have been heard. -/
lemma Queue.mono (h : Queue isn W heard s) (himp : heard → heard') : Queue isn W heard' s
  := by
  obtain ⟨acked, hh, hphase⟩ := h
  exact ⟨acked, hh, hphase.imp_right (Or.imp_right (And.imp_right (And.imp_left himp)))⟩

namespace Sending

section

variable (h : Sending isn base heard i W w)

include h

lemma mono (himp : heard → heard') :
  Sending isn base heard' i W w
  := ⟨fun hact => (h.queue hact).mono himp, h.log⟩

/-- Nothing that the stream depends on has changed. -/
lemma congr (hs : (w'.tcpSockets i).toTcpSend = (w.tcpSockets i).toTcpSend)
    (hst : (w'.tcpSockets i).state = (w.tcpSockets i).state)
    (ha : (w'.tcpSockets i).active = (w.tcpSockets i).active)
    (hlog : w'.sent = w.sent) :
  Sending isn base heard i W w'
  := by
  constructor
  · rw [ha]
    intro hact
    exact (h.queue hact).congr hs hst
  · rw [hlog, hs]
    exact h.log

/-- The connection is released. -/
lemma closed (ha : (w'.tcpSockets i).active = false)
    (hp : (w'.tcpSockets i).finPending = (w.tcpSockets i).finPending) (hlog : w'.sent = w.sent) :
  Sending isn base heard i W w'
  := by
  constructor
  · simp [ha]
  · rw [hlog, hp]
    exact h.log

/-- Transmissions that agree with the stream and leave the queue in order. -/
lemma sends {nxt : BitVec 32} {fin : Bool} {timer : TcpTimer} {adv : ℕ} {log : List OutSegment}
    (hlog : ∀ seg ∈ log, Agrees isn W (w.tcpSockets i).finPending seg)
    (hq : (w.tcpSockets i).active → Queue isn W heard
      { w.tcpSockets i with sndNxt := nxt, finSent := fin }) :
  Sending isn base heard i W (w.sends i nxt fin timer adv log)
  := by
  constructor
  · rw [tcpSockets_sends]
    intro hact
    exact (hq hact).congr rfl rfl
  · obtain ⟨old, hold, hagree⟩ := h.log
    refine ⟨old ++ log, ?_, ?_⟩
    · rw [sent_sends, hold, append_assoc]
    · intro seg hseg
      rw [tcpSockets_sends]
      rcases mem_append.mp hseg with hseg | hseg
      · exact hagree seg hseg
      · exact hlog seg hseg

/-- A segment without payload and FIN. -/
lemma xmit (seq : BitVec 32) {flags : TcpFlags}
    (hf : flags.fin = false) :
  Sending isn base heard i W (w.tcpXmit id i seq flags 0 0)
  := by
  rw [tcpXmit_id]
  apply h.sends
  · intro seg hseg
    obtain ⟨-, hflags, hpay, -⟩ := mem_segments hseg
    simp [Agrees, hflags, hpay, hf]
  · intro hact
    exact h.queue hact

end

/-- In the states in which `tcp_output` sends, data may be on its way. -/
lemma inData_of_canSend (hq : Queue isn W heard s) (hc : canSend s.state) :
  ∃ acked, Holds W acked s ∧ InData isn acked s
  := by
  obtain ⟨acked, hh, hsyn | hdata | ⟨-, -, hno⟩⟩ := hq
  · simp [hsyn.state, canSend] at hc
  · exact ⟨acked, hh, hdata⟩
  · rw [hno] at hc
    cases hc

lemma output (h : Sending isn base heard i W w) (hact : (w.tcpSockets i).active) :
  Sending isn base heard i W (w.tcpOutput id i)
  := by
  by_cases hc : canSend (w.tcpSockets i).state
  · obtain ⟨acked, hh, hd⟩ := inData_of_canSend (h.queue hact) hc
    have hlen : (w.tcpSockets i).txLen ≤ tcpTxBufSize := by
      obtain ⟨-, -, hle, -⟩ := hh
      exact hle
    obtain ⟨nxt, fin, timer, adv, log, heq, hlog, -, hout⟩ := tcpOutput_id (w := w) (i := i)
    rw [heq]
    apply h.sends
    · intro seg hseg
      rcases hlog seg hseg with ⟨off, len, psh, hle, hmem⟩ | ⟨hpend, hmem⟩
      · obtain ⟨hseq, hflags, hpay, -⟩ := mem_segments hmem
        refine ⟨fun _ => ?_, by simp [hflags]⟩
        rw [hseq, hpay]
        exact hh.piece hd.una (by omega)
      · obtain ⟨hseq, hflags, hpay, -⟩ := mem_segments hmem
        refine ⟨fun hne => absurd hpay hne, fun _ => ⟨hpend, ?_⟩⟩
        rw [hseq, hd.una, after_after, hh.length_eq, Nat.add_assoc]
    · intro _
      have hO := hout (by simp only [tcpTxBufSize] at hlen; omega) hd.flight
      refine ⟨acked, hh, .inr (.inl ⟨hd.state, hd.una, hO.le, hd.queued, ?_⟩)⟩
      intro hfin
      rcases hO.finPending hfin with hsent | hpend
      · exact hd.sent hsent
      · exact hpend
  · rw [tcpOutput, if_neg hc]
    exact h

/-! ### The application -/

variable {buf : ℕ → Byte} {data : List Byte} {ack : BitVec 32}

/-- Accepted bytes go behind the queue. -/
lemma holds_write (h : Holds W acked s) (hbuf : s.txBuf = some buf) (hroom : s.txLen + data.length ≤ tcpTxBufSize) :
  Holds (W ++ data) acked { s with
    txBuf := some (write buf tcpTxBufSize (s.txHead + s.txLen) data)
    txLen := s.txLen + data.length }
  := by
  obtain ⟨buf', hbuf', -, hW⟩ := h
  obtain rfl := Option.some.inj (hbuf.symm.trans hbuf')
  refine ⟨_, rfl, hroom, ?_⟩
  rw [window_write hroom, ← append_assoc, ← hW]

lemma queue_write (hq : Queue isn W heard s) (hpend : s.finPending = false)
    (hbuf : s.txBuf = some buf)
    (hroom : s.txLen + data.length ≤ tcpTxBufSize) (heard' : Prop) :
  Queue isn (W ++ data) heard' { s with
    txBuf := some (write buf tcpTxBufSize (s.txHead + s.txLen) data)
    txLen := s.txLen + data.length }
  := by
  obtain ⟨acked, hh, hphase⟩ := hq
  refine ⟨acked, holds_write hh hbuf hroom, ?_⟩
  rcases hphase with hsyn | hdata | ⟨hflush, -⟩
  · exact .inl ⟨hsyn.state, hsyn.una, hsyn.nxt, hsyn.acked, hsyn.pending, hsyn.sent⟩
  · refine .inr (.inl ⟨hdata.state, hdata.una, ?_, hdata.queued, hdata.sent⟩)
    have := hdata.flight
    simp only [inFlight, finLen] at this ⊢
    omega
  · rw [hflush.pending] at hpend
    cases hpend

/-- Bytes are accepted only while the FIN is not acknowledged. -/
lemma write (h : Sending isn base heard i W w) (data : List Byte) :
  Sending isn base (heard ∧ (w.tcpWrite id i data).1 = 0) i
    (W ++ data.take (w.tcpWrite id i data).1) (w.tcpWrite id i data).2
  := by
  rw [tcpWrite]
  cases hbuf : (w.tcpSockets i).txBuf with
  | none => simpa using h
  | some buf =>
    simp only
    split
    · simpa using h
    next hopen =>
      obtain ⟨hact, hpend⟩ := open_of_guard hopen
      set n := min data.length (tcpTxBufSize - (w.tcpSockets i).txLen) with hn
      have hlen : (data.take n).length = n := by
        rw [length_take]
        omega
      have hroom : (w.tcpSockets i).txLen + (data.take n).length ≤ tcpTxBufSize := by
        obtain ⟨-, ⟨-, -, hle, -⟩, -⟩ := h.queue hact
        omega
      apply output
      · constructor
        · intro _
          rw [tcpSockets_modTcp]
          have := queue_write (h.queue hact) hpend hbuf hroom (heard ∧ n = 0)
          rwa [hlen] at this
        · obtain ⟨log, hlog, hagree⟩ := h.log
          refine ⟨log, hlog, fun seg hseg => ?_⟩
          obtain ⟨hpiece, hfin⟩ := hagree seg hseg
          constructor
          · intro hne
            obtain ⟨a, b, hab, hseq⟩ := hpiece hne
            exact ⟨a, b ++ data.take n, by rw [hab, append_assoc], hseq⟩
          · intro hf
            rw [hpend] at hfin
            cases (hfin hf).1
      · simpa using hact

lemma queue_fin (hq : Queue isn W heard s) (hpend : s.finPending = false) {st : TcpState}
    (hfin : finQueued st) (hst : st ≠ .synSent) (hsyn : s.state ≠ .synSent) :
  Queue isn W heard { s with state := st, finPending := true }
  := by
  obtain ⟨acked, hh, hs | hd | ⟨hf, -⟩⟩ := hq
  · exact absurd hs.state hsyn
  · refine ⟨acked, hh, .inr (.inl ⟨hst, hd.una, ?_, hfin.symm, fun _ => rfl⟩)⟩
    have := hd.flight
    simp only [inFlight, finLen, hpend] at this ⊢
    simp only [Bool.false_eq_true, if_false] at this ⊢
    omega
  · rw [hf.pending] at hpend
    cases hpend

section

variable (h : Sending isn base heard i W w)

include h

/-- Closing queues the FIN. -/
lemma queueFin (hact : (w.tcpSockets i).active)
    (hpend : (w.tcpSockets i).finPending = false) {st : TcpState} (hq : finQueued st)
    (hst : st ≠ .synSent) (hsyn : (w.tcpSockets i).state ≠ .synSent) :
  Sending isn base heard i W
    ((w.modTcp i fun s => { s with state := st, finPending := true }).tcpOutput id i)
  := by
  apply output
  · constructor
    · intro _
      rw [tcpSockets_modTcp]
      exact queue_fin (h.queue hact) hpend hq hst hsyn
    · obtain ⟨log, hlog, hagree⟩ := h.log
      refine ⟨log, hlog, fun seg hseg => ?_⟩
      rw [tcpSockets_modTcp]
      obtain ⟨hpiece, hfin⟩ := hagree seg hseg
      exact ⟨hpiece, fun hf => ⟨rfl, (hfin hf).2⟩⟩
  · simpa using hact

lemma shutdown : Sending isn base heard i W (w.tcpShutdown id i)
  := by
  rw [tcpShutdown]
  split
  · exact h
  next hopen =>
    obtain ⟨hact, hpend⟩ := open_of_guard hopen
    split
    next hst => exact h.queueFin hact hpend rfl (by decide) (by rw [hst]; decide)
    next hst => exact h.queueFin hact hpend rfl (by decide) (by rw [hst]; decide)
    · exact h

lemma free : Sending isn base heard i W (w.tcpFree i)
  := by
  apply h.closed <;> simp

lemma fail (err : TcpError) :
  Sending isn base heard i W (w.tcpFail i err)
  := by
  apply h.closed <;> simp

lemma close : Sending isn base heard i W (w.tcpClose id i)
  := by
  rw [tcpClose]
  split
  · have hdrop : Sending isn base heard i W (w.modTcp i fun s => { s with
        owner := none, onData := false, rxSpace := false, onEvent := false }) := by
      apply h.congr <;> simp
    simp only
    split
    · exact hdrop.free
    · exact hdrop.shutdown
  · exact h

/-! ### Timeouts -/

lemma retry (now : BitVec 32) :
  Sending isn base heard i W (w.timeoutRetry i now)
  := by
  apply h.congr <;> simp [timeoutRetry]

/-- The persist timer sends the first byte of the queue. -/
lemma persist (hact : (w.tcpSockets i).active)
    (hsyn : (w.tcpSockets i).state ≠ .synSent) (hnxt : (w.tcpSockets i).sndNxt
      = (w.tcpSockets i).sndUna) (hlen : 0 < (w.tcpSockets i).txLen) (now : BitVec 32) :
  Sending isn base heard i W (w.timeoutPersist id i now)
  := by
  obtain ⟨acked, hh, hs | hd | ⟨hf, -⟩⟩ := h.queue hact
  · exact absurd hs.state hsyn
  · rw [timeoutPersist, tcpXmit_id]
    have hsend : Sending isn base heard i W (w.sends i (after (w.tcpSockets i).sndUna 1)
        (w.tcpSockets i).finSent (w.tcpSockets i).toTcpTimer (w.nextAdv i)
        (w.segments i (w.tcpSockets i).sndNxt { ack := true } 0 1)) := by
      apply h.sends
      · intro seg hseg
        obtain ⟨hseq, hflags, hpay, -⟩ := mem_segments hseg
        refine ⟨fun _ => ?_, by simp [hflags]⟩
        rw [hseq, hpay, hnxt, ← after_zero (w.tcpSockets i).sndUna]
        apply hh.piece hd.una
        omega
      · intro _
        refine ⟨acked, hh, .inr (.inl ⟨hd.state, hd.una, ?_, hd.queued, hd.sent⟩)⟩
        simp only [inFlight, toNat_after_sub]
        omega
    apply hsend.congr
    · simp [hnxt, after]
    · simp
    · simp
    · simp
  · have := hf.len
    omega

end

/-- Back to the oldest byte that is not acknowledged. -/
lemma queue_rewind (hq : Queue isn W heard s) (hsyn : s.state ≠ .synSent) :
  Queue isn W heard { s with sndNxt := s.sndUna, rtxArmed := false }
  := by
  obtain ⟨acked, hh, hs | hd | ⟨hf, hheard, hno⟩⟩ := hq
  · exact absurd hs.state hsyn
  · refine ⟨acked, hh, .inr (.inl ⟨hd.state, hd.una, ?_, hd.queued, hd.sent⟩)⟩
    simp [inFlight]
  · exact ⟨acked, hh, .inr (.inr ⟨⟨hf.len, rfl, hf.pending, hf.queued⟩, hheard, hno⟩)⟩

lemma timeout (h : Sending isn base heard i W w) (hact : (w.tcpSockets i).active) (now : BitVec 32) :
  Sending isn base heard i W (w.tcpTimeout id i now)
  := by
  rw [tcpTimeout]
  split
  · split
    · exact h.fail _
    · exact (h.xmit _ rfl).retry now
  next hsyn =>
    split
    next hp => exact h.persist hact hsyn hp.1 hp.2.2 now
    · split
      · exact (h.xmit _ rfl).fail _
      apply retry
      apply output
      · constructor
        · intro _
          rw [tcpSockets_modTcp]
          exact queue_rewind (h.queue hact) hsyn
        · simpa using h.log
      · simpa using hact

/-! ### Acknowledgements -/

/-- The send side between the acknowledgement of a segment and the transition it causes:
the FIN may be acknowledged, and then the flag says so. -/
def AckedQueue (isn : BitVec 32) (W : List Byte) (heard : Prop) (flag : Bool) (s : TcpSocket) :
    Prop :=
  ∃ acked, Holds W acked s
    ∧ (InData isn acked s ∨ Flushed s ∧ heard ∧ (flag = true ∨ canSend s.state = false))

/-- Acknowledged bytes leave the front of the queue. -/
lemma holds_ack (h : Holds W acked s) {n : ℕ} (hn : n ≤ s.txLen) :
  ∃ acked', acked'.length = acked.length + n ∧ Holds W acked' { s with
    txHead := (s.txHead + n) % tcpTxBufSize, txLen := s.txLen - n }
  := by
  obtain ⟨buf, hbuf, hle, hW⟩ := h
  refine ⟨acked ++ window buf tcpTxBufSize s.txHead n, ?_, buf, hbuf, ?_, ?_⟩
  · rw [length_append, length_window]
  · simp only
    omega
  · rw [window_mod, append_assoc, ← window_add, Nat.add_sub_cancel' hn]
    exact hW

/-- The acknowledgements that are taken for new: those of queued bytes, and of a FIN that
has been sent. -/
lemma ackIsNew_iff (hlen : s.txLen ≤ tcpTxBufSize) :
  ackIsNew s ack ↔ 0 < (ack - s.sndUna).toNat
    ∧ (ack - s.sndUna).toNat ≤ s.txLen + if s.finSent then 1 else 0
  := by
  have hmax : s.sndUna + BitVec.ofNat 32 s.txLen + (if s.finSent then 1 else 0)
      = after s.sndUna (s.txLen + if s.finSent then 1 else 0) := by
    rw [← after_after]
    cases s.finSent
    · simp [after]
    · rfl
  rw [ackIsNew, hmax, gt_and_le_after_iff]
  simp only [tcpTxBufSize] at hlen
  split <;> omega

/-- `snd_nxt` does not stay behind an acknowledgement. -/
lemma nxt_after_ack (ack : BitVec 32) (hf : inFlight s < 2 ^ 31)
    (hd : (ack - s.sndUna).toNat < 2 ^ 31) :
  (if Lt s.sndNxt ack then ack else s.sndNxt)
    = after s.sndUna (max (inFlight s) (ack - s.sndUna).toNat)
  := by
  have hnxt : s.sndNxt = after s.sndUna (inFlight s) := (after_sub_toNat _ _).symm
  have hack : ack = after s.sndUna (ack - s.sndUna).toNat := (after_sub_toNat _ _).symm
  have hlt : Lt s.sndNxt ack ↔ inFlight s < (ack - s.sndUna).toNat := by
    conv_lhs => rw [hack, hnxt]
    exact lt_after_iff (by omega) (by omega)
  by_cases h : inFlight s < (ack - s.sndUna).toNat
  · rw [if_pos (hlt.mpr h), max_eq_right (by omega)]
    exact hack
  · rw [if_neg (mt hlt.mp h), max_eq_left (by omega)]
    exact hnxt

/-- A new acknowledgement of data. -/
lemma inData_ackAdvance (hh : Holds W acked s) (hd : InData isn acked s) (now ack : BitVec 32)
    (wnd : ℕ) (hle : (ack - s.sndUna).toNat ≤ s.txLen) :
  ∃ acked', Holds W acked' (ackAdvance now ack wnd s)
    ∧ InData isn acked' (ackAdvance now ack wnd s)
  := by
  have hbuf : s.txLen ≤ tcpTxBufSize := by
    obtain ⟨-, -, hle, -⟩ := hh
    exact hle
  have hfin : finLen s ≤ 1 := by
    rw [finLen]
    split <;> omega
  have hflight := hd.flight
  simp only [tcpTxBufSize] at hbuf
  have hnxt := nxt_after_ack (s := s) ack (by omega) (by omega)
  obtain ⟨acked', hlen, hh'⟩ := holds_ack hh hle
  have hmin : min (ack - s.sndUna).toNat s.txLen = (ack - s.sndUna).toNat := by omega
  refine ⟨acked', ?_, ?_⟩
  · simpa only [Holds, ackAdvance, hmin] using hh'
  refine ⟨hd.state, ?_, ?_, hd.queued, hd.sent⟩
  · change ack = _
    rw [hlen, ← Nat.add_assoc, ← after_after, ← hd.una, after_sub_toNat]
  · simp only [ackAdvance, inFlight, hnxt]
    nth_rewrite 2 [← after_sub_toNat s.sndUna ack]
    rw [toNat_after_sub_after _ (by omega) (by omega)]
    simp only [inFlight, finLen] at hflight ⊢
    omega

/-- The acknowledgement of the FIN. -/
lemma flushed_ackAdvance (now ack : BitVec 32) (wnd : ℕ) (hpend : s.finPending)
    (hq : finQueued s.state) (hlt : s.txLen < (ack - s.sndUna).toNat)
    (hflight : inFlight s ≤ (ack - s.sndUna).toNat) (hbig : (ack - s.sndUna).toNat < 2 ^ 31) :
  Flushed (ackAdvance now ack wnd s)
  := by
  have hnxt := nxt_after_ack (s := s) ack (by omega) hbig
  rw [max_eq_right hflight, after_sub_toNat] at hnxt
  refine ⟨?_, hnxt, hpend, hq⟩
  simp only [ackAdvance]
  omega

lemma holds_flushed (hh : Holds W acked s) (now ack : BitVec 32) (wnd : ℕ)
    (hlt : s.txLen ≤ (ack - s.sndUna).toNat) :
  ∃ acked', Holds W acked' (ackAdvance now ack wnd s)
  := by
  obtain ⟨acked', -, hh'⟩ := holds_ack hh le_rfl
  refine ⟨acked', ?_⟩
  have hmin : min (ack - s.sndUna).toNat s.txLen = s.txLen := by omega
  simpa only [Holds, ackAdvance, hmin] using hh'

/-- An acknowledgement past the queue is one of the FIN. -/
lemma gt_of_past_queue (hh : Holds W acked s) (hd : InData isn acked s)
    (hlt : s.txLen < (ack - s.sndUna).toNat) (hbig : (ack - s.sndUna).toNat < 2 ^ 31) :
  Gt ack (after isn (1 + W.length))
  := by
  have hack : ack = after isn (1 + acked.length + (ack - s.sndUna).toNat) := by
    rw [← after_after, ← hd.una, after_sub_toNat]
  rw [hack, hh.length_eq, ← Nat.add_assoc, ← after_after, ← after_after _ _ s.txLen]
  exact (gt_after_iff (by omega) (by omega)).mpr hlt

/-- What an acknowledgement makes of the queue. -/
lemma ackedQueue_ackOutcome (hq : Queue isn W heard s) (hsyn : s.state ≠ .synSent)
    (now ack : BitVec 32) (wnd : ℕ) :
  AckedQueue isn W (heard ∨ Gt ack (after isn (1 + W.length)))
    (finAcked (ackOutcome now ack wnd s)) (ackOutcome now ack wnd s)
  := by
  obtain ⟨acked, hh, hphase⟩ := hq
  have hbuf : s.txLen ≤ tcpTxBufSize := by
    obtain ⟨-, -, hle, -⟩ := hh
    exact hle
  rw [ackOutcome]
  split
  next hnew =>
    rw [ackIsNew_iff hbuf] at hnew
    simp only [tcpTxBufSize] at hbuf
    obtain ⟨hpos, hmax⟩ := hnew
    by_cases hle : (ack - s.sndUna).toNat ≤ s.txLen
    · rcases hphase with hs | hd | ⟨hf, -⟩
      · exact absurd hs.state hsyn
      · obtain ⟨acked', hh', hd'⟩ := inData_ackAdvance hh hd now ack wnd hle
        exact ⟨acked', hh', .inl hd'⟩
      · have := hf.len
        omega
    · -- the acknowledgement goes past the queue: the FIN has been sent
      have hsent : s.finSent := by
        by_contra hno
        rw [if_neg hno] at hmax
        omega
      have hmax' : (ack - s.sndUna).toNat ≤ s.txLen + 1 := by simpa [hsent] using hmax
      obtain ⟨acked', hh'⟩ := holds_flushed hh now ack wnd (by omega)
      refine ⟨acked', hh', .inr ?_⟩
      have hflush : Flushed (ackAdvance now ack wnd s)
          ∧ (heard ∨ Gt ack (after isn (1 + W.length))) := by
        rcases hphase with hs | hd | ⟨hf, hheard, -⟩
        · exact absurd hs.state hsyn
        · have hpend := hd.sent hsent
          refine ⟨?_, .inr (gt_of_past_queue hh hd (by omega) (by omega))⟩
          apply flushed_ackAdvance now ack wnd hpend (hd.queued ▸ hpend) (by omega) _ (by omega)
          have := hd.flight
          simp only [finLen, hpend, if_true] at this
          omega
        · refine ⟨?_, .inl hheard⟩
          apply flushed_ackAdvance now ack wnd hf.pending hf.queued (by omega) _ (by omega)
          rw [inFlight, hf.nxt, BitVec.sub_self, BitVec.toNat_zero]
          omega
      obtain ⟨hflush, hheard⟩ := hflush
      refine ⟨hflush, hheard, .inl ?_⟩
      have hsent' : (ackAdvance now ack wnd s).finSent := hsent
      simp [finAcked, hsent', hflush.len, hflush.nxt]
  · have hkeep : ∀ s' : TcpSocket, (s' = s ∨ s' = { s with sndWnd := wnd }) →
        AckedQueue isn W (heard ∨ Gt ack (after isn (1 + W.length))) (finAcked s') s' := by
      rintro s' hs'
      refine ⟨acked, ?_, ?_⟩
      · rcases hs' with rfl | rfl <;> exact hh
      rcases hphase with hs | hd | ⟨hf, hheard, hno⟩
      · exact absurd hs.state hsyn
      · left
        rcases hs' with rfl | rfl <;> exact ⟨hd.state, hd.una, hd.flight, hd.queued, hd.sent⟩
      · right
        rcases hs' with rfl | rfl <;>
          exact ⟨⟨hf.len, hf.nxt, hf.pending, hf.queued⟩, .inl hheard, .inr hno⟩
    split
    · exact hkeep _ (.inr rfl)
    · exact hkeep _ (.inl rfl)

/-! ### Segments -/

/-- The send side of connection `i` in the middle of a segment. -/
structure Acking (isn : BitVec 32) (base : List OutSegment) (heard : Prop) (i : ℕ) (W : List Byte)
    (flag : Bool) (w : Net) : Prop where
  active : (w.tcpSockets i).active
  queue : AckedQueue isn W heard flag (w.tcpSockets i)
  log : ∃ log, w.sent = base ++ log ∧ ∀ seg ∈ log, Agrees isn W (w.tcpSockets i).finPending seg

lemma inputAck (h : Sending isn base heard i W w) (hact : (w.tcpSockets i).active)
    (hsyn : (w.tcpSockets i).state ≠ .synSent) (seg : Segment) :
  Acking isn base (heard ∨ seg.Acks (after isn (1 + W.length))) i W
    (w.inputAck i seg).1 (w.inputAck i seg).2
  := by
  rw [Net.inputAck]
  split
  next hack =>
    constructor
    · rw [tcpSockets_tcpProcessAck, ackOutcome_eq]
      exact hact
    · rw [tcpProcessAck_fst, tcpSockets_tcpProcessAck]
      obtain ⟨acked, hh, hphase⟩ := ackedQueue_ackOutcome (h.queue hact) hsyn w.tcpNowMs seg.ack
        seg.windowSize.toNat
      exact ⟨acked, hh, hphase.imp_right
        (And.imp_right (And.imp_left (Or.imp_right fun hgt => ⟨hack, hgt⟩)))⟩
    · have hpend : (ackOutcome w.tcpNowMs seg.ack seg.windowSize.toNat (w.tcpSockets i)).finPending
          = (w.tcpSockets i).finPending := by
        rw [ackOutcome]
        split
        · rfl
        · split <;> rfl
      rw [sent_tcpProcessAck, tcpSockets_tcpProcessAck, hpend]
      exact h.log
  · refine ⟨hact, ?_, h.log⟩
    obtain ⟨acked, hh, hs | hd | ⟨hf, hheard, hno⟩⟩ := h.queue hact
    · exact absurd hs.state hsyn
    · exact ⟨acked, hh, .inl hd⟩
    · exact ⟨acked, hh, .inr ⟨hf, .inl hheard, .inr hno⟩⟩

variable {flag : Bool}

/-- A queue in the middle of a segment, after a change of the state. -/
lemma AckedQueue.setState (h : AckedQueue isn W heard flag s)
    (hs : s'.toTcpSend = s.toTcpSend) (hsyn : s.state ≠ .synSent → s'.state ≠ .synSent)
    (hq : finQueued s'.state = finQueued s.state)
    (hc : canSend s.state = false → finQueued s.state → canSend s'.state = false) :
  AckedQueue isn W heard flag s'
  := by
  obtain ⟨acked, hh, hphase⟩ := h
  refine ⟨acked, ?_, ?_⟩
  · rw [Holds, hs]
    exact hh
  rcases hphase with hd | ⟨hf, hheard, hflag⟩
  · refine .inl ⟨hsyn hd.state, ?_, ?_, ?_, ?_⟩
    · rw [hs]
      exact hd.una
    · rw [inFlight, finLen, hs]
      exact hd.flight
    · rw [hs, hq]
      exact hd.queued
    · rw [hs]
      exact hd.sent
  · refine .inr ⟨⟨?_, ?_, ?_, ?_⟩, hheard, ?_⟩
    · rw [hs]
      exact hf.len
    · rw [hs]
      exact hf.nxt
    · rw [hs]
      exact hf.pending
    · rw [hq]
      exact hf.queued
    · exact hflag.imp id fun hno => hc hno hf.queued

lemma Acking.inputData (h : Acking isn base heard i W flag w) (seg : Segment) :
  Acking isn base heard i W flag (w.inputData i seg)
  := by
  obtain ⟨nxt, reorder, sockets, mallocs, heq, -⟩ := receives_inputData (w := w) (i := i) seg
  have htcp : (w.inputData i seg).tcpSockets i
      = { w.tcpSockets i with rcvNxt := nxt, reorder := reorder } := by
    rw [heq]
    simp [receives]
  have hsent : (w.inputData i seg).sent = w.sent := by
    rw [heq]
    rfl
  constructor
  · rw [htcp]
    exact h.active
  · rw [htcp]
    exact h.queue.setState rfl id rfl fun hc _ => hc
  · rw [htcp, hsent]
    exact h.log

lemma Acking.inputFin (h : Acking isn base heard i W flag w) (seg : Segment) :
  Acking isn base heard i W flag (w.inputFin i seg flag)
  := by
  obtain ⟨nxt, fin, deadline, heq⟩ := inputFin_eq (w := w) (i := i) seg flag
  have hsend : ((w.inputFin i seg flag).tcpSockets i).toTcpSend = (w.tcpSockets i).toTcpSend := by
    rw [heq]
  have hstate : ((w.inputFin i seg flag).tcpSockets i).state
      = if finInOrder (w.tcpSockets i) seg then stateAfterFin flag (w.tcpSockets i).state
        else (w.tcpSockets i).state := by
    rw [heq]
  constructor
  · rw [heq]
    exact h.active
  · apply h.queue.setState hsend
    · intro hsyn
      rw [hstate]
      split
      · cases hst : (w.tcpSockets i).state <;> simp [stateAfterFin, hst] at hsyn ⊢
        split <;> decide
      · exact hsyn
    · rw [hstate]
      split
      · cases (w.tcpSockets i).state <;> simp only [stateAfterFin] <;> try rfl
        split <;> rfl
      · rfl
    · intro hc hq
      rw [hstate]
      split
      · cases hst : (w.tcpSockets i).state <;> simp [stateAfterFin, hst, canSend] at hc hq ⊢
      · exact hc
  · rw [hsend, sent_inputFin]
    exact h.log

/-- The acknowledgement of the FIN takes the connection where nothing is sent any more. -/
lemma queue_of_finAck (h : AckedQueue isn W heard true s) (hlast : s.state ≠ .lastAck)
    (deadline : BitVec 32) :
  Queue isn W heard { s with state := stateAfterFinAck s.state, deadlineMs := deadline }
  := by
  obtain ⟨acked, hh, hd | ⟨hf, hheard, -⟩⟩ := h
  · refine ⟨acked, hh, .inr (.inl ⟨?_, hd.una, hd.flight, ?_, hd.sent⟩)⟩
    · have := hd.state
      cases hst : s.state <;> simp_all [stateAfterFinAck]
    · have := hd.queued
      cases hst : s.state <;> simp_all [stateAfterFinAck, finQueued]
  · refine ⟨acked, hh, .inr (.inr ⟨⟨hf.len, hf.nxt, hf.pending, ?_⟩, hheard, ?_⟩)⟩
    · have := hf.queued
      cases hst : s.state <;> simp_all [stateAfterFinAck, finQueued]
    · have := hf.queued
      cases hst : s.state <;> simp_all [stateAfterFinAck, finQueued, canSend]

/-- The transition that the acknowledgement of the FIN causes, and the answer. -/
lemma Acking.answered (h : Acking isn base heard i W flag w) (need : Bool)
    (hlast : ¬ (flag ∧ (w.tcpSockets i).state = .lastAck)) :
  Sending isn base heard i W (w.answered i need flag)
    ∧ ((w.answered i need flag).tcpSockets i).active
  := by
  constructor
  · have hmoved : Sending isn base heard i W (if flag then w.inputFinAcked i else w) := by
      cases flag with
      | false =>
        refine ⟨fun _ => ?_, h.log⟩
        obtain ⟨acked, hh, hd | ⟨hf, hheard, hno⟩⟩ := h.queue
        · exact ⟨acked, hh, .inr (.inl hd)⟩
        · exact ⟨acked, hh, .inr (.inr ⟨hf, hheard, hno.resolve_left (by simp)⟩)⟩
      | true =>
        rw [if_pos rfl]
        obtain ⟨deadline, heq⟩ := inputFinAcked_eq (w := w) (i := i)
        refine ⟨fun _ => ?_, ?_⟩
        · rw [heq]
          exact queue_of_finAck h.queue (fun hst => hlast ⟨rfl, hst⟩) deadline
        · rw [heq, sent_inputFinAcked]
          exact h.log
    cases need with
    | false => exact hmoved
    | true => exact hmoved.xmit _ rfl
  · obtain ⟨deadline, adv, heq⟩ := tcpSockets_answered (w := w) (i := i) need flag
    rw [heq]
    exact h.active

/-- The end of a segment. -/
lemma Acking.inputFinish (h : Acking isn base heard i W flag w) (need : Bool) :
  Sending isn base heard i W (w.inputFinish i need flag)
  := by
  rw [inputFinish_eq]
  split
  · constructor
    · simp
    · simpa using h.log
  next hlast =>
    obtain ⟨hsend, hact⟩ := h.answered need hlast
    exact hsend.output hact

lemma notify (h : Sending isn base heard i W w) : Sending isn base heard i W (w.tcpNotify i)
  := by
  apply h.congr <;> simp

/-- Once the SYN is acknowledged, the stream starts right after the initial sequence number. -/
lemma queue_established (hq : Queue isn W heard s) (hsyn : s.state = .synSent) {wnd mss : ℕ} :
  Queue isn W heard { s with
    sndUna := s.sndNxt, sndWnd := wnd, peerMss := mss, state := .established }
  := by
  obtain ⟨acked, hh, hs | hd | ⟨hf, -⟩⟩ := hq
  · refine ⟨acked, hh, .inr (.inl ⟨by simp, ?_, ?_, ?_, ?_⟩)⟩
    · simp only [hs.nxt, hs.acked, length_nil]
    · simp [inFlight]
    · simp [hs.pending, finQueued]
    · simp [hs.sent]
  · exact absurd hsyn hd.state
  · have := hf.queued
    simp [hsyn, finQueued] at this

section

variable (h : Sending isn base heard i W w)

include h

lemma inputSynSent (hact : (w.tcpSockets i).active)
    (hsyn : (w.tcpSockets i).state = .synSent) (seg : Segment) :
  Sending isn base heard i W (w.inputSynSent i seg)
  := by
  rw [Net.inputSynSent]
  split
  · split
    · exact h.fail _
    · exact h
  split
  next hok =>
    simp only [Bool.and_eq_true, beq_iff_eq] at hok
    apply output
    · apply notify
      apply xmit _ _ rfl
      constructor
      · intro _
        rw [tcpSockets_modTcp]
        apply (queue_established (h.queue hact) hsyn).congr
        · rw [hok.2.2]
        · rfl
      · simpa using h.log
    · rw [tcpSockets_tcpNotify, tcpSendAck_id, tcpSockets_sends, tcpSockets_modTcp]
      exact hact
  · exact h

lemma inputRst (seg : Segment) :
  Sending isn base heard i W (w.inputRst i seg)
  := by
  rw [Net.inputRst]
  split
  · split
    · exact h.free
    · exact h.free
    · exact h.free
    · exact h.fail _
  · exact h

lemma input (hact : (w.tcpSockets i).active) (seg : Segment) :
  Sending isn base (heard ∨ seg.Acks (after isn (1 + W.length))) i W (w.tcpInput i seg)
  := by
  rw [tcpInput]
  split
  next hsyn => exact (h.inputSynSent hact hsyn seg).mono .inl
  next hsyn =>
    split
    · exact (h.inputRst seg).mono .inl
    · exact (((h.inputAck hact hsyn seg).inputData seg).inputFin seg).inputFinish _

lemma windowUpdate : Sending isn base heard i W (w.tcpWindowUpdate id i)
  := by
  rcases tcpWindowUpdate_cases (w := w) (i := i) id with heq | heq <;> rw [heq]
  · exact h
  · exact h.xmit _ rfl

end

end Sending

/-! ### Runs -/

/-- What happens to a connection: the application writes, reads, shuts down or closes, a
segment arrives, the retransmission timer fires, output is tried, time passes. -/
inductive Event where
  | write (data : List Byte)
  | read
  | shutdown
  | close
  | segment (seg : Segment)
  | timeout (nowMs : BitVec 32)
  | output
  | tick (t : BitVec 32)

/-- The effect of an event on connection `i`; only segments for it count, and the timer of
a released connection does not fire.  A transmission may poll the card. -/
def Event.step (poll : Net → Net) (i : ℕ) (w : Net) : Event → Net
  | .write data => (w.tcpWrite poll i data).2
  | .read => w.tcpWindowUpdate poll i
  | .shutdown => w.tcpShutdown poll i
  | .close => w.tcpClose poll i
  | .segment seg => if w.tcpLookup seg = some i then w.handleTcp seg else w
  | .timeout nowMs => if (w.tcpSockets i).active then w.tcpTimeout poll i nowMs else w
  | .output => if (w.tcpSockets i).active then w.tcpOutput poll i else w
  | .tick t => { w with tick := t }

/-- The bytes that an event adds to the stream. -/
def Event.accepted (poll : Net → Net) (i : ℕ) (w : Net) : Event → List Byte
  | .write data => data.take (w.tcpWrite poll i data).1
  | _ => []

/-- The state after a sequence of events. -/
def runEvents (poll : Net → Net) (i : ℕ) : Net → List Event → Net
  | w, [] => w
  | w, e :: es => runEvents poll i (e.step poll i w) es

/-- The stream that a sequence of events writes. -/
def written (poll : Net → Net) (i : ℕ) : Net → List Event → List Byte
  | _, [] => []
  | w, e :: es => e.accepted poll i w ++ written poll i (e.step poll i w) es

/-- The segments that an event brings to connection `i`. -/
def Event.received (i : ℕ) (w : Net) : Event → List Segment
  | .segment seg => if w.tcpLookup seg = some i then [seg] else []
  | _ => []

/-- The segments that a sequence of events brings to connection `i`. -/
def received (poll : Net → Net) (i : ℕ) : Net → List Event → List Segment
  | _, [] => []
  | w, e :: es => e.received i w ++ received poll i (e.step poll i w) es

lemma received_append : ∀ {w : Net} (es es' : List Event),
    received id i w (es ++ es') = received id i w es ++ received id i (runEvents id i w es) es'
  | _, [], _ => rfl
  | w, e :: es, es' => by
    rw [cons_append, received, received_append es es', received, runEvents, append_assoc]

/-- Some of the segments acknowledges the FIN behind the stream `W`. -/
def Heard (isn : BitVec 32) (W : List Byte) (segs : List Segment) : Prop :=
  ∃ seg ∈ segs, seg.Acks (after isn (1 + W.length))

variable {segs : List Segment} {w₀ : Net} {buf : ℕ → Byte} {ip : BitVec 32} {port : BitVec 16} {owner : ℕ}

lemma Heard.append_left {segs' : List Segment} (h : Heard isn W segs) :
  Heard isn W (segs ++ segs')
  := by
  obtain ⟨seg, hseg, hack⟩ := h
  exact ⟨seg, mem_append_left _ hseg, hack⟩

lemma Sending.step (h : Sending isn base (Heard isn W segs) i W w)
    (e : Event) :
  Sending isn base (Heard isn (W ++ e.accepted id i w) (segs ++ e.received i w)) i
    (W ++ e.accepted id i w) (e.step id i w)
  := by
  cases e with
  | write data =>
    refine (h.write data).mono fun ⟨hheard, hzero⟩ => ?_
    simp only [Event.accepted, hzero, take_zero, append_nil]
    exact hheard.append_left
  | read =>
    simp only [Event.accepted, Event.received, append_nil]
    exact h.windowUpdate
  | shutdown =>
    simp only [Event.accepted, Event.received, append_nil]
    exact h.shutdown
  | close =>
    simp only [Event.accepted, Event.received, append_nil]
    exact h.close
  | segment seg =>
    simp only [Event.accepted, Event.received, Event.step, append_nil]
    split
    next hl =>
      simp only [handleTcp, hl]
      refine (h.input (active_of_tcpLookup hl) seg).mono ?_
      rintro (hheard | hack)
      · exact hheard.append_left
      · exact ⟨seg, by simp, hack⟩
    · rw [append_nil]
      exact h
  | timeout nowMs =>
    simp only [Event.accepted, Event.received, Event.step, append_nil]
    split
    next hact => exact h.timeout hact nowMs
    · exact h
  | output =>
    simp only [Event.accepted, Event.received, Event.step, append_nil]
    split
    next hact => exact h.output hact
    · exact h
  | tick t =>
    simp only [Event.accepted, Event.received, append_nil]
    exact h.congr rfl rfl rfl rfl

lemma Sending.run : ∀ {es : List Event} {w : Net} {W : List Byte} {segs : List Segment},
    Sending isn base (Heard isn W segs) i W w →
    Sending isn base (Heard isn (W ++ written id i w es) (segs ++ received id i w es)) i
      (W ++ written id i w es) (runEvents id i w es)
  | [], w, W, segs, h => by
    rw [written, received, append_nil, append_nil]
    exact h
  | e :: es, w, W, segs, h => by
    rw [written, received, runEvents, ← append_assoc, ← append_assoc]
    exact (h.step e).run

/-! ### From the SYN on -/

/-- A connection whose SYN is on its way has sent nothing of its stream. -/
lemma sending_of_opened {lport : BitVec 16} {timer : TcpTimer} {adv : ℕ}
    (heq : w.tcpSockets i = { tcpOpened ip lport port isn buf owner with
      sndNxt := isn + 1, toTcpTimer := timer, lastAdvWnd := adv }) :
  Sending isn w.sent heard i [] w
  := by
  refine ⟨fun _ => ⟨[], ⟨buf, ?_, ?_, ?_⟩, .inl ⟨?_, ?_, ?_, rfl, ?_, ?_⟩⟩, [], by simp, by simp⟩
  all_goals
    rw [heq]
    try rfl
  simp [tcpOpened, tcpCleared]

/-- `tcp_connect` leaves a connection whose SYN is on its way. -/
lemma sending_of_tcpConnect (h : w₀.tcpConnect id buf ip port owner = (some i, w)) :
  Sending (w.tcpSockets i).sndUna w.sent heard i [] w
  := by
  obtain ⟨lport, isn, timer, adv, heq⟩ := tcpConnect_id h
  rw [show (w.tcpSockets i).sndUna = isn by rw [heq]; rfl]
  exact sending_of_opened heq

lemma sending_of_run {w₁ : Net} (h : w₀.tcpConnect id buf ip port owner = (some i, w₁)) (es : List Event) :
  Sending (w₁.tcpSockets i).sndUna w₁.sent
    (Heard (w₁.tcpSockets i).sndUna (written id i w₁ es) (received id i w₁ es)) i (written id i w₁ es)
    (runEvents id i w₁ es)
  := by
  rw [← nil_append (received id i w₁ es)]
  exact (sending_of_tcpConnect h).run

/-- A connection of socket `0` whose SYN is on its way. -/
def synOnWay : Net := (tcpConnect id (fun _ => 0) (boot (fun _ => true) []) 7 80 0).2

/-- The answer to the SYN, with a window of four bytes. -/
def synAck : Segment where
  srcIp := 7
  srcPort := 80
  destPort := (synOnWay.tcpSockets 0).localPort
  seq := 99
  ack := (synOnWay.tcpSockets 0).sndNxt
  flags := { syn := true, ack := true }
  windowSize := 4
  options := []
  payload := []
  short := Segment.short_nil

end Net
