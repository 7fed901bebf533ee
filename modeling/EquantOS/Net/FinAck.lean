import EquantOS.Net.SendStream

/-!
# The acknowledgement of the FIN

`tcp_process_ack` infers from `snd_una == snd_nxt` that the FIN has been acknowledged.
After a timeout `snd_nxt` starts again from `snd_una`, and a small window may keep it in
front of the FIN: an acknowledgement of all data is then taken for one of the FIN.  Apart
from that case only an acknowledgement of the FIN has this effect.
-/

open Serial

namespace Net

open Event BitVec Bool

variable {isn : BitVec 32} {base : List OutSegment} {i : ℕ} {W acked : List Byte} {w w' : Net}
  {s s' : TcpSocket} {heard : Prop}

/-- The states in which the acknowledgement of our FIN is awaited. -/
def awaitsFinAck : TcpState → Bool
  | .finWait1 | .closing | .lastAck => true
  | _ => false

/-- A segment that acknowledges all data while `snd_nxt`, set back by a timeout, has not
come past the FIN again. -/
def Rewound (s : TcpSocket) (seg : Segment) : Prop :=
  s.finSent ∧ seg.flags.ack ∧ 0 < s.txLen ∧ seg.ack = after s.sndUna s.txLen
    ∧ s.sndNxt ≠ after s.sndUna (s.txLen + 1)

/-- A segment other than a reset makes connection `i` leave the states in which it awaits
the acknowledgement of its FIN. -/
def Leaves (i : ℕ) (w : Net) (e : Event) : Prop :=
  (∃ seg, e = .segment seg ∧ seg.flags.rst = false)
    ∧ (w.tcpSockets i).active ∧ awaitsFinAck (w.tcpSockets i).state
    ∧ ¬ (((e.step id i w).tcpSockets i).active ∧ awaitsFinAck ((e.step id i w).tcpSockets i).state)

/-- An event stops the retransmission timer of connection `i` with its FIN queued. -/
def Stops (i : ℕ) (w : Net) (e : Event) : Prop :=
  (w.tcpSockets i).active ∧ (w.tcpSockets i).rtxArmed
    ∧ ((e.step id i w).tcpSockets i).rtxArmed = false ∧ ((e.step id i w).tcpSockets i).finPending

/-! ### Between events -/

/-- What holds between events: a FIN that was sent stays on its way once the queue is
empty, and in `FIN_WAIT_2` and `TIME_WAIT` the FIN has been sent. -/
structure Settled (s : TcpSocket) : Prop where
  resent : canSend s.state → s.finSent → s.txLen = 0 → inFlight s ≠ 0
  late : finQueued s.state → canSend s.state = false → s.finSent

lemma Settled.congr (h : Settled s) (hs : s'.toTcpSend = s.toTcpSend)
    (hst : s'.state = s.state) :
  Settled s'
  := by
  constructor
  · rw [inFlight, hs, hst]
    exact h.resent
  · rw [hs, hst]
    exact h.late

/-- `tcp_output` sends the FIN again as soon as it can. -/
lemma settled_output (hs : w.tcpSockets i = s) (hq : Queue isn W heard s)
    (hlate : finQueued s.state → canSend s.state = false → s.finSent) :
  Settled ((w.tcpOutput id i).tcpSockets i)
  := by
  subst hs
  by_cases hc : canSend (w.tcpSockets i).state
  · obtain ⟨acked, ⟨-, -, hlen, -⟩, hd⟩ := Sending.inData_of_canSend hq hc
    obtain ⟨nxt, fin, timer, adv, log, heq, -, -, hout⟩ := tcpOutput_id (w := w) (i := i)
    have hO := hout (by simp only [tcpTxBufSize] at hlen; omega) hd.flight
    rw [heq, tcpSockets_sends]
    constructor
    · intro _ hfin hzero
      have hpend : (w.tcpSockets i).finPending := (hO.finPending hfin).elim hd.sent id
      have := hO.flushed hc hpend
      simp only at hzero
      simp only [inFlight]
      omega
    · simp [hc]
  · rw [tcpOutput, if_neg hc]
    exact ⟨fun h => absurd h hc, hlate⟩

/-- The timer keeps running. -/
lemma armed_output (h : (w.tcpSockets i).rtxArmed) : ((w.tcpOutput id i).tcpSockets i).rtxArmed
  := by
  obtain ⟨nxt, fin, timer, adv, log, heq, -, harmed, -⟩ := tcpOutput_id (w := w) (i := i)
  rw [heq, tcpSockets_sends]
  rcases harmed with harmed | ⟨rfl, -⟩
  · exact harmed
  · exact h

/-- A FIN behind an empty queue goes out, and the timer starts. -/
lemma armed_of_fin (hs : w.tcpSockets i = s) (hq : Queue isn W heard s) (hc : canSend s.state)
    (hpend : s.finPending) (hlen : s.txLen = 0) (hnxt : s.sndNxt = s.sndUna) :
  ((w.tcpOutput id i).tcpSockets i).rtxArmed
  := by
  subst hs
  obtain ⟨acked, -, hd⟩ := Sending.inData_of_canSend hq hc
  obtain ⟨nxt, fin, timer, adv, log, heq, -, harmed, hout⟩ := tcpOutput_id (w := w) (i := i)
  rw [heq, tcpSockets_sends]
  rcases harmed with harmed | ⟨-, hsame⟩
  · exact harmed
  · have := (hout (by omega) hd.flight).flushed hc hpend
    rw [hsame, hnxt, sub_self] at this
    exact absurd hlen.symm this

/-! ### Events other than segments -/

section

variable (h : Sending isn base heard i W w) (hs : Settled (w.tcpSockets i))

include h hs

lemma settled_write (data : List Byte) :
  Settled ((w.tcpWrite id i data).2.tcpSockets i)
  := by
  rw [tcpWrite]
  cases hbuf : (w.tcpSockets i).txBuf with
  | none => exact hs
  | some buf =>
    simp only
    split
    · exact hs
    next hopen =>
      obtain ⟨hact, hpend⟩ := open_of_guard hopen
      set n := min data.length (tcpTxBufSize - (w.tcpSockets i).txLen) with hn
      have hlen : (data.take n).length = n := by
        rw [List.length_take]
        omega
      have hroom : (w.tcpSockets i).txLen + (data.take n).length ≤ tcpTxBufSize := by
        obtain ⟨-, ⟨-, -, hle, -⟩, -⟩ := h.queue hact
        omega
      have hq := Sending.queue_write (h.queue hact) hpend hbuf hroom heard
      rw [hlen] at hq
      exact settled_output (tcpSockets_modTcp ..) hq hs.late

lemma settled_shutdown :
  Settled ((w.tcpShutdown id i).tcpSockets i)
  := by
  rw [tcpShutdown]
  split
  · exact hs
  next hopen =>
    obtain ⟨hact, hpend⟩ := open_of_guard hopen
    split
    next hst =>
      have hfin : finQueued .finWait1 := rfl
      have hq := Sending.queue_fin (h.queue hact) hpend hfin (by decide) (by rw [hst]; decide)
      exact settled_output (tcpSockets_modTcp ..) hq (by simp [canSend])
    next hst =>
      have hfin : finQueued .lastAck := rfl
      have hq := Sending.queue_fin (h.queue hact) hpend hfin (by decide) (by rw [hst]; decide)
      exact settled_output (tcpSockets_modTcp ..) hq (by simp [canSend])
    · exact hs

lemma settled_close (hact : ((w.tcpClose id i).tcpSockets i).active) :
  Settled ((w.tcpClose id i).tcpSockets i)
  := by
  rw [tcpClose] at hact ⊢
  split at hact
  next hopen =>
    rw [if_pos hopen]
    simp only at hact ⊢
    split
    next hsyn =>
      rw [if_pos hsyn] at hact
      simp at hact
    · apply settled_shutdown (h.congr _ _ _ _) (hs.congr _ _) <;> simp
  next hno =>
    rw [if_neg hno]
    exact hs

lemma settled_timeout (hopen : (w.tcpSockets i).active) (now : BitVec 32)
    (hact : ((w.tcpTimeout id i now).tcpSockets i).active) :
  Settled ((w.tcpTimeout id i now).tcpSockets i)
  := by
  rw [tcpTimeout] at hact ⊢
  split
  next hsyn =>
    rw [if_pos hsyn] at hact
    split
    next hmax => simp [if_pos hmax] at hact
    · apply hs.congr <;> simp [timeoutRetry, tcpXmit_id]
  next hsyn =>
    rw [if_neg hsyn] at hact
    split
    next hp =>
      constructor
      · simp only [timeoutPersist, tcpXmit_id, tcpSockets_modTcp, tcpSockets_sends]
        omega
      · simp only [timeoutPersist, tcpXmit_id, tcpSockets_modTcp, tcpSockets_sends]
        exact hs.late
    next hp =>
      rw [if_neg hp] at hact
      split
      next hmax => simp [if_pos hmax] at hact
      · have hq := Sending.queue_rewind (h.queue hopen) hsyn
        have hback : (w.modTcp i fun s => { s with sndNxt := s.sndUna, rtxArmed := false }).tcpSockets i
            = { w.tcpSockets i with sndNxt := (w.tcpSockets i).sndUna, rtxArmed := false } :=
          tcpSockets_modTcp
        apply (settled_output hback hq hs.late).congr <;> simp [timeoutRetry]

end

variable {e : Event} {seg : Segment} {ack now : BitVec 32} {wnd : ℕ}

/-- Only segments stop the timer. -/
lemma armed_step (hno : ∀ seg, e ≠ .segment seg) (h : (w.tcpSockets i).rtxArmed) :
  ((e.step id i w).tcpSockets i).rtxArmed
  := by
  have hshut : ∀ v : Net, (v.tcpSockets i).rtxArmed →
      ((v.tcpShutdown id i).tcpSockets i).rtxArmed := by
    intro v hv
    rw [tcpShutdown]
    split
    · exact hv
    split
    · exact armed_output (by simpa using hv)
    · exact armed_output (by simpa using hv)
    · exact hv
  cases e with
  | write data =>
    simp only [step, tcpWrite]
    split
    · exact h
    · split
      · exact h
      · exact armed_output (by simpa using h)
  | read =>
    simp only [step]
    rcases tcpWindowUpdate_cases (w := w) (i := i) id with heq | heq <;> rw [heq]
    · exact h
    · rw [tcpSendAck_id, tcpSockets_sends]
      exact h
  | shutdown => exact hshut w h
  | close =>
    simp only [step, tcpClose]
    split
    · split
      · simpa using h
      · exact hshut _ (by simpa using h)
    · exact h
  | segment seg => exact absurd rfl (hno seg)
  | timeout now =>
    simp only [step]
    split
    · rw [tcpTimeout]
      split
      · split
        · simpa using h
        · simp [timeoutRetry]
      split
      · simpa [timeoutPersist, tcpXmit_id] using h
      · split
        · simpa [tcpXmit_id] using h
        · simp [timeoutRetry]
    · exact h
  | output =>
    simp only [step]
    split
    · exact armed_output h
    · exact h
  | tick t => exact h

/-! ### Segments -/

/-- An acknowledgement does not touch the flags of the FIN. -/
lemma ackOutcome_fin (now ack : BitVec 32) (wnd : ℕ) (s : TcpSocket) :
  (ackOutcome now ack wnd s).finSent = s.finSent
    ∧ (ackOutcome now ack wnd s).finPending = s.finPending
  := by
  rw [ackOutcome]
  split
  · exact ⟨rfl, rfl⟩
  · split <;> exact ⟨rfl, rfl⟩

lemma inputAck_fin (seg : Segment) :
  ((w.inputAck i seg).2.tcpSockets i).finSent = (w.tcpSockets i).finSent
    ∧ ((w.inputAck i seg).2.tcpSockets i).finPending = (w.tcpSockets i).finPending
  := by
  rw [tcpSockets_inputAck]
  split
  · exact ackOutcome_fin _ _ _ _
  · exact ⟨rfl, rfl⟩

/-- The FIN is taken for acknowledged only after it was sent. -/
lemma finSent_of_inputAck (h : (w.inputAck i seg).1) :
  (w.tcpSockets i).finSent ∧ seg.flags.ack
    ∧ finAcked (ackOutcome w.tcpNowMs seg.ack seg.windowSize.toNat (w.tcpSockets i))
  := by
  rw [inputAck] at h
  split at h
  next hack =>
    rw [tcpProcessAck_fst, tcpSockets_tcpProcessAck] at h
    refine ⟨?_, hack, h⟩
    simp only [finAcked, and_eq_true] at h
    rw [← (ackOutcome_fin w.tcpNowMs seg.ack seg.windowSize.toNat (w.tcpSockets i)).1]
    exact h.1.1
  · cases h

lemma acking_processed (h : Sending isn base heard i W w) (hact : (w.tcpSockets i).active)
    (hsyn : (w.tcpSockets i).state ≠ .synSent) (seg : Segment) :
  Sending.Acking isn base (heard ∨ seg.Acks (after isn (1 + W.length))) i W (w.inputAck i seg).1
    (w.processed i seg)
  := ((h.inputAck hact hsyn seg).inputData seg).inputFin seg

/-- Without an acknowledgement of our FIN a segment does not lead to the states behind it. -/
lemma late_stateAfterFin {st : TcpState} (hq : finQueued (stateAfterFin false st))
    (hc : canSend (stateAfterFin false st) = false) :
  finQueued st ∧ canSend st = false
  := by
  cases st <;> simp [stateAfterFin, finQueued, canSend] at hq hc ⊢

section

variable (h : Sending isn base heard i W w) (hs : Settled (w.tcpSockets i)) (hact : (w.tcpSockets i).active)

include h hs hact

lemma settled_inputSynSent (hsyn : (w.tcpSockets i).state = .synSent) (seg : Segment)
    (hact' : ((w.inputSynSent i seg).tcpSockets i).active) :
  Settled ((w.inputSynSent i seg).tcpSockets i)
  := by
  rw [inputSynSent] at hact' ⊢
  split
  next hrst =>
    rw [if_pos hrst] at hact'
    split
    next hack =>
      rw [if_pos hack] at hact'
      simp at hact'
    · exact hs
  · split
    next hok =>
      simp only [and_eq_true, beq_iff_eq] at hok
      refine settled_output rfl (?_ : Queue isn W heard _) ?_
      · rw [tcpSockets_tcpNotify, tcpSendAck_id, tcpSockets_sends, tcpSockets_modTcp]
        apply (Sending.queue_established (h.queue hact) hsyn).congr
        · rw [hok.2.2]
        · rfl
      · rw [tcpSockets_tcpNotify, tcpSendAck_id]
        simp [finQueued]
    · exact hs

lemma settled_input (seg : Segment)
    (hact' : ((w.tcpInput i seg).tcpSockets i).active) :
  Settled ((w.tcpInput i seg).tcpSockets i)
  := by
  by_cases hsyn : (w.tcpSockets i).state = .synSent
  · rw [tcpInput, if_pos hsyn] at hact' ⊢
    exact settled_inputSynSent h hs hact hsyn seg hact'
  cases hrst : seg.flags.rst with
  | true =>
    rw [tcpInput, if_neg hsyn, if_pos hrst, inputRst] at hact' ⊢
    split
    next hwin =>
      rw [if_pos hwin] at hact'
      split at hact' <;> simp at hact'
    · exact hs
  | false =>
    obtain ⟨need, heq⟩ := tcpInput_processed hsyn hrst
    rw [heq, inputFinish_eq] at hact' ⊢
    split
    next hlast => simp [if_pos hlast] at hact'
    next hlast =>
      obtain ⟨hsend, hactive⟩ := (acking_processed h hact hsyn seg).answered need hlast
      obtain ⟨deadline, adv, hans⟩ := tcpSockets_answered (w := w.processed i seg) (i := i) need
        (w.inputAck i seg).1
      obtain ⟨nxt, reorder, fin, deadline', accepted, hproc⟩ :=
        tcpSockets_processed (w := w) (i := i) seg
      apply settled_output rfl (hsend.queue hactive)
      rw [hans, hproc]
      simp only [(inputAck_fin seg).1]
      cases hb : (w.inputAck i seg).1 with
      | true => exact fun _ _ => (finSent_of_inputAck hb).1
      | false =>
        simp only [false_eq_true, if_false]
        split
        · intro hq hc
          obtain ⟨hq, hc⟩ := late_stateAfterFin hq hc
          exact hs.late hq hc
        · exact hs.late

end

/-- A connection that has been released stays so. -/
lemma active_of_step (h : ((e.step id i w).tcpSockets i).active) :
  (w.tcpSockets i).active
  := by
  cases hact : (w.tcpSockets i).active with
  | true => rfl
  | false =>
    rw [← h]
    cases e with
    | write data =>
      simp only [step, tcpWrite, hact]
      split <;> exact hact.symm
    | read =>
      simp only [step]
      rcases tcpWindowUpdate_cases (w := w) (i := i) id with heq | heq <;> rw [heq]
      · exact hact.symm
      · rw [tcpSendAck_id, tcpSockets_sends]
        exact hact.symm
    | shutdown => simp [step, tcpShutdown, hact]
    | close => simp [step, tcpClose, hact]
    | segment seg =>
      simp only [step]
      split
      next hl =>
        rw [active_of_tcpLookup hl] at hact
        cases hact
      · exact hact.symm
    | timeout now => simp [step, hact]
    | output => simp [step, hact]
    | tick t => exact hact.symm

lemma settled_step (h : Sending isn base heard i W w)
    (hs : (w.tcpSockets i).active → Settled (w.tcpSockets i))
    (hact' : ((e.step id i w).tcpSockets i).active) :
  Settled ((e.step id i w).tcpSockets i)
  := by
  have hact := active_of_step hact'
  replace hs := hs hact
  cases e with
  | write data => exact settled_write h hs data
  | read =>
    simp only [step]
    rcases tcpWindowUpdate_cases (w := w) (i := i) id with heq | heq <;> rw [heq]
    · exact hs
    · apply hs.congr <;> simp [tcpSendAck_id]
  | shutdown => exact settled_shutdown h hs
  | close => exact settled_close h hs hact'
  | segment seg =>
    simp only [step] at hact' ⊢
    split
    next hl =>
      simp only [handleTcp, hl] at hact' ⊢
      exact settled_input h hs hact seg hact'
    · exact hs
  | timeout now =>
    simp only [step, if_pos hact] at hact' ⊢
    exact settled_timeout h hs hact now hact'
  | output =>
    simp only [step, if_pos hact]
    exact settled_output rfl (h.queue hact) hs.late
  | tick t => exact hs

lemma settled_run {es : List Event} {segs : List Segment}
    (h : Sending isn base (Heard isn W segs) i W w)
    (hs : (w.tcpSockets i).active → Settled (w.tcpSockets i))
    (hact : ((runEvents id i w es).tcpSockets i).active) :
  Settled ((runEvents id i w es).tcpSockets i)
  := by
  induction es generalizing w W segs with
  | nil => exact hs hact
  | cons e es ih => exact ih (h.step e) (settled_step h hs) hact

/-! ### The effect of an acknowledgement -/

/-- `snd_una` catches up with `snd_nxt` and the queue is empty: the acknowledgement is one of
the FIN, or one of all data while `snd_nxt` is not past the FIN. -/
lemma caught_up (hh : Holds W acked s) (hd : InData isn acked s)
    (hnew : ackIsNew s ack) (hlen : (ackAdvance now ack wnd s).txLen = 0)
    (hnxt : ack = (ackAdvance now ack wnd s).sndNxt) :
  Gt ack (after isn (1 + W.length))
    ∨ 0 < s.txLen ∧ ack = after s.sndUna s.txLen ∧ s.sndNxt ≠ after s.sndUna (s.txLen + 1)
  := by
  have hbuf : s.txLen ≤ tcpTxBufSize := by
    obtain ⟨-, -, hle, -⟩ := hh
    exact hle
  obtain ⟨hpos, hmax⟩ := (Sending.ackIsNew_iff hbuf).mp hnew
  simp only [tcpTxBufSize] at hbuf
  have hmax' : (ack - s.sndUna).toNat ≤ s.txLen + 1 := by
    split at hmax <;> omega
  by_cases hlt : s.txLen < (ack - s.sndUna).toNat
  · exact .inl (Sending.gt_of_past_queue hh hd hlt (by omega))
  right
  simp only [ackAdvance] at hlen hnxt
  have hd' : (ack - s.sndUna).toNat = s.txLen := by omega
  refine ⟨by omega, ?_, ?_⟩
  · rw [← hd', after_sub_toNat]
  intro hpast
  have hflight : inFlight s = s.txLen + 1 := by
    rw [inFlight, hpast, toNat_after_sub]
    omega
  rw [Sending.nxt_after_ack ack (by omega) (by omega)] at hnxt
  have := congrArg (fun x => (x - s.sndUna).toNat) hnxt
  simp only [toNat_after_sub] at this
  omega

/-- The FIN is taken for acknowledged. -/
lemma gt_of_finAcked (hh : Holds W acked s) (hd : InData isn acked s)
    (hres : s.finSent → s.txLen = 0 → inFlight s ≠ 0)
    (h : finAcked (ackOutcome now ack wnd s)) :
  Gt ack (after isn (1 + W.length))
    ∨ 0 < s.txLen ∧ ack = after s.sndUna s.txLen ∧ s.sndNxt ≠ after s.sndUna (s.txLen + 1)
  := by
  rw [ackOutcome] at h
  split at h
  next hnew =>
    simp only [finAcked, and_eq_true, beq_iff_eq] at h
    exact caught_up hh hd hnew h.1.2 h.2
  · have hkeep : ∀ s' : TcpSocket, s'.toTcpSend.finSent = s.finSent → s'.txLen = s.txLen →
        s'.sndUna = s.sndUna → s'.sndNxt = s.sndNxt → finAcked s' → False := by
      intro s' hsent hlen huna hnxt hf
      simp only [finAcked, and_eq_true, beq_iff_eq, hsent, hlen, huna, hnxt] at hf
      apply hres hf.1.1 hf.1.2
      rw [inFlight, ← hf.2, BitVec.sub_self, BitVec.toNat_zero]
    split at h
    · exact (hkeep _ rfl rfl rfl rfl h).elim
    · exact (hkeep _ rfl rfl rfl rfl h).elim

/-- An acknowledgement stops the timer only if it leaves nothing on its way. -/
lemma stopped_by_ack (harmed : s.rtxArmed) (hstop : (ackOutcome now ack wnd s).rtxArmed = false) :
  ackIsNew s ack ∧ ackOutcome now ack wnd s = ackAdvance now ack wnd s
    ∧ (ackAdvance now ack wnd s).txLen = 0 ∧ ack = (ackAdvance now ack wnd s).sndNxt
  := by
  rw [ackOutcome] at hstop ⊢
  split at hstop
  next hnew =>
    rw [if_pos hnew]
    refine ⟨hnew, rfl, ?_⟩
    simp only [ackAdvance, not_eq_false', and_eq_true, beq_iff_eq] at hstop ⊢
    exact ⟨hstop.2, hstop.1⟩
  · split at hstop
    · cases harmed.symm.trans hstop
    · cases harmed.symm.trans hstop

lemma canSend_of_awaits {st : TcpState} (h : awaitsFinAck st) :
  canSend st ∧ st ≠ .synSent ∧ ∀ accepted, awaitsFinAck
    (if accepted = true then stateAfterFin false st else st)
  := by
  cases st <;> simp [awaitsFinAck, canSend, stateAfterFin] at h ⊢

/-- Leaving the states in which the acknowledgement of the FIN is awaited. -/
lemma acks_of_leaves (h : Sending isn base heard i W w) (hs : Settled (w.tcpSockets i))
    (hact : (w.tcpSockets i).active) (hrst : seg.flags.rst = false)
    (hne : ¬ Rewound (w.tcpSockets i) seg) (hst : awaitsFinAck (w.tcpSockets i).state)
    (hleave : ¬ (((w.tcpInput i seg).tcpSockets i).active
      ∧ awaitsFinAck ((w.tcpInput i seg).tcpSockets i).state)) :
  seg.Acks (after isn (1 + W.length))
  := by
  obtain ⟨hc, hsyn, hawait⟩ := canSend_of_awaits hst
  cases hb : (w.inputAck i seg).1 with
  | true =>
    obtain ⟨hsent, hack, hfin⟩ := finSent_of_inputAck hb
    obtain ⟨acked, hh, hd⟩ := Sending.inData_of_canSend (h.queue hact) hc
    rcases gt_of_finAcked hh hd (hs.resent hc) hfin with hgt | ⟨hpos, heq, hnxt⟩
    · exact ⟨hack, hgt⟩
    · exact absurd ⟨hsent, hack, hpos, heq, hnxt⟩ hne
  | false =>
    exfalso
    apply hleave
    obtain ⟨need, heq⟩ := tcpInput_processed hsyn hrst
    obtain ⟨deadline, adv, hans⟩ := tcpSockets_answered (w := w.processed i seg) (i := i) need false
    obtain ⟨nxt, reorder, fin, deadline', accepted, hproc⟩ :=
      tcpSockets_processed (w := w) (i := i) seg
    obtain ⟨snd, timer, hack⟩ := inputAck_eq (w := w) (i := i) seg
    obtain ⟨nxt', fin', timer', adv', log, hout, -⟩ := tcpOutput_id (i := i)
      (w := (w.processed i seg).answered i need false)
    rw [heq, hb, inputFinish_eq, if_neg (by simp), hout, tcpSockets_sends, hans, hproc, hack, hb]
    exact ⟨hact, hawait accepted⟩

/-- A segment does not queue the FIN. -/
lemma finPending_tcpInput (seg : Segment) :
  ((w.tcpInput i seg).tcpSockets i).finPending = (w.tcpSockets i).finPending
  := by
  have hout : ∀ v : Net, ((v.tcpOutput id i).tcpSockets i).finPending
      = (v.tcpSockets i).finPending := by
    intro v
    obtain ⟨nxt, fin, timer, adv, log, heq, -⟩ := tcpOutput_id (w := v) (i := i)
    rw [heq, tcpSockets_sends]
  by_cases hsyn : (w.tcpSockets i).state = .synSent
  · rw [tcpInput, if_pos hsyn, inputSynSent]
    split
    · split
      · simp
      · rfl
    · split
      · rw [hout, tcpSockets_tcpNotify, tcpSendAck_id, tcpSockets_sends, tcpSockets_modTcp]
      · rfl
  cases hrst : seg.flags.rst with
  | true =>
    rw [tcpInput, if_neg hsyn, if_pos hrst, inputRst]
    split
    · split <;> simp
    · rfl
  | false =>
    obtain ⟨need, heq⟩ := tcpInput_processed hsyn hrst
    obtain ⟨nxt, reorder, fin, deadline, accepted, hproc⟩ :=
      tcpSockets_processed (w := w) (i := i) seg
    rw [heq, inputFinish_eq]
    split
    · rw [tcpSockets_tcpFree, hproc]
      exact (inputAck_fin seg).2
    obtain ⟨deadline', adv, hans⟩ := tcpSockets_answered (w := w.processed i seg) (i := i) need
      (w.inputAck i seg).1
    rw [hout, hans, hproc]
    exact (inputAck_fin seg).2

/-- The timer runs on if the acknowledgement of a segment has not stopped it. -/
lemma armed_inputFinish (need flag : Bool) (h : (w.tcpSockets i).rtxArmed) :
  ((w.inputFinish i need flag).tcpSockets i).rtxArmed
  := by
  rw [inputFinish_eq]
  split
  · rw [tcpSockets_tcpFree]
    exact h
  obtain ⟨deadline, adv, hans⟩ := tcpSockets_answered (w := w) (i := i) need flag
  apply armed_output
  rw [hans]
  exact h

section

variable (h : Sending isn base heard i W w) (hs : Settled (w.tcpSockets i)) (hact : (w.tcpSockets i).active)

include h hs hact

/-- A FIN that was queued and not sent goes out at the end of the segment that acknowledges
all data before it. -/
lemma armed_of_unsent (hsyn : (w.tcpSockets i).state ≠ .synSent)
    (hrst : seg.flags.rst = false) (hq : finQueued (w.tcpSockets i).state)
    (hpend : (w.tcpSockets i).finPending) (hsent : (w.tcpSockets i).finSent = false)
    (hlen : ((w.inputAck i seg).2.tcpSockets i).txLen = 0)
    (hnxt : ((w.inputAck i seg).2.tcpSockets i).sndNxt
      = ((w.inputAck i seg).2.tcpSockets i).sndUna) :
  ((w.tcpInput i seg).tcpSockets i).rtxArmed
  := by
  have hawait : awaitsFinAck (w.tcpSockets i).state := by
    have hlate := hs.late hq
    rw [hsent] at hlate
    cases hst : (w.tcpSockets i).state <;> simp_all [awaitsFinAck, finQueued, canSend]
  have hb : (w.inputAck i seg).1 = false := by
    by_contra hb
    have := (finSent_of_inputAck (eq_true_of_not_eq_false hb)).1
    rw [hsent] at this
    cases this
  obtain ⟨need, heq⟩ := tcpInput_processed hsyn hrst
  have hA := acking_processed h hact hsyn seg
  rw [hb] at heq hA
  obtain ⟨hsend, hactive⟩ := hA.answered need (by simp)
  obtain ⟨nxt, reorder, fin, deadline, accepted, hproc⟩ :=
    tcpSockets_processed (w := w) (i := i) seg
  obtain ⟨deadline', adv, hans⟩ := tcpSockets_answered (w := w.processed i seg) (i := i) need false
  rw [heq, inputFinish_eq]
  have hq' := hsend.queue hactive
  rw [hans, hproc, hb] at hq'
  apply armed_of_fin (hans.trans (by rw [hproc, hb])) hq'
  · exact (canSend_of_awaits ((canSend_of_awaits hawait).2.2 accepted)).1
  · exact (inputAck_fin seg).2.trans hpend
  · exact hlen
  · exact hnxt

/-- Stopping the timer with the FIN queued. -/
lemma acks_of_stops (hne : ¬ Rewound (w.tcpSockets i) seg)
    (harmed : (w.tcpSockets i).rtxArmed)
    (hstop : ((w.tcpInput i seg).tcpSockets i).rtxArmed = false)
    (hpend : ((w.tcpInput i seg).tcpSockets i).finPending) :
  heard ∨ seg.Acks (after isn (1 + W.length))
  := by
  rw [finPending_tcpInput] at hpend
  obtain ⟨acked, hh, hphase⟩ := h.queue hact
  have hsyn : (w.tcpSockets i).state ≠ .synSent := by
    intro hst
    rcases hphase with hsyn | hd | ⟨hf, -⟩
    · rw [hsyn.pending] at hpend
      cases hpend
    · exact hd.state hst
    · have := hf.queued
      simp [hst, finQueued] at this
  cases hrst : seg.flags.rst with
  | true =>
    rw [tcpInput, if_neg hsyn, if_pos hrst, inputRst] at hstop
    split at hstop
    · split at hstop <;> simp [harmed] at hstop
    · cases harmed.symm.trans hstop
  | false =>
    cases harm : ((w.inputAck i seg).2.tcpSockets i).rtxArmed with
    | true =>
      obtain ⟨need, heq⟩ := tcpInput_processed hsyn hrst
      obtain ⟨nxt, reorder, fin, deadline, accepted, hproc⟩ :=
        tcpSockets_processed (w := w) (i := i) seg
      have := armed_inputFinish (w := w.processed i seg) (i := i) need (w.inputAck i seg).1
        (by rw [hproc]; exact harm)
      rw [← heq, hstop] at this
      cases this
    | false =>
      have htcp := tcpSockets_inputAck (w := w) (i := i) seg
      split at htcp
      next hack =>
        rw [htcp] at harm
        obtain ⟨hnew, hadv, hlen, hnxt⟩ := stopped_by_ack harmed harm
        rcases hphase with hs' | hd | ⟨-, hheard, -⟩
        · exact absurd hs'.state hsyn
        · rcases caught_up hh hd hnew hlen hnxt with hgt | ⟨hpos, heq, hback⟩
          · exact .inr ⟨hack, hgt⟩
          cases hsent : (w.tcpSockets i).finSent with
          | true => exact absurd ⟨hsent, hack, hpos, heq, hback⟩ hne
          | false =>
            have := armed_of_unsent h hs hact hsyn hrst (hd.queued ▸ hpend) hpend hsent
              (by rw [htcp, hadv]; exact hlen) (by rw [htcp, hadv]; exact hnxt.symm)
            rw [hstop] at this
            cases this
        · exact .inl hheard
      · rw [htcp] at harm
        cases harmed.symm.trans harm

end

/-- Only a segment for the connection has these effects. -/
lemma segment_of_taken (h : Leaves i w e ∨ Stops i w e) :
  ∃ seg, e = .segment seg ∧ w.tcpLookup seg = some i
  := by
  have hseg : ∃ seg, e = .segment seg := by
    rcases h with ⟨⟨seg, heq, -⟩, -⟩ | ⟨-, harmed, hstop, -⟩
    · exact ⟨seg, heq⟩
    · by_contra hno
      rw [armed_step (fun seg heq => hno ⟨seg, heq⟩) harmed] at hstop
      cases hstop
  obtain ⟨seg, rfl⟩ := hseg
  refine ⟨seg, rfl, ?_⟩
  by_contra hl
  have hsame : (segment seg).step id i w = w := if_neg hl
  rcases h with ⟨-, hact, hst, hleave⟩ | ⟨-, harmed, hstop, -⟩
  · rw [hsame] at hleave
    exact hleave ⟨hact, hst⟩
  · rw [hsame, harmed] at hstop
    cases hstop

/-- A connection whose SYN is on its way is settled. -/
lemma settled_of_tcpConnect {w₀ : Net} {buf : ℕ → Byte} {ip : BitVec 32} {port : BitVec 16}
    {owner : ℕ} (h : w₀.tcpConnect id buf ip port owner = (some i, w)) :
  Settled (w.tcpSockets i)
  := by
  obtain ⟨lport, isn, timer, adv, heq⟩ := tcpConnect_id h
  rw [heq]
  constructor <;> simp [tcpOpened, canSend, finQueued]

/-- For every sequence of events on a connection: it leaves `FIN_WAIT_1`, `CLOSING` or
`LAST_ACK` because of an acknowledgement, or stops its timer with the FIN queued, only if
some segment received has acknowledged the FIN; unless the segment acknowledges all data
while `snd_nxt` is set back.  No segment is handled inside a transmission, that of the SYN
included: the address of the next hop is known. -/
theorem fin_acked_only_by_ack {w₀ w₁ : Net} {buf : ℕ → Byte} {ip : BitVec 32} {port : BitVec 16}
    {owner : ℕ} {isn : BitVec 32} (hconn : w₀.tcpConnect id buf ip port owner = (some i, w₁))
    (hisn : (w₁.tcpSockets i).sndUna = isn) (es : List Event) (e : Event)
    (hmeets : ∀ seg, e = .segment seg → ¬ Rewound ((runEvents id i w₁ es).tcpSockets i) seg)
    (htaken : Leaves i (runEvents id i w₁ es) e ∨ Stops i (runEvents id i w₁ es) e) :
  ∃ seg ∈ received id i w₁ (es ++ [e]), seg.flags.ack
    ∧ Gt seg.ack (isn + 1 + BitVec.ofNat 32 (written id i w₁ es).length)
  := by
  have hstart : Sending isn w₁.sent (Heard isn [] []) i [] w₁ := by
    rw [← hisn]
    exact sending_of_tcpConnect hconn
  have h := sending_of_run hconn es
  rw [hisn] at h
  have hact : ((runEvents id i w₁ es).tcpSockets i).active := htaken.elim (·.2.1) (·.1)
  have hs := settled_run hstart (fun _ => settled_of_tcpConnect hconn) hact
  obtain ⟨seg, rfl, hl⟩ := segment_of_taken htaken
  have hstep : (Event.segment seg).step id i (runEvents id i w₁ es)
      = (runEvents id i w₁ es).tcpInput i seg := by
    simp only [Event.step, handleTcp, hl, if_true]
  have hne := hmeets seg rfl
  rw [received_append]
  simp only [received, Event.received, if_pos hl, List.append_nil]
  have hheard : Heard isn (written id i w₁ es) (received id i w₁ es ++ [seg]) := by
    rcases htaken with ⟨⟨seg', heq, hrst⟩, -, hst, hleave⟩ | ⟨-, harmed, hstop, hpend⟩
    · obtain rfl := Event.segment.inj heq
      rw [hstep] at hleave
      exact ⟨seg, by simp, acks_of_leaves h hs hact hrst hne hst hleave⟩
    rw [hstep] at hstop hpend
    rcases acks_of_stops h hs hact hne harmed hstop hpend with hheard | hack
    · exact hheard.append_left
    · exact ⟨seg, by simp, hack⟩
  obtain ⟨seg', hmem, hack, hgt⟩ := hheard
  refine ⟨seg', hmem, hack, ?_⟩
  rw [← after_after] at hgt
  exact hgt

/-- The acknowledgement of the first `n` bytes of the stream, with a window. -/
def ackOf (n : ℕ) (wnd : BitVec 16) : Segment where
  srcIp := 7
  srcPort := 80
  destPort := (synOnWay.tcpSockets 0).localPort
  seq := 100
  ack := after (synOnWay.tcpSockets 0).sndNxt n
  flags := { ack := true }
  windowSize := wnd
  options := []
  payload := []
  short := Segment.short_nil

/-- Six bytes and the FIN are sent and acknowledged. -/
theorem fin_acked_only_by_ack_six :
  ∃ es e, e = .segment (ackOf 7 100)
    ∧ Leaves 0 (runEvents id 0 synOnWay es) e
    ∧ ∃ seg ∈ received id 0 synOnWay (es ++ [e]), seg.flags.ack
      ∧ Gt seg.ack ((synOnWay.tcpSockets 0).sndUna + 1
        + BitVec.ofNat 32 (written id 0 synOnWay es).length)
  := by
  have hleaves : Leaves 0 (runEvents id 0 synOnWay [.segment synAck, .write [1, 2, 3, 4, 5, 6],
      .segment (ackOf 0 100), .shutdown]) (.segment (ackOf 7 100)) :=
    ⟨⟨_, rfl, rfl⟩, rfl, rfl, by decide⟩
  refine ⟨_, _, rfl, hleaves, ?_⟩
  refine @fin_acked_only_by_ack 0 (boot (fun _ => true) []) synOnWay (fun _ => 0) 7 80 0 _
    rfl rfl _ _ ?_ (.inl hleaves)
  intro seg heq
  obtain rfl := segment.inj heq
  rintro ⟨-, -, -, hack, -⟩
  revert hack
  decide

/-- The FIN is lost, the window shrinks and the timer fires: `snd_nxt` stays in front of the
FIN.  The acknowledgement of the six bytes then takes the connection to `FIN_WAIT_2` and
stops the timer. -/
theorem fin_taken_for_acked :
  ∃ es e, Leaves 0 (runEvents id 0 synOnWay es) e ∧ Stops 0 (runEvents id 0 synOnWay es) e
    ∧ ((e.step id 0 (runEvents id 0 synOnWay es)).tcpSockets 0).state = .finWait2
    ∧ ∀ seg ∈ received id 0 synOnWay (es ++ [e]),
      ¬ (seg.flags.ack ∧ Gt seg.ack ((synOnWay.tcpSockets 0).sndUna + 1
        + BitVec.ofNat 32 (written id 0 synOnWay es).length))
  := by
  refine ⟨[.segment synAck, .write [1, 2, 3, 4, 5, 6], .segment (ackOf 0 100), .shutdown,
    .segment (ackOf 0 4), .timeout 1000], .segment (ackOf 6 4), ?_, ?_, rfl, ?_⟩
  · exact ⟨⟨_, rfl, rfl⟩, rfl, rfl, by decide⟩
  · exact ⟨rfl, rfl, rfl, rfl⟩
  · decide

end Net
