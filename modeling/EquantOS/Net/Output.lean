import EquantOS.Net.Tcp

/-!
# What a transmission changes

Outside a poll of the card every transmission of a connection is `sends`: it moves
`snd_nxt`, may mark the FIN as sent, touches the timer and the advertised window, and
appends segments to those sent.  Each function that transmits has one lemma that brings
it into this form and says which segments it sends.
-/

open Serial

namespace Net

/-- The outcome of transmissions of connection `i`. -/
def sends (w : Net) (i : ℕ) (nxt : BitVec 32) (fin : Bool) (timer : TcpTimer) (adv : ℕ)
    (log : List OutSegment) : Net :=
  { w.modTcp i fun s => { s with
      sndNxt := nxt, finSent := fin, toTcpTimer := timer, lastAdvWnd := adv } with
    sent := w.sent ++ log }

section
variable {w : Net} {i : ℕ} {s : TcpSocket} {seg : OutSegment} {nxt nxt' : BitVec 32} {fin fin' : Bool}
  {timer timer' : TcpTimer}
  {adv adv' : ℕ} {log log' : List OutSegment}

@[simp]
lemma tcpSockets_sends :
  (w.sends i nxt fin timer adv log).tcpSockets i = { w.tcpSockets i with
    sndNxt := nxt, finSent := fin, toTcpTimer := timer, lastAdvWnd := adv }
  := by
  simp [sends]

@[simp]
lemma sent_sends : (w.sends i nxt fin timer adv log).sent = w.sent ++ log := rfl

@[simp]
lemma sockets_sends : (w.sends i nxt fin timer adv log).sockets = w.sockets := rfl

/-- Transmissions one after the other. -/
@[simp]
lemma sends_sends :
  (w.sends i nxt fin timer adv log).sends i nxt' fin' timer' adv' log'
    = w.sends i nxt' fin' timer' adv' (log ++ log')
  := by
  simp [sends, modTcp]

/-- Nothing was sent. -/
lemma sends_self :
  w.sends i (w.tcpSockets i).sndNxt (w.tcpSockets i).finSent (w.tcpSockets i).toTcpTimer
    (w.tcpSockets i).lastAdvWnd [] = w
  := by
  simp [sends, modTcp]

end

/-! ### One segment -/

/-- The window that `tcp_rcv_window` advertises. -/
def advertised (w : Net) (i : ℕ) : ℕ :=
  min (if (w.tcpSockets i).rxSpace then w.sockTcpRxSpace i else 65535) 65535

@[simp]
lemma advertised_sends
    {w : Net} {i : ℕ} {nxt : BitVec 32} {fin : Bool} {timer : TcpTimer} {adv : ℕ}
    {log : List OutSegment} :
  (w.sends i nxt fin timer adv log).advertised i = w.advertised i
  := by
  simp [advertised, sockTcpRxSpace]

/-- The segment that connection `i` sends, as long as there is an interface. -/
def segments (w : Net) (i : ℕ) (seq : BitVec 32) (flags : TcpFlags) (off len : ℕ) :
    List OutSegment :=
  match w.iface with
  | some iface => [buildSegment (w.tcpSockets i) iface (w.advertised i) seq flags off len]
  | none => []

lemma mem_segments
    {w : Net} {i : ℕ} {seq : BitVec 32} {flags : TcpFlags} {off len : ℕ}
    (h : seg ∈ w.segments i seq flags off len) :
  seg.seq = seq ∧ seg.flags = flags
    ∧ seg.payload = Ring.window ((w.tcpSockets i).txBuf.getD fun _ => 0) tcpTxBufSize
        ((w.tcpSockets i).txHead + off) (min len tcpMaxSegPayload)
    ∧ seg.ack = (if flags.ack then (w.tcpSockets i).rcvNxt else 0)
    ∧ seg.windowSize = BitVec.ofNat 16 (w.advertised i)
  := by
  rw [segments] at h
  cases hi : w.iface with
  | none => simp [hi] at h
  | some iface =>
    simp only [hi, List.mem_singleton] at h
    subst h
    exact ⟨rfl, rfl, rfl, rfl, rfl⟩

/-- The advertised window after a transmission. -/
def nextAdv (w : Net) (i : ℕ) : ℕ :=
  if w.iface.isSome then w.advertised i else (w.tcpSockets i).lastAdvWnd

lemma arpWait_id (target : BitVec 32) : ∀ (n : ℕ) (w : Net), arpWait id target n w = w
  | 0, _ => rfl
  | n + 1, w => by
    rw [arpWait]
    split
    · rfl
    · apply arpWait_id

lemma ipv4SendPacket_id (w : Net) (iface : NetInterface) (destIp : BitVec 32) :
  w.ipv4SendPacket id iface destIp = w
  := by
  rw [ipv4SendPacket, arpWait_id, ite_self]

variable {w : Net} {i : ℕ}

lemma tcpXmit_id (seq : BitVec 32) (flags : TcpFlags) (off len : ℕ) :
  w.tcpXmit id i seq flags off len
    = w.sends i (w.tcpSockets i).sndNxt (w.tcpSockets i).finSent (w.tcpSockets i).toTcpTimer
        (w.nextAdv i) (w.segments i seq flags off len)
  := by
  cases h : w.iface with
  | none =>
    have hseg : w.segments i seq flags off len = [] := by simp [segments, h]
    have hadv : w.nextAdv i = (w.tcpSockets i).lastAdvWnd := by simp [nextAdv, h]
    rw [hseg, hadv, sends_self]
    simp only [tcpXmit, h]
  | some iface =>
    simp only [tcpXmit, h, ipv4SendPacket_id, segments, nextAdv]
    rfl

lemma tcpSendAck_id :
  w.tcpSendAck id i
    = w.sends i (w.tcpSockets i).sndNxt (w.tcpSockets i).finSent (w.tcpSockets i).toTcpTimer
        (w.nextAdv i) (w.segments i (w.tcpSockets i).sndNxt { ack := true } 0 0)
  := tcpXmit_id ..

section
variable {nxt : BitVec 32} {fin : Bool} {timer : TcpTimer} {adv : ℕ} {log : List OutSegment}

/-- Arming the timer. -/
lemma tcpArmRtx_sends :
  ∃ timer', timer'.rtxArmed
    ∧ (w.sends i nxt fin timer adv log).tcpArmRtx i = w.sends i nxt fin timer' adv log
  := by
  use ⟨timer.rtoMs, w.tcpNowMs + BitVec.ofNat 32 timer.rtoMs, true, timer.retries⟩
  simp [tcpArmRtx, modTcp, sends, tcpNowMs]

lemma tcpEnsureRtx_sends :
  ∃ timer', timer'.rtxArmed
    ∧ (w.sends i nxt fin timer adv log).tcpEnsureRtx i = w.sends i nxt fin timer' adv log
  := by
  rw [tcpEnsureRtx]
  split
  next h => exact ⟨timer, by simpa using h, rfl⟩
  · exact tcpArmRtx_sends

/-- Moving `snd_nxt`. -/
lemma addNxt_sends (c : BitVec 32) :
  ((w.sends i nxt fin timer adv log).modTcp i fun s => { s with sndNxt := s.sndNxt + c })
    = w.sends i (nxt + c) fin timer adv log
  := by
  simp [sends, modTcp]

/-- Marking the FIN as sent. -/
lemma setFin_sends (c : BitVec 32) :
  ((w.sends i nxt fin timer adv log).modTcp i fun s => { s with sndNxt := c, finSent := true })
    = w.sends i c true timer adv log
  := by
  simp [sends, modTcp]

end

/-! ### The queue -/

/-- The room that a queued FIN takes. -/
def finLen (s : TcpSocket) : ℕ := if s.finPending then 1 else 0

/-- The segments that `tcp_output` sends: pieces of the queue at their sequence numbers, and
the FIN behind the queue. -/
def Emitted (w : Net) (i : ℕ) (seg : OutSegment) : Prop :=
  (∃ off len psh, off + len ≤ (w.tcpSockets i).txLen
    ∧ seg ∈ w.segments i (after (w.tcpSockets i).sndUna off) { ack := true, psh := psh } off len)
  ∨ (w.tcpSockets i).finPending ∧ seg ∈ w.segments i
      (after (w.tcpSockets i).sndUna (w.tcpSockets i).txLen) { fin := true, ack := true } 0 0

section
variable {nxt : BitVec 32} {fin : Bool} {timer : TcpTimer} {adv : ℕ} {log : List OutSegment}

@[simp]
lemma segments_sends (seq : BitVec 32) (flags : TcpFlags) (off len : ℕ) :
  (w.sends i nxt fin timer adv log).segments i seq flags off len = w.segments i seq flags off len
  := by
  simp only [segments, advertised_sends, tcpSockets_sends]
  rfl

@[simp]
lemma emitted_sends :
  (w.sends i nxt fin timer adv log).Emitted i seg ↔ w.Emitted i seg
  := by
  simp only [Emitted, segments_sends, tcpSockets_sends]

end

/-- A round of the loop sends one piece of the queue. -/
lemma outputRound_id (mss : ℕ) :
  ∃ timer adv psh, timer.rtxArmed ∧ w.outputRound id i mss
    = w.sends i (after (w.tcpSockets i).sndNxt (outputSize (w.tcpSockets i) mss))
        (w.tcpSockets i).finSent timer adv
        (w.segments i (w.tcpSockets i).sndNxt { ack := true, psh := psh }
          (inFlight (w.tcpSockets i)) (outputSize (w.tcpSockets i) mss))
  := by
  rw [outputRound, tcpXmit_id, addNxt_sends]
  obtain ⟨timer, harmed, ht⟩ := tcpEnsureRtx_sends (w := w) (i := i)
  exact ⟨timer, _, _, harmed, ht⟩

/-- A piece of the queue that a round sends is emitted. -/
lemma emitted_round {mss : ℕ} {psh : Bool}
    (hlen : inFlight (w.tcpSockets i) < (w.tcpSockets i).txLen)
    (h : seg ∈ w.segments i (w.tcpSockets i).sndNxt { ack := true, psh := psh }
      (inFlight (w.tcpSockets i)) (outputSize (w.tcpSockets i) mss)) :
  w.Emitted i seg
  := by
  refine .inl ⟨inFlight (w.tcpSockets i), outputSize (w.tcpSockets i) mss, psh, ?_, ?_⟩
  · rw [outputSize]
    omega
  · rw [inFlight, after_sub_toNat]
    exact h

/-- Sending `n` more brings that many more on their way, as long as they are queued. -/
lemma inFlight_after {n : ℕ} (h : inFlight s + n < 2 ^ 32) :
  (after s.sndNxt n - s.sndUna).toNat = inFlight s + n
  := by
  conv_lhs => rw [← after_sub_toNat s.sndUna s.sndNxt, after_after, toNat_after_sub]
  exact Nat.mod_eq_of_lt h

/-- How far `tcp_output` gets: not behind the old `snd_nxt`, not past the queue. -/
structure Progress (s : TcpSocket) (nxt : BitVec 32) : Prop where
  ge : inFlight s ≤ (nxt - s.sndUna).toNat
  le : nxt = s.sndNxt ∨ (nxt - s.sndUna).toNat ≤ s.txLen

/-- The timer runs as soon as anything is sent. -/
def Armed (s : TcpSocket) (nxt : BitVec 32) (timer : TcpTimer) : Prop :=
  timer.rtxArmed = true ∨ timer = s.toTcpTimer ∧ nxt = s.sndNxt

/-- The loop sends pieces of the queue. -/
lemma outputLoop_id (mss : ℕ) :
  ∀ (fuel : ℕ) (w : Net), ∃ nxt timer adv log,
    outputLoop id i mss fuel w = w.sends i nxt (w.tcpSockets i).finSent timer adv log
    ∧ (∀ seg ∈ log, w.Emitted i seg)
    ∧ Armed (w.tcpSockets i) nxt timer
    ∧ ((w.tcpSockets i).txLen < 2 ^ 32 → Progress (w.tcpSockets i) nxt)
  := by
  intro fuel
  induction fuel with
  | zero =>
    intro w
    exact ⟨_, _, _, [], sends_self.symm, by simp, .inr ⟨rfl, rfl⟩, fun _ => ⟨le_rfl, .inl rfl⟩⟩
  | succ fuel ih =>
    intro w
    rw [outputLoop]
    by_cases hstop : (w.tcpSockets i).txLen ≤ inFlight (w.tcpSockets i)
        ∨ (w.tcpSockets i).sndWnd ≤ inFlight (w.tcpSockets i)
    · rw [if_pos hstop]
      exact ⟨_, _, _, [], sends_self.symm, by simp, .inr ⟨rfl, rfl⟩,
        fun _ => ⟨le_rfl, .inl rfl⟩⟩
    rw [if_neg hstop]
    obtain ⟨hlen, hwnd⟩ := not_or.mp hstop
    obtain ⟨timer, adv, psh, harmed, hround⟩ := outputRound_id (w := w) (i := i) mss
    rw [hround]
    obtain ⟨nxt, timer', adv', log, heq, hlog, htimer, hprog⟩ := ih (w.sends i _ _ timer adv _)
    rw [sends_sends, tcpSockets_sends] at heq
    refine ⟨nxt, timer', adv', _, heq, ?_, ?_, ?_⟩
    · intro seg hseg
      rcases List.mem_append.mp hseg with hseg | hseg
      · exact emitted_round (by omega) hseg
      · exact emitted_sends.mp (hlog seg hseg)
    · left
      rcases htimer with ht | ⟨ht, -⟩
      · exact ht
      · rw [ht, tcpSockets_sends]
        exact harmed
    · intro hbig
      have hsize : inFlight (w.tcpSockets i) + outputSize (w.tcpSockets i) mss
          ≤ (w.tcpSockets i).txLen := by
        rw [outputSize]
        omega
      have hflight := inFlight_after (s := w.tcpSockets i)
        (n := outputSize (w.tcpSockets i) mss) (by omega)
      simp only [tcpSockets_sends] at hprog
      obtain ⟨hge, hle⟩ := hprog hbig
      simp only [inFlight] at hge hflight hsize ⊢
      constructor
      · simp only [inFlight]
        omega
      · rcases hle with hle | hle
        · right
          rw [hle, hflight]
          exact hsize
        · exact .inr hle

/-- Where `tcp_output` leaves the send side of a connection. -/
structure Outcome (s : TcpSocket) (nxt : BitVec 32) (fin : Bool) : Prop where
  ge : inFlight s ≤ (nxt - s.sndUna).toNat
  le : (nxt - s.sndUna).toNat ≤ s.txLen + finLen s
  finSent : s.finSent → fin
  finPending : fin → s.finSent ∨ s.finPending
  flushed : canSend s.state → s.finPending → (nxt - s.sndUna).toNat ≠ s.txLen

lemma outcome_of_no_fin {nxt : BitVec 32}
    (h : Progress s nxt) (hflight : inFlight s ≤ s.txLen + finLen s)
    (hno : s.finPending → nxt ≠ after s.sndUna s.txLen) :
  Outcome s nxt s.finSent
  := by
  refine ⟨h.ge, ?_, id, .inl, ?_⟩
  · rcases h.le with rfl | hle
    · exact hflight
    · omega
  · intro _ hpend heq
    apply hno hpend
    rw [← heq, after_sub_toNat]

lemma outcome_of_fin {nxt : BitVec 32}
    (h : Progress s nxt) (hbig : s.txLen + 1 < 2 ^ 32) (hpend : s.finPending)
    (hnxt : nxt = after s.sndUna s.txLen) :
  Outcome s (after s.sndUna (s.txLen + 1)) true
  := by
  have hend : (after s.sndUna (s.txLen + 1) - s.sndUna).toNat = s.txLen + 1 := by
    rw [toNat_after_sub, Nat.mod_eq_of_lt hbig]
  have hold : (nxt - s.sndUna).toNat = s.txLen := by
    rw [hnxt, toNat_after_sub, Nat.mod_eq_of_lt (by omega)]
  refine ⟨?_, ?_, fun _ => rfl, fun _ => .inr hpend, ?_⟩
  · have := h.ge
    omega
  · simp [hend, finLen, hpend]
  · intro _ _
    omega

/-- The FIN goes out once `snd_nxt` is behind the queue. -/
lemma outputFin_id :
  (w.outputFin id i = w
    ∧ ¬ ((w.tcpSockets i).finPending
      ∧ (w.tcpSockets i).sndNxt = after (w.tcpSockets i).sndUna (w.tcpSockets i).txLen))
  ∨ ((w.tcpSockets i).finPending
    ∧ (w.tcpSockets i).sndNxt = after (w.tcpSockets i).sndUna (w.tcpSockets i).txLen
    ∧ ∃ timer adv, timer.rtxArmed ∧ w.outputFin id i = w.sends i
      (after (w.tcpSockets i).sndUna ((w.tcpSockets i).txLen + 1)) true timer adv
      (w.segments i (after (w.tcpSockets i).sndUna (w.tcpSockets i).txLen)
        { fin := true, ack := true } 0 0))
  := by
  rw [outputFin]
  simp only
  split
  next h =>
    right
    refine ⟨h.1, h.2, ?_⟩
    rw [tcpXmit_id, setFin_sends]
    obtain ⟨timer, harmed, ht⟩ := tcpEnsureRtx_sends (w := w) (i := i)
    refine ⟨timer, w.nextAdv i, harmed, ht.trans ?_⟩
    rw [add_one_eq_after, ← after, after_after]
  next h => exact .inl ⟨rfl, h⟩

lemma outputPersist_id :
  ∃ timer, Armed (w.tcpSockets i) (w.tcpSockets i).sndNxt timer
    ∧ w.outputPersist i = w.sends i (w.tcpSockets i).sndNxt (w.tcpSockets i).finSent timer
        (w.tcpSockets i).lastAdvWnd []
  := by
  rw [outputPersist]
  split
  · nth_rewrite 3 [← sends_self (w := w) (i := i)]
    obtain ⟨timer, harmed, ht⟩ := tcpArmRtx_sends
    exact ⟨timer, .inl harmed, ht⟩
  · exact ⟨_, .inr ⟨rfl, rfl⟩, sends_self.symm⟩

/-- What `tcp_output` does to a connection: it sends pieces of the queue and the FIN.  Past
the queue there is room for the FIN only, which leaves as soon as it may. -/
lemma tcpOutput_id :
  ∃ nxt fin timer adv log, w.tcpOutput id i = w.sends i nxt fin timer adv log
    ∧ (∀ seg ∈ log, w.Emitted i seg)
    ∧ Armed (w.tcpSockets i) nxt timer
    ∧ ((w.tcpSockets i).txLen + 1 < 2 ^ 32 →
        inFlight (w.tcpSockets i) ≤ (w.tcpSockets i).txLen + finLen (w.tcpSockets i) →
        Outcome (w.tcpSockets i) nxt fin)
  := by
  rw [tcpOutput]
  split
  next hstate =>
    obtain ⟨nxt, timer, adv, log, hloop, hlog, htimer, hprog⟩ :=
      outputLoop_id (i := i) (outputMss (w.tcpSockets i)) (w.tcpSockets i).txLen w
    simp only [hloop]
    rcases outputFin_id (w := w.sends i nxt (w.tcpSockets i).finSent timer adv log) (i := i)
      with ⟨hfin, hno⟩ | ⟨hpend, hnxt, timer', adv', harmed, hfin⟩
    · rw [hfin]
      obtain ⟨timer', htimer', hpersist⟩ := outputPersist_id (i := i)
        (w := w.sends i nxt (w.tcpSockets i).finSent timer adv log)
      rw [hpersist, sends_sends, tcpSockets_sends, List.append_nil]
      refine ⟨nxt, _, timer', adv, log, rfl, hlog, ?_, ?_⟩
      · simp only [tcpSockets_sends] at htimer htimer' ⊢
        rcases htimer' with harmed | ⟨rfl, -⟩
        · exact .inl harmed
        · exact htimer
      intro hbig hflight
      exact outcome_of_no_fin (hprog (by omega)) hflight (by simpa using hno)
    · rw [hfin]
      obtain ⟨timer'', htimer', hpersist⟩ := outputPersist_id (i := i)
        (w := (w.sends i nxt (w.tcpSockets i).finSent timer adv log).sends i _ true timer' adv' _)
      rw [hpersist]
      simp only [sends_sends, tcpSockets_sends, segments_sends, List.append_nil] at hpend hnxt ⊢
      refine ⟨_, true, timer'', adv', _, rfl, ?_, ?_, ?_⟩
      · intro seg hseg
        rcases List.mem_append.mp hseg with hseg | hseg
        · exact hlog seg hseg
        · exact .inr ⟨hpend, hseg⟩
      · simp only [tcpSockets_sends] at htimer'
        rcases htimer' with harmed' | ⟨rfl, -⟩
        · exact .inl harmed'
        · exact .inl harmed
      · intro hbig _
        exact outcome_of_fin (hprog (by omega)) hbig hpend hnxt
  next hstate =>
    refine ⟨_, _, _, _, [], sends_self.symm, by simp, .inr ⟨rfl, rfl⟩, ?_⟩
    intro _ hflight
    exact ⟨le_rfl, hflight, id, .inl, fun h => absurd h hstate⟩

/-- A read is announced to the peer or not. -/
lemma tcpWindowUpdate_cases (poll : Net → Net) :
  w.tcpWindowUpdate poll i = w ∨ w.tcpWindowUpdate poll i = w.tcpSendAck poll i
  := by
  rw [tcpWindowUpdate]
  simp only
  split_ifs <;> simp

/-! ### Connecting -/

/-- The allocation of a port moves the counter. -/
lemma allocPortLoop_eq : ∀ (n : ℕ) (w : Net), ∃ eph, (allocPortLoop n w).2
      = { w with nextEphemeral := eph }
  | 0, w => ⟨w.nextEphemeral, rfl⟩
  | n + 1, w => by
    rw [allocPortLoop]
    simp only [apply_ite Prod.snd]
    split_ifs
    · exact allocPortLoop_eq n _
    · exact ⟨_, rfl⟩
    · exact allocPortLoop_eq n _
    · exact ⟨_, rfl⟩

/-- The first allocation of a port draws a random number. -/
lemma tcpAllocPort_eq : ∃ eph, w.tcpAllocPort.2 = { w with
    seed := if w.nextEphemeral = 0 then w.getRandomIsn.1 else w.seed, nextEphemeral := eph }
  := by
  rw [tcpAllocPort]
  simp only
  split
  · obtain ⟨eph, h⟩ := allocPortLoop_eq (tcpEphemeralLast - tcpEphemeralFirst + 1)
      { w.getRandomIsn.2 with nextEphemeral := BitVec.ofNat 16 (tcpEphemeralFirst
        + w.getRandomIsn.1.toNat % (tcpEphemeralLast - tcpEphemeralFirst + 1)) }
    exact ⟨eph, h⟩
  · exact allocPortLoop_eq (tcpEphemeralLast - tcpEphemeralFirst + 1) w

/-- The connection block that `tcp_connect` leaves behind: the SYN is on its way. -/
lemma tcpConnect_id {w₀ : Net} {buf : ℕ → Byte} {ip : BitVec 32} {port : BitVec 16} {owner : ℕ}
    (h : w₀.tcpConnect id buf ip port owner = (some i, w)) :
  ∃ lport isn timer adv, w.tcpSockets i = { tcpOpened ip lport port isn buf owner with
    sndNxt := isn + 1, toTcpTimer := timer, lastAdvWnd := adv }
  := by
  rw [tcpConnect] at h
  split at h
  · cases h
  simp only at h
  split at h
  · cases h
  split at h
  · obtain ⟨hi, hw⟩ := Prod.mk.inj h
    obtain rfl := Option.some.inj hi
    rw [tcpXmit_id, addNxt_sends] at hw
    obtain ⟨timer, -, ht⟩ := tcpArmRtx_sends
    rw [← hw, ht, tcpSockets_sends, tcpSockets_modTcp]
    exact ⟨_, _, timer, _, rfl⟩
  · cases h

/-- Sockets are left to `sock_connect`. -/
lemma sockets_tcpConnect (buf : ℕ → Byte) (ip : BitVec 32) (port : BitVec 16) (owner : ℕ) :
  (w.tcpConnect id buf ip port owner).2.sockets = w.sockets
  := by
  obtain ⟨eph, heq⟩ := tcpAllocPort_eq (w := w)
  rw [tcpConnect]
  split
  · rfl
  simp only
  split_ifs
  · rw [heq]
  · rw [tcpXmit_id, heq]
    rfl
  · rw [heq]
    rfl

end Net
