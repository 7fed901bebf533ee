import EquantOS.Net.FinAck

/-!
# Probes of a closed window

While the peer keeps its window closed, `tcp_timeout` sends one byte past it and moves
`snd_nxt`; this does not count as a retry.  The next timeout finds that byte on its way and
does count: it goes back to `snd_una`, where the window is closed as before.  Only an
acknowledgement of new data clears the count, and the probes of a peer that answers every
one of them with a closed window run out after `TCP_MAX_RETRIES` rounds.
-/

open Serial

namespace Net

open Event List

variable {i : ℕ} {w : Net} {s : TcpSocket} {una : BitVec 32} {owner : Option ℕ} {notify : Bool}

/-- An established connection with data in its queue and a closed window. -/
structure Stalled (una : BitVec 32) (owner : Option ℕ) (notify : Bool) (s : TcpSocket) :
    Prop where
  active : s.active
  state : s.state = .established
  pending : s.finPending = false
  wnd : s.sndWnd = 0
  una : s.sndUna = una
  len : 0 < s.txLen
  owner : s.owner = owner
  notify : s.onEvent = notify

/-- The connection has been given up, and its owner has been told. -/
structure Expired (i : ℕ) (owner : Option ℕ) (notify : Bool) (w : Net) : Prop where
  active : (w.tcpSockets i).active = false
  state : (w.tcpSockets i).state = .closed
  error : (w.tcpSockets i).error = .timeout
  told : ∀ j, owner = some j → notify → (w.sockets j).state = .closed ∧ (w.sockets j).err = 110

/-- The number of timeouts that are left before the connection is given up. -/
def budget (s : TcpSocket) : ℕ :=
  2 * (tcpMaxRetries - s.retries) + if s.sndNxt = s.sndUna then 1 else 0

/-- The answers of the peer: nothing new is acknowledged and the window stays closed. -/
structure KeepsClosed (una : BitVec 32) (seg : Segment) : Prop where
  ack : seg.flags.ack
  rst : seg.flags.rst = false
  fin : seg.flags.fin = false
  num : seg.ack = una
  wnd : seg.windowSize = 0
  payload : seg.payload = []

/-- Timeouts and answers of the peer. -/
def Event.Probes (una : BitVec 32) : Event → Prop
  | .timeout _ => True
  | .segment seg => KeepsClosed una seg
  | _ => False

def Event.isTimeout : Event → Bool
  | .timeout _ => true
  | _ => false

/-! ### One event -/

section

variable (h : Stalled una owner notify (w.tcpSockets i))

include h

/-- Output finds the window closed: at most the timer is started. -/
lemma output_stalled :
  ∃ timer, timer.retries = (w.tcpSockets i).retries
    ∧ w.tcpOutput id i = w.modTcp i fun s => { s with toTcpTimer := timer }
  := by
  have hloop : outputLoop id i (outputMss (w.tcpSockets i)) (w.tcpSockets i).txLen w = w := by
    obtain ⟨n, hn⟩ := Nat.exists_eq_add_of_lt h.len
    rw [hn, outputLoop, if_pos (Or.inr (by rw [h.wnd]; exact Nat.zero_le _))]
  have hfin : w.outputFin id i = w := by
    rw [outputFin]
    simp [h.pending]
  rw [tcpOutput, if_pos (by rw [h.state]; rfl)]
  simp only [hloop, hfin]
  rw [outputPersist]
  split
  · exact ⟨⟨(w.tcpSockets i).rtoMs, w.tcpNowMs + BitVec.ofNat 32 (w.tcpSockets i).rtoMs, true,
      (w.tcpSockets i).retries⟩, rfl, by simp [tcpArmRtx, modTcp]⟩
  · exact ⟨(w.tcpSockets i).toTcpTimer, rfl, by simp [modTcp]⟩

lemma inputAck_stalled {seg : Segment}
    (hseg : KeepsClosed una seg) :
  w.inputAck i seg = (false, w.modTcp i fun s => { s with sndWnd := 0 })
  := by
  have hold : ¬ ackIsNew (w.tcpSockets i) seg.ack := by
    rintro ⟨hgt, -⟩
    rw [hseg.num, h.una, Serial.Gt, BitVec.sub_self] at hgt
    exact absurd hgt (by decide)
  have hlen : ((w.tcpSockets i).txLen == 0) = false := by
    rw [beq_eq_false_iff_ne]
    exact Nat.ne_of_gt h.len
  rw [inputAck, if_pos hseg.ack, tcpProcessAck, if_neg hold,
    if_pos (hseg.num.trans h.una.symm), hseg.wnd]
  refine Prod.ext ?_ rfl
  simp only [finAcked, tcpSockets_modTcp, hlen, Bool.and_false, Bool.false_and]

/-- An answer of the peer leaves everything as it is. -/
lemma segment_stalled {seg : Segment}
    (hseg : KeepsClosed una seg) :
  Stalled una owner notify ((w.tcpInput i seg).tcpSockets i)
    ∧ budget ((w.tcpInput i seg).tcpSockets i) = budget (w.tcpSockets i)
  := by
  have hin : w.tcpInput i seg = (w.modTcp i fun s => { s with sndWnd := 0 }).tcpOutput id i := by
    rw [tcpInput, if_neg (by rw [h.state]; decide), if_neg (by simp [hseg.rst])]
    simp only [inputAck_stalled h hseg, inputData, hseg.payload, ne_eq, not_true_eq_false,
      false_and, if_false, inputFin, finInOrder, hseg.fin, Bool.false_and, Bool.false_eq_true,
      inputFinish, needAck, decide_false, Bool.or_false]
  have h' : Stalled una owner notify
      ((w.modTcp i fun s => { s with sndWnd := 0 }).tcpSockets i) := by
    rw [tcpSockets_modTcp]
    exact ⟨h.active, h.state, h.pending, rfl, h.una, h.len, h.owner, h.notify⟩
  obtain ⟨timer, hretries, hout⟩ := output_stalled h'
  rw [hin, hout, tcpSockets_modTcp]
  refine ⟨⟨h'.active, h'.state, h'.pending, h'.wnd, h'.una, h'.len, h'.owner, h'.notify⟩, ?_⟩
  rw [tcpSockets_modTcp] at hretries ⊢
  simp only [budget, hretries]

end

/-- The owner of a connection that is given up is told. -/
lemma told_tcpFail {j : ℕ} (hown : (w.tcpSockets i).owner = some j)
    (hnotify : (w.tcpSockets i).onEvent) :
  ((w.tcpFail i .timeout).sockets j).state = .closed
    ∧ ((w.tcpFail i .timeout).sockets j).err = 110
  := by
  simp [tcpFail, tcpFree, tcpNotify, sockTcpOnEvent, hown, hnotify, onEvent, tcpErrorToErrno]

/-- A timeout uses up one unit of the budget; when nothing is left, the connection is
given up. -/
lemma timeout_stalled (h : Stalled una owner notify (w.tcpSockets i)) (now : BitVec 32) :
  (Stalled una owner notify ((w.tcpTimeout id i now).tcpSockets i)
      ∧ budget ((w.tcpTimeout id i now).tcpSockets i) + 1 = budget (w.tcpSockets i))
    ∨ Expired i owner notify (w.tcpTimeout id i now)
  := by
  rw [tcpTimeout]
  simp only
  rw [if_neg (by rw [h.state]; decide)]
  split
  next hprobe =>
    -- the probe moves `snd_nxt` and does not count
    left
    have htcp : (w.timeoutPersist id i now).tcpSockets i = { w.tcpSockets i with
        sndNxt := (w.tcpSockets i).sndNxt + 1, lastAdvWnd := w.nextAdv i
        rtoMs := backoff (w.tcpSockets i).rtoMs
        rtxDeadlineMs := now + BitVec.ofNat 32 (backoff (w.tcpSockets i).rtoMs) } := by
      simp [timeoutPersist, tcpXmit_id]
    rw [htcp]
    refine ⟨⟨h.active, h.state, h.pending, h.wnd, h.una, h.len, h.owner, h.notify⟩, ?_⟩
    have hmoved : (w.tcpSockets i).sndUna + 1 ≠ (w.tcpSockets i).sndUna := by
      simp
    simp only [budget, hprobe.1, if_neg hmoved, if_true]
  next hprobe =>
    have hne : (w.tcpSockets i).sndNxt ≠ (w.tcpSockets i).sndUna :=
      fun heq => hprobe ⟨heq, h.wnd, h.len⟩
    split
    next hmax =>
      right
      have htcp : (w.tcpXmit id i (w.tcpSockets i).sndNxt { rst := true, ack := true } 0 0).tcpSockets i
          = { w.tcpSockets i with lastAdvWnd := w.nextAdv i } := by
        simp [tcpXmit_id]
      constructor
      · simp
      · simp
      · simp
      · intro j hj hn
        apply told_tcpFail
        · rw [htcp]
          exact h.owner.trans hj
        · rw [htcp]
          exact h.notify.trans hn
    next hmax =>
      -- the byte of the probe is on its way: back to `snd_una`, and this counts
      left
      have h' : Stalled una owner notify ((w.modTcp i fun s => { s with
          sndNxt := s.sndUna, rtxArmed := false }).tcpSockets i) := by
        rw [tcpSockets_modTcp]
        exact ⟨h.active, h.state, h.pending, h.wnd, h.una, h.len, h.owner, h.notify⟩
      obtain ⟨timer, hretries, hout⟩ := output_stalled h'
      rw [hout, timeoutRetry, tcpSockets_modTcp, tcpSockets_modTcp]
      refine ⟨⟨h'.active, h'.state, h'.pending, h'.wnd, h'.una, h'.len, h'.owner, h'.notify⟩, ?_⟩
      rw [tcpSockets_modTcp] at hretries ⊢
      simp only [budget, hretries, if_neg hne, if_true]
      omega

/-! ### Runs -/

lemma expired_step (h : Expired i owner notify w) {e : Event} (he : e.Probes una) :
  Expired i owner notify (e.step id i w)
  := by
  cases e with
  | timeout now =>
    rw [step, if_neg (by simp [h.active])]
    exact h
  | segment seg =>
    rw [step]
    split
    next hl =>
      have := active_of_tcpLookup hl
      rw [h.active] at this
      cases this
    · exact h
  | _ => exact he.elim

lemma stalled_step (h : Stalled una owner notify (w.tcpSockets i)) {e : Event}
    (he : e.Probes una) :
  (Stalled una owner notify ((e.step id i w).tcpSockets i)
      ∧ budget ((e.step id i w).tcpSockets i) + (if e.isTimeout then 1 else 0)
        = budget (w.tcpSockets i))
    ∨ Expired i owner notify (e.step id i w)
  := by
  cases e with
  | timeout now =>
    rw [step, if_pos h.active]
    exact timeout_stalled h now
  | segment seg =>
    left
    rw [step]
    split
    next hl =>
      simp only [handleTcp, hl]
      exact segment_stalled h he
    · exact ⟨h, rfl⟩
  | _ => exact he.elim

lemma expired_run {es : List Event} (h : Expired i owner notify w)
    (hes : ∀ e ∈ es, e.Probes una) :
  Expired i owner notify (runEvents id i w es)
  := by
  induction es generalizing w with
  | nil => exact h
  | cons e es ih =>
    rw [forall_mem_cons] at hes
    exact ih (expired_step h hes.1) hes.2

/-- More timeouts than the budget has end the connection, whatever comes in between. -/
lemma stalled_run {es : List Event} (h : Stalled una owner notify (w.tcpSockets i))
    (hes : ∀ e ∈ es, e.Probes una) (hcount : budget (w.tcpSockets i) < es.countP isTimeout) :
  Expired i owner notify (runEvents id i w es)
  := by
  induction es generalizing w with
  | nil => simp at hcount
  | cons e es ih =>
    rw [forall_mem_cons] at hes
    rw [countP_cons] at hcount
    rcases stalled_step h hes.1 with ⟨h', hbudget⟩ | hexp
    · apply ih h' hes.2
      omega
    · exact expired_run (w := e.step id i w) hexp hes.2

/-- On every established connection with unsent data and a closed window: timeouts, eighteen
of them, close the connection and report the error to its socket, although the peer answers
and keeps its window closed.  No segment is handled inside a transmission, that of the SYN
included. -/
theorem closed_window_gives_up {w₀ w₁ : Net} {buf : ℕ → Byte} {ip : BitVec 32} {port : BitVec 16}
    {sock : ℕ} (hconn : w₀.tcpConnect id buf ip port sock = (some i, w₁)) {before : List Event}
    (hw : w = runEvents id i w₁ before) (hact : (w.tcpSockets i).active)
    (hst : (w.tcpSockets i).state = .established) (hwnd : (w.tcpSockets i).sndWnd = 0)
    (hunsent : inFlight (w.tcpSockets i) < (w.tcpSockets i).txLen) (es : List Event)
    (hes : ∀ e ∈ es, e.Probes (w.tcpSockets i).sndUna)
    (hcount : 18 ≤ es.countP isTimeout) :
  ((runEvents id i w es).tcpSockets i).state = .closed
    ∧ ((runEvents id i w es).tcpSockets i).error = .timeout
    ∧ ∀ j, (w.tcpSockets i).owner = some j → (w.tcpSockets i).onEvent →
      ((runEvents id i w es).sockets j).state = .closed
        ∧ ((runEvents id i w es).sockets j).err = 110
  := by
  have hpend : (w.tcpSockets i).finPending = false := by
    have hsend := sending_of_run hconn before
    rw [← hw] at hsend
    obtain ⟨acked, -, hd⟩ := Sending.inData_of_canSend (hsend.queue hact) (by rw [hst]; rfl)
    rw [hd.queued, hst]
    rfl
  have h : Stalled (w.tcpSockets i).sndUna (w.tcpSockets i).owner (w.tcpSockets i).onEvent
      (w.tcpSockets i) :=
    ⟨hact, hst, hpend, hwnd, rfl, by omega, rfl, rfl⟩
  have hbudget : budget (w.tcpSockets i) < es.countP isTimeout := by
    rw [budget]
    simp only [tcpMaxRetries]
    split <;> omega
  have hexp := stalled_run h hes hbudget
  exact ⟨hexp.state, hexp.error, hexp.told⟩

/-- A connection with two bytes to send and a closed window. -/
def windowClosed : Net :=
  runEvents id 0 synOnWay [.segment synAck, .segment (ackOf 0 0), .write [1, 2]]

/-- Eighteen timeouts, each followed by an answer of the peer. -/
def answeredProbes : List Event :=
  (replicate 18 [.timeout 1000, .segment (ackOf 0 0)]).flatten

theorem closed_window_gives_up_answered :
  (windowClosed.tcpSockets 0).state = .established
    ∧ ((runEvents id 0 windowClosed answeredProbes).tcpSockets 0).error = .timeout
  := by
  refine ⟨rfl, ?_⟩
  have h := @closed_window_gives_up 0 windowClosed (boot (fun _ => true) []) synOnWay (fun _ => 0)
    7 80 0 rfl _ rfl rfl rfl rfl (by decide) answeredProbes ?_ (by decide)
  · exact h.2.1
  intro e he
  simp only [answeredProbes, mem_flatten, mem_replicate] at he
  obtain ⟨l, ⟨-, rfl⟩, he⟩ := he
  simp only [mem_cons, not_mem_nil, or_false] at he
  rcases he with rfl | rfl
  · trivial
  · exact ⟨rfl, rfl, rfl, rfl, rfl, rfl⟩

set_option maxRecDepth 10000 in
/-- The socket of such a connection gets `ETIMEDOUT`. -/
theorem probes_time_out :
  (windowClosed.tcpSockets 0).state = .established ∧ (windowClosed.tcpSockets 0).sndWnd = 0
    ∧ inFlight (windowClosed.tcpSockets 0) < (windowClosed.tcpSockets 0).txLen
    ∧ ((runEvents id 0 windowClosed answeredProbes).tcpSockets 0).state = .closed
    ∧ ((runEvents id 0 windowClosed answeredProbes).sockets 0).err = 110
  := ⟨rfl, rfl, by decide, rfl, rfl⟩

end Net
