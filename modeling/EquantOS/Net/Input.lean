import EquantOS.Net.Output

/-!
# What a received segment changes

The payload of a segment moves `rcv_nxt`, the reorder buffer and the receive ring of the
owner, and nothing else: `receives` is the form of the outcome.  An induction principle
for the reorder buffer serves the properties that say more about the bytes.  Events
change the owner's socket only.
-/

open Serial Function

namespace Net

/-- The outcome of the payload of a segment for connection `i`. -/
def receives (w : Net) (i : ℕ) (nxt : BitVec 32) (reorder : ℕ → Option ReorderEntry)
    (sockets : ℕ → SocketEntry) (mallocs : ℕ → Bool) : Net :=
  { w.modTcp i fun s => { s with rcvNxt := nxt, reorder := reorder } with
    sockets := sockets, mallocs := mallocs }

/-- Two sockets differ in the receive ring and its head only. -/
def SameButRing (e e' : SocketEntry) : Prop :=
  e' = { e with rxRing := e'.rxRing, rxHead := e'.rxHead } ∧ e'.rxRing.isSome = e.rxRing.isSome

lemma SameButRing.refl (e : SocketEntry) : SameButRing e e := ⟨rfl, rfl⟩

lemma SameButRing.trans {e e' e'' : SocketEntry} (h : SameButRing e e') (h' : SameButRing e' e'') :
  SameButRing e e''
  := by
  refine ⟨?_, h'.2.trans h.2⟩
  rw [h'.1, h.1]

lemma sameButRing_ringPush (e : SocketEntry) (data : List Byte) :
  SameButRing e (e.ringPush data).2
  := by
  rw [SocketEntry.ringPush]
  cases h : e.rxRing with
  | none => exact SameButRing.refl e
  | some ring => exact ⟨rfl, by simp [h]⟩

variable {w : Net} {i : ℕ}

/-- What a change of the receive side amounts to. -/
def Receives (i : ℕ) (w w' : Net) : Prop :=
  ∃ nxt reorder sockets mallocs, w' = w.receives i nxt reorder sockets mallocs
    ∧ ∀ j, SameButRing (w.sockets j) (sockets j)

lemma Receives.refl : Receives i w w
  := by
  refine ⟨(w.tcpSockets i).rcvNxt, (w.tcpSockets i).reorder, w.sockets, w.mallocs, ?_, ?_⟩
  · simp [receives, modTcp]
  · intro j
    exact SameButRing.refl _

lemma Receives.trans {w' w'' : Net} (h : Receives i w w') (h' : Receives i w' w'') :
  Receives i w w''
  := by
  obtain ⟨nxt, reorder, sockets, mallocs, rfl, hs⟩ := h
  obtain ⟨nxt', reorder', sockets', mallocs', rfl, hs'⟩ := h'
  refine ⟨nxt', reorder', sockets', mallocs', ?_, fun j => (hs j).trans (hs' j)⟩
  simp [receives, modTcp]

/-! ### The reorder buffer -/

/-- A property that survives the delivery of an entry in order and the release of a slot
survives the draining of the reorder buffer. -/
lemma tcpReorderDrain_induction {P : Net → Prop}
    (deliver : ∀ (w : Net) (k : ℕ) (e : ReorderEntry), P w → k < tcpReorderBufSize →
      (w.tcpSockets i).reorder k = some e →
      ¬ Le (after e.seq e.data.length) (w.tcpSockets i).rcvNxt → Le e.seq (w.tcpSockets i).rcvNxt →
      P ((w.tcpDeliver i (e.data.drop ((w.tcpSockets i).rcvNxt - e.seq).toNat)).2.dropSlot i k))
    (drop : ∀ (w : Net) (k : ℕ), P w → P (w.dropSlot i k))
    (h : P w) :
  P (w.tcpReorderDrain i)
  := by
  have hslot : ∀ (r : Bool × Net) (k : ℕ), P r.2 → k < tcpReorderBufSize →
      P (drainSlot i r k).2 := by
    intro r k hr hk
    rw [drainSlot]
    cases he : (r.2.tcpSockets i).reorder k with
    | none => simpa only [he] using hr
    | some e =>
      simp only
      split
      · exact drop _ _ hr
      · split
        · exact deliver _ _ _ hr hk he ‹_› ‹_›
        · exact hr
  have hpass : ∀ w : Net, P w → P (w.drainPass i).2 := by
    intro w hw
    apply List.foldlRecOn (motive := fun r => P r.2) (List.range tcpReorderBufSize) (drainSlot i)
    · exact hw
    · intro r hr k hk
      exact hslot r k hr (List.mem_range.mp hk)
  have hloop : ∀ (n : ℕ) (w : Net), P w → P (drainLoop i n w) := by
    intro n
    induction n with
    | zero =>
      intro w hw
      exact hw
    | succ n ih =>
      intro w hw
      rw [drainLoop]
      split
      · exact ih _ (hpass w hw)
      · exact hpass w hw
  exact hloop _ w h

lemma receives_dropSlot (k : ℕ) : Receives i w (w.dropSlot i k)
  := by
  refine ⟨(w.tcpSockets i).rcvNxt, update (w.tcpSockets i).reorder k none, w.sockets,
    w.mallocs, ?_, fun j => SameButRing.refl _⟩
  simp [dropSlot, receives, modTcp]

lemma receives_sockTcpOnData (data : List Byte) : Receives i w (w.sockTcpOnData i data).2
  := by
  rw [sockTcpOnData]
  split
  · exact Receives.refl
  next j _ =>
    split
    · exact Receives.refl
    refine ⟨(w.tcpSockets i).rcvNxt, (w.tcpSockets i).reorder,
      update w.sockets j ((w.sockets j).ringPush data).2, w.mallocs, ?_, ?_⟩
    · simp [receives, modTcp, modSock]
    intro k
    by_cases hk : k = j
    · subst hk
      rw [update_self]
      exact sameButRing_ringPush _ _
    · rw [update_of_ne hk]
      exact SameButRing.refl _

lemma receives_tcpDeliver (data : List Byte) : Receives i w (w.tcpDeliver i data).2
  := by
  have hdata : Receives i w (if (w.tcpSockets i).owner.isSome && (w.tcpSockets i).onData
      then w.sockTcpOnData i data else (data.length, w)).2 := by
    split
    · exact receives_sockTcpOnData data
    · exact Receives.refl
  apply hdata.trans
  refine ⟨_, _, _, _, rfl, fun j => SameButRing.refl _⟩

lemma receives_tcpReorderInsert (seq : BitVec 32) (data : List Byte) :
  Receives i w (w.tcpReorderInsert i seq data)
  := by
  rw [tcpReorderInsert]
  simp only
  split
  · exact Receives.refl
  split
  · exact Receives.refl
  split
  · exact Receives.refl
  split
  next k _ _ =>
    refine ⟨(w.tcpSockets i).rcvNxt, update (w.tcpSockets i).reorder k (some ⟨seq, data⟩),
      w.sockets, fun n => w.mallocs (n + 1), ?_, fun j => SameButRing.refl _⟩
    simp [kmalloc, receives, modTcp]
  · refine ⟨(w.tcpSockets i).rcvNxt, (w.tcpSockets i).reorder, w.sockets,
      fun n => w.mallocs (n + 1), ?_, fun j => SameButRing.refl _⟩
    simp [kmalloc, receives, modTcp]

lemma receives_tcpReorderDrain : Receives i w (w.tcpReorderDrain i)
  := by
  apply tcpReorderDrain_induction (P := Receives i w)
  · intro w' k e hw _ _ _ _
    exact (hw.trans (receives_tcpDeliver _)).trans (receives_dropSlot k)
  · intro w' k hw
    exact hw.trans (receives_dropSlot k)
  · exact Receives.refl

lemma receives_deliverInOrder (data : List Byte) : Receives i w (w.deliverInOrder i data)
  := by
  rw [deliverInOrder]
  split
  · exact (receives_tcpDeliver data).trans receives_tcpReorderDrain
  · exact receives_tcpDeliver data

/-- The payload of a segment changes the receive side only. -/
lemma receives_inputData (seg : Segment) : Receives i w (w.inputData i seg)
  := by
  rw [inputData]
  split
  · split
    · exact receives_deliverInOrder _
    split
    · split
      · exact receives_deliverInOrder _
      · exact Receives.refl
    · exact receives_tcpReorderInsert _ _
  · exact Receives.refl

/-! ### Events -/

/-- Two sockets differ in what an event reports only. -/
def SameButStatus (e e' : SocketEntry) : Prop :=
  e' = { e with state := e'.state, err := e'.err, peerClosed := e'.peerClosed, tcb := e'.tcb }
    ∧ ∀ k, e'.tcb = some k → e.tcb = some k

lemma SameButStatus.refl (e : SocketEntry) : SameButStatus e e := ⟨rfl, fun _ => id⟩

lemma sameButStatus_onEvent (s : TcpSocket) (e : SocketEntry) : SameButStatus e (onEvent s e)
  := by
  rw [SameButStatus, onEvent]
  constructor
  · cases s.state <;> cases s.peerFin <;> simp only [] <;> try rfl
    all_goals cases e.state <;> rfl
  · cases s.state <;> cases s.peerFin <;> simp
    all_goals cases e.state <;> simp

/-- Only the end of a connection cuts the pointer of its owner. -/
lemma tcb_onEvent {s : TcpSocket} (h : s.state ≠ .closed) (e : SocketEntry) :
  (onEvent s e).tcb = e.tcb
  := by
  rw [onEvent]
  cases hst : s.state <;> cases s.peerFin <;> simp [hst] at h ⊢
  all_goals split <;> rfl

/-- An event changes sockets only, and those in their status. -/
lemma tcpNotify_eq :
  ∃ sockets, w.tcpNotify i = { w with sockets := sockets }
    ∧ ∀ j, SameButStatus (w.sockets j) (sockets j)
  := by
  rw [tcpNotify]
  split
  · rw [sockTcpOnEvent]
    split
    · exact ⟨w.sockets, rfl, fun j => SameButStatus.refl _⟩
    next j _ =>
      refine ⟨_, rfl, fun k => ?_⟩
      by_cases hk : k = j
      · subst hk
        rw [update_self]
        exact sameButStatus_onEvent _ _
      · rw [update_of_ne hk]
        exact SameButStatus.refl _
  · exact ⟨w.sockets, rfl, fun j => SameButStatus.refl _⟩

@[simp]
lemma tcpSockets_tcpNotify : (w.tcpNotify i).tcpSockets = w.tcpSockets
  := by
  obtain ⟨sockets, h, -⟩ := tcpNotify_eq (w := w) (i := i)
  rw [h]

@[simp]
lemma sent_tcpNotify : (w.tcpNotify i).sent = w.sent
  := by
  obtain ⟨sockets, h, -⟩ := tcpNotify_eq (w := w) (i := i)
  rw [h]

lemma sameButStatus_tcpNotify (j : ℕ) :
  SameButStatus (w.sockets j) ((w.tcpNotify i).sockets j)
  := by
  obtain ⟨sockets, h, hs⟩ := tcpNotify_eq (w := w) (i := i)
  rw [h]
  exact hs j

lemma tcb_tcpNotify (h : (w.tcpSockets i).state ≠ .closed) (j : ℕ) :
  ((w.tcpNotify i).sockets j).tcb = (w.sockets j).tcb
  := by
  rw [tcpNotify]
  split
  · rw [sockTcpOnEvent]
    split
    · rfl
    next k _ =>
      by_cases hj : j = k
      · subst hj
        rw [sockets_modSock, tcb_onEvent h]
      · rw [sockets_modSock_of_ne hj]
  · rfl

/-- What is left of a connection block that is released. -/
@[simp]
lemma tcpSockets_tcpFree :
  (w.tcpFree i).tcpSockets i = { w.tcpSockets i with
    reorder := fun _ => none, txBuf := none, state := .closed, active := false, owner := none }
  := by
  simp [tcpFree]

@[simp]
lemma sent_tcpFree : (w.tcpFree i).sent = w.sent
  := by
  simp [tcpFree]

@[simp]
lemma iface_tcpFree : (w.tcpFree i).iface = w.iface
  := by
  obtain ⟨sockets, h, -⟩ := tcpNotify_eq (i := i) (w := w.modTcp i fun s => { s with
    reorder := fun _ => none, txBuf := none, state := .closed })
  rw [tcpFree, h]
  rfl

lemma sameButStatus_tcpFree (j : ℕ) :
  SameButStatus (w.sockets j) ((w.tcpFree i).sockets j)
  := by
  exact sameButStatus_tcpNotify (w := w.modTcp i _) j

@[simp]
lemma tcpSockets_tcpFail (err : TcpError) :
  (w.tcpFail i err).tcpSockets i = { w.tcpSockets i with
    error := err, reorder := fun _ => none, txBuf := none, state := .closed, active := false,
    owner := none }
  := by
  simp [tcpFail]

@[simp]
lemma sent_tcpFail (err : TcpError) : (w.tcpFail i err).sent = w.sent
  := by
  simp [tcpFail]

lemma sameButStatus_tcpFail (err : TcpError) (j : ℕ) :
  SameButStatus (w.sockets j) ((w.tcpFail i err).sockets j)
  := sameButStatus_tcpFree (w := w.modTcp i _) j

/-! ### The stages of a segment -/

/-- What the acknowledgement number and the window of a segment do to a connection. -/
def ackOutcome (now ack : BitVec 32) (wnd : ℕ) (s : TcpSocket) : TcpSocket :=
  if ackIsNew s ack then ackAdvance now ack wnd s
  else if ack = s.sndUna then { s with sndWnd := wnd } else s

lemma tcpSockets_tcpProcessAck (ack : BitVec 32) (wnd : ℕ) :
  (w.tcpProcessAck i ack wnd).2.tcpSockets i
    = ackOutcome w.tcpNowMs ack wnd (w.tcpSockets i)
  := by
  rw [tcpProcessAck, ackOutcome]
  split
  · simp
  · split
    · simp
    · rfl

lemma tcpProcessAck_fst (ack : BitVec 32) (wnd : ℕ) :
  (w.tcpProcessAck i ack wnd).1 = finAcked ((w.tcpProcessAck i ack wnd).2.tcpSockets i)
  := rfl

@[simp]
lemma sent_tcpProcessAck (ack : BitVec 32) (wnd : ℕ) :
  (w.tcpProcessAck i ack wnd).2.sent = w.sent
  := by
  rw [tcpProcessAck]
  split
  · simp
  · split <;> rfl

lemma tcpSockets_inputAck (seg : Segment) :
  (w.inputAck i seg).2.tcpSockets i
    = if seg.flags.ack then
        ackOutcome w.tcpNowMs seg.ack seg.windowSize.toNat (w.tcpSockets i)
      else w.tcpSockets i
  := by
  rw [inputAck]
  split
  · exact tcpSockets_tcpProcessAck _ _
  · rfl

/-- The acknowledgement leaves all but the send side and the timer alone. -/
lemma ackOutcome_eq (now ack : BitVec 32) (wnd : ℕ) (s : TcpSocket) :
  ackOutcome now ack wnd s = { s with
    toTcpSend := (ackOutcome now ack wnd s).toTcpSend
    toTcpTimer := (ackOutcome now ack wnd s).toTcpTimer }
  := by
  rw [ackOutcome]
  split
  · rfl
  · split <;> rfl

lemma inputAck_eq (seg : Segment) :
  ∃ snd timer, (w.inputAck i seg).2.tcpSockets i
    = { w.tcpSockets i with toTcpSend := snd, toTcpTimer := timer }
  := by
  rw [tcpSockets_inputAck]
  split
  · exact ⟨_, _, ackOutcome_eq _ _ _ _⟩
  · exact ⟨_, _, rfl⟩

/-- The FIN of a segment moves `rcv_nxt` and the state. -/
lemma inputFin_eq (seg : Segment) (acked : Bool) :
  ∃ nxt fin deadline, (w.inputFin i seg acked).tcpSockets i = { w.tcpSockets i with
    rcvNxt := nxt
    peerFin := fin
    deadlineMs := deadline
    state := if finInOrder (w.tcpSockets i) seg then stateAfterFin acked (w.tcpSockets i).state
      else (w.tcpSockets i).state }
  := by
  rw [inputFin]
  split
  next h =>
    simp only [tcpSockets_tcpNotify, tcpSockets_modTcp]
    exact ⟨_, _, _, rfl⟩
  · exact ⟨_, _, _, rfl⟩

@[simp]
lemma sent_inputFin (seg : Segment) (acked : Bool) : (w.inputFin i seg acked).sent = w.sent
  := by
  rw [inputFin]
  split
  · simp
  · rfl

/-- The state after the acknowledgement of our FIN, `LAST_ACK` apart. -/
def stateAfterFinAck : TcpState → TcpState
  | .finWait1 => .finWait2
  | .closing => .timeWait
  | state => state

lemma inputFinAcked_eq :
  ∃ deadline, (w.inputFinAcked i).tcpSockets i = { w.tcpSockets i with
    state := stateAfterFinAck (w.tcpSockets i).state, deadlineMs := deadline }
  := by
  rw [inputFinAcked]
  split
  next h => exact ⟨_, by rw [tcpSockets_modTcp, h, stateAfterFinAck]⟩
  next h => exact ⟨_, by rw [tcpSockets_modTcp, h, stateAfterFinAck]⟩
  next h1 h2 =>
    use (w.tcpSockets i).deadlineMs
    have hkeep : stateAfterFinAck (w.tcpSockets i).state = (w.tcpSockets i).state := by
      cases hst : (w.tcpSockets i).state
      case finWait1 => exact absurd hst h1
      case closing => exact absurd hst h2
      all_goals rfl
    rw [hkeep]

@[simp]
lemma sent_inputFinAcked : (w.inputFinAcked i).sent = w.sent
  := by
  rw [inputFinAcked]
  split <;> rfl

/-- A connection when its segment has been processed up to the output: the acknowledgement
of our FIN has moved the state and the segment has been answered. -/
def answered (w : Net) (i : ℕ) (needAck finAcked : Bool) : Net :=
  let w := if finAcked then w.inputFinAcked i else w
  if needAck then w.tcpSendAck id i else w

lemma inputFinish_eq (needAck finAcked : Bool) :
  w.inputFinish i needAck finAcked
    = if finAcked ∧ (w.tcpSockets i).state = .lastAck then w.tcpFree i
      else (w.answered i needAck finAcked).tcpOutput id i
  := rfl

lemma tcpSockets_answered (needAck finAcked : Bool) :
  ∃ deadline adv, (w.answered i needAck finAcked).tcpSockets i = { w.tcpSockets i with
    state := if finAcked then stateAfterFinAck (w.tcpSockets i).state else (w.tcpSockets i).state
    deadlineMs := deadline
    lastAdvWnd := adv }
  := by
  have hmove : ∃ deadline, ((if finAcked then w.inputFinAcked i else w).tcpSockets i)
      = { w.tcpSockets i with
          state := if finAcked then stateAfterFinAck (w.tcpSockets i).state
            else (w.tcpSockets i).state
          deadlineMs := deadline } := by
    cases finAcked with
    | false => exact ⟨_, rfl⟩
    | true => exact inputFinAcked_eq
  obtain ⟨deadline, hmove⟩ := hmove
  rw [answered]
  cases needAck with
  | false => exact ⟨deadline, _, hmove⟩
  | true =>
    refine ⟨deadline, (if finAcked then w.inputFinAcked i else w).nextAdv i, ?_⟩
    simp only [if_true, tcpSendAck_id, tcpSockets_sends, hmove]

/-- The stages of a segment behind its acknowledgement leave the send side and the timer
alone. -/
lemma tcpSockets_stages (seg : Segment) (acked : Bool) :
  ∃ nxt reorder fin deadline accepted, ((w.inputData i seg).inputFin i seg acked).tcpSockets i
    = { w.tcpSockets i with
        rcvNxt := nxt
        reorder := reorder
        peerFin := fin
        deadlineMs := deadline
        state := if accepted = true then stateAfterFin acked (w.tcpSockets i).state
          else (w.tcpSockets i).state }
  := by
  obtain ⟨nxt, reorder, sockets, mallocs, hdata, -⟩ := receives_inputData (w := w) (i := i) seg
  obtain ⟨nxt', fin, deadline, hfin⟩ := inputFin_eq (w := w.inputData i seg) (i := i) seg acked
  refine ⟨nxt', reorder, fin, deadline, finInOrder ((w.inputData i seg).tcpSockets i) seg, ?_⟩
  rw [hfin, hdata]
  simp [receives]

/-- Connection `i` when the acknowledgement, the payload and the FIN of a segment have been
processed. -/
def processed (w : Net) (i : ℕ) (seg : Segment) : Net :=
  ((w.inputAck i seg).2.inputData i seg).inputFin i seg (w.inputAck i seg).1

lemma tcpSockets_processed (seg : Segment) :
  ∃ nxt reorder fin deadline accepted, (w.processed i seg).tcpSockets i
    = { (w.inputAck i seg).2.tcpSockets i with
        rcvNxt := nxt
        reorder := reorder
        peerFin := fin
        deadlineMs := deadline
        state := if accepted = true then
            stateAfterFin (w.inputAck i seg).1 (w.tcpSockets i).state
          else (w.tcpSockets i).state }
  := by
  obtain ⟨snd, timer, hack⟩ := inputAck_eq (w := w) (i := i) seg
  obtain ⟨nxt, reorder, fin, deadline, accepted, hstages⟩ :=
    tcpSockets_stages (w := (w.inputAck i seg).2) (i := i) seg (w.inputAck i seg).1
  refine ⟨nxt, reorder, fin, deadline, accepted, ?_⟩
  rw [processed, hstages, hack]

/-- What a segment does to a connection past the SYN, resets apart. -/
lemma tcpInput_processed {seg : Segment} (hsyn : (w.tcpSockets i).state ≠ .synSent)
    (hrst : seg.flags.rst = false) :
  ∃ need, w.tcpInput i seg = (w.processed i seg).inputFinish i need (w.inputAck i seg).1
  := by
  rw [tcpInput, if_neg hsyn, hrst]
  exact ⟨_, rfl⟩

/-- A segment is looked up among the active connections. -/
lemma active_of_tcpLookup {seg : Segment} (h : w.tcpLookup seg = some i) :
  (w.tcpSockets i).active
  := by
  have := List.find?_some h
  simp only [Bool.and_eq_true] at this
  exact this.1.1.1

end Net
