import EquantOS.Net.Invariant
import EquantOS.Net.Window

/-!
# The window over a run

A segment moves `rcv_nxt`, and if it does, it is answered by an acknowledgement: between
events `rcv_nxt` is where the last acknowledgement has said, and the promise of its window
is kept.  A read makes room; when the socket goes, the connection has no owner any more and
takes everything.
-/

open Serial

namespace Net

open SocketEntry Option

variable {i j n : ℕ} {w w' : Net} {base : List OutSegment}

namespace Promised

/-! ### Segments -/

lemma inputAck (h : Promised base i j n w) (seg : Segment) :
  Promised base i j n (w.inputAck i seg).2
  := by
  rw [Net.inputAck]
  split
  · rw [tcpProcessAck]
    simp only
    split
    · apply notify
      apply h.congr <;> simp [windowSide, modTcp, ackAdvance]
    · split
      · apply h.congr <;> simp [windowSide, modTcp]
      · exact h
  · exact h

/-- The payload of a segment. -/
lemma inputData (h : Promised base i j 0 w) (seg : Segment) :
  ∃ n, Promised base i j n (w.inputData i seg) ∧ n < 2 ^ 21 ∧ (seg.payload = [] → n = 0)
  := by
  obtain ⟨n, hgrown, hn, hnil, -⟩ := grown_inputData h.backed seg
  obtain ⟨nxt, reorder, sockets, mallocs, heq, hs⟩ := receives_inputData (w := w) (i := i) seg
  refine ⟨n, ⟨hgrown.backed, ?_, ?_⟩, hn, hnil⟩
  · rw [heq]
    intro k hk
    apply h.link k
    have hsock := (hs j).1
    change (sockets j).tcb = some k at hk
    rw [hsock] at hk
    exact hk
  · obtain ⟨log, hlog, hchain, hnone, hlast⟩ := h.log
    have hsent : (w.inputData i seg).sent = w.sent := by
      rw [heq]
      rfl
    have hiface : (w.inputData i seg).iface = w.iface := by
      rw [heq]
      rfl
    have hact : ((w.inputData i seg).tcpSockets i).active = (w.tcpSockets i).active := by
      rw [heq]
      simp [receives]
    have hstate : ((w.inputData i seg).tcpSockets i).state = (w.tcpSockets i).state := by
      rw [heq]
      simp [receives]
    refine ⟨log, hsent.trans hlog, hchain, ?_, ?_⟩
    · rw [hiface]
      exact hnone
    rw [hact, hstate]
    intro ha last hl
    obtain ⟨hst, hnxt, hroom⟩ := hlast ha last hl
    have hspace := hgrown.space
    refine ⟨hst, ?_, by omega⟩
    rw [hgrown.nxt, hnxt, after_zero]

/-- The FIN of a segment counts as a byte. -/
lemma inputFin (h : Promised base i j n w) (seg : Segment) (acked : Bool) :
  Promised base i j (if finInOrder (w.tcpSockets i) seg then n + 1 else n)
    (w.inputFin i seg acked)
  := by
  rw [Net.inputFin]
  split
  · apply notify
    refine ⟨⟨by simpa using h.backed.owned, h.backed.used, by simpa using h.backed.slots⟩,
      h.link, ?_⟩
    obtain ⟨log, hlog, hchain, hnone, hlast⟩ := h.log
    refine ⟨log, hlog, hchain, hnone, ?_⟩
    intro hact last hl
    rw [tcpSockets_modTcp] at hact ⊢
    obtain ⟨hst, hnxt, hroom⟩ := hlast hact last hl
    refine ⟨?_, ?_, ?_⟩
    · cases hs : (w.tcpSockets i).state <;> simp [stateAfterFin, hs] at hst ⊢
      split <;> simp
    · rw [tcpSockets_modTcp, hnxt, ← after_after]
      rfl
    · simp only [advertised, sockTcpRxSpace, tcpSockets_modTcp, sockets_modTcp] at hroom ⊢
      omega
  · exact h

/-- The segment is answered if it has moved `rcv_nxt`. -/
lemma inputFinish (h : Promised base i j n w) (hn : n < 2 ^ 30) (hact : (w.tcpSockets i).active)
    (hst : (w.tcpSockets i).state ≠ .synSent) {need : Bool} (hneed : need = false → n = 0)
    (acked : Bool) :
  Promised base i j 0 (w.inputFinish i need acked)
  := by
  rw [inputFinish_eq]
  split
  · exact h.free
  have hmove : Promised base i j n (if acked then w.inputFinAcked i else w) := by
    split
    · rw [inputFinAcked]
      split
      · apply h.congr <;> simp [windowSide, modTcp]
      · apply h.congr <;> simp [windowSide, modTcp]
      · exact h
    · exact h
  have hmoved : ((if acked then w.inputFinAcked i else w).tcpSockets i).active
      ∧ ((if acked then w.inputFinAcked i else w).tcpSockets i).state ≠ .synSent := by
    split
    · obtain ⟨deadline, heq⟩ := inputFinAcked_eq (w := w) (i := i)
      rw [heq]
      refine ⟨hact, ?_⟩
      cases hs : (w.tcpSockets i).state <;> simp [stateAfterFinAck, hs] at hst ⊢
    · exact ⟨hact, hst⟩
  cases need with
  | false =>
    obtain rfl := hneed rfl
    exact hmove.output hmoved.1
  | true =>
    refine (hmove.sendAck hn hmoved.1 hmoved.2).output ?_
    rw [tcpSendAck_id, tcpSockets_sends]
    exact hmoved.1

section

variable (h : Promised base i j 0 w)

include h

lemma processed (hact : (w.tcpSockets i).active)
    (hst : (w.tcpSockets i).state ≠ .synSent) (seg : Segment) :
  Promised base i j 0 ((w.processed i seg).inputFinish i
    (needAck (((w.inputAck i seg).2.inputData i seg).tcpSockets i) seg) (w.inputAck i seg).1)
  := by
  obtain ⟨n, hdata, hn, hnil⟩ := (h.inputAck seg).inputData seg
  have hfin := hdata.inputFin seg (w.inputAck i seg).1
  obtain ⟨nxt, reorder, fin, deadline, accepted, heq⟩ := tcpSockets_processed (w := w) (i := i) seg
  obtain ⟨snd, timer, hack⟩ := inputAck_eq (w := w) (i := i) seg
  apply Promised.inputFinish hfin
  · split <;> omega
  · change ((w.processed i seg).tcpSockets i).active
    rw [heq, hack]
    exact hact
  · change ((w.processed i seg).tcpSockets i).state ≠ .synSent
    rw [heq]
    split
    · cases hs : (w.tcpSockets i).state <;> simp [stateAfterFin, hs] at hst ⊢
      split <;> simp
    · exact hst
  · intro hneed
    simp only [needAck, Bool.or_eq_false_iff, decide_eq_false_iff_not, not_not] at hneed
    rw [hneed.1.2]
    simpa using hnil hneed.1.1

/-- Before the answer to the SYN nothing has been acknowledged. -/
lemma inputSynSent (hact : (w.tcpSockets i).active)
    (hst : (w.tcpSockets i).state = .synSent) (seg : Segment) :
  Promised base i j 0 (w.inputSynSent i seg)
  := by
  rw [Net.inputSynSent]
  split
  · split
    · exact h.fail _
    · exact h
  split
  · have hopen : Promised base i j 0 (w.modTcp i fun s => { s with
        rcvNxt := seg.seq + 1
        sndUna := seg.ack
        sndWnd := seg.windowSize.toNat
        peerMss := tcpParseOptions seg.options tcpDefaultMss
        state := .established
        rtxArmed := false
        retries := 0
        rtoMs := tcpInitialRtoMs }) := by
      refine ⟨⟨by simpa using h.backed.owned, h.backed.used, by simpa using h.backed.slots⟩,
        h.link, ?_⟩
      obtain ⟨log, hlog, hchain, hnone, hlast⟩ := h.log
      refine ⟨log, hlog, hchain, hnone, ?_⟩
      intro _ last hl
      exact absurd hst (hlast hact last hl).1
    have hack := hopen.sendAck (by omega) (by simpa using hact) (by simp)
    refine hack.notify.output ?_
    rw [tcpSockets_tcpNotify, tcpSendAck_id, tcpSockets_sends, tcpSockets_modTcp]
    exact hact
  · exact h

lemma inputRst (seg : Segment) :
  Promised base i j 0 (w.inputRst i seg)
  := by
  rw [Net.inputRst]
  split
  · split
    · exact h.free
    · exact h.free
    · exact h.free
    · exact h.fail _
  · exact h

lemma input (hact : (w.tcpSockets i).active) (seg : Segment) :
  Promised base i j 0 (w.tcpInput i seg)
  := by
  rw [tcpInput]
  split
  next hst => exact h.inputSynSent hact hst seg
  next hst =>
    split
    · exact h.inputRst seg
    · exact h.processed hact hst seg

end

/-! ### Reading -/

/-- More room in the ring of the owner. -/
lemma roomier (h : Promised base i j n w) {e : SocketEntry}
    (hring : e.rxRing = (w.sockets j).rxRing) (htcb : e.tcb = (w.sockets j).tcb)
    (hused : e.ringUsed.toNat ≤ (w.sockets j).ringUsed.toNat) :
  Promised base i j n (w.modSock j fun _ => e)
  := by
  have hle := h.backed.used
  have hadv : w.advertised i ≤ (w.modSock j fun _ => e).advertised i := by
    simp only [advertised, sockTcpRxSpace, tcpSockets_modSock]
    cases ho : (w.tcpSockets i).owner with
    | none => exact le_rfl
    | some k =>
      obtain ⟨rfl, -, hspace, hsome⟩ := h.backed.owned k ho
      simp only [hspace, if_true, sockets_modSock]
      rw [toNat_ringFree hsome hle, toNat_ringFree (hring ▸ hsome) (hused.trans hle)]
      omega
  refine ⟨⟨?_, ?_, h.backed.slots⟩, ?_, ?_⟩
  · intro k hk
    rw [sockets_modSock, hring]
    exact h.backed.owned k hk
  · rw [sockets_modSock]
    omega
  · rw [sockets_modSock, htcb]
    exact h.link
  · obtain ⟨log, hlog, hchain, hnone, hlast⟩ := h.log
    refine ⟨log, hlog, hchain, hnone, ?_⟩
    intro hact last hl
    obtain ⟨hst, hnxt, hroom⟩ := hlast hact last hl
    exact ⟨hst, hnxt, by omega⟩

lemma recvBytes (h : Promised base i j 0 w) (len : ℕ) (peek : Bool) :
  Promised base i j 0 (w.recvBytes id j len peek).2
  := by
  have hpop : Promised base i j 0 (w.modSock j fun _ => ((w.sockets j).ringPop len peek).2) := by
    cases peek with
    | true => exact h.roomier rfl rfl le_rfl
    | false =>
      apply h.roomier
      · simp [ringPop]
      · simp [ringPop]
      · have hlen := congrArg List.length (contents_ringPop h.backed.used len).1
        rw [List.length_append, length_contents, length_contents] at hlen
        omega
  rw [Net.recvBytes]
  split
  next k hk =>
    obtain rfl := hpop.link k hk
    split
    · exact hpop
    · exact hpop.windowUpdate
  · exact hpop

/-! ### Socket calls -/

/-- A change of the socket that concerns neither its ring nor its connection. -/
lemma sock (h : Promised base i j n w) {g : SocketEntry → SocketEntry}
    (hspace : spaceSide (g (w.sockets j)) = spaceSide (w.sockets j))
    (htcb : ∀ k, (g (w.sockets j)).tcb = some k → (w.sockets j).tcb = some k) :
  Promised base i j n (w.modSock j g)
  := by
  apply h.congr
  · rfl
  · rw [sockets_modSock]
    exact hspace
  · rw [sockets_modSock]
    exact htcb
  · exact id
  · exact id
  · rfl
  · rfl

lemma takeErr (h : Promised base i j n w) :
  Promised base i j n (w.modSock j fun e => { e with err := 0 })
  := h.sock rfl fun _ => id

section

variable (h : Promised base i j 0 w)

include h

lemma sockRecvfrom (len : ℕ) (peek : Bool) :
  Promised base i j 0 (w.sockRecvfrom id j len peek).2
  := by
  rw [Net.sockRecvfrom]
  simp only
  split_ifs
  · exact h
  · exact h.recvBytes len peek
  · exact h.takeErr
  · exact h
  · exact h
  · exact h
  · exact h

lemma sendRound (data : List Byte) :
  Promised base i j 0 (w.sendRound id j data).2
  := by
  rw [Net.sendRound]
  split
  next k hk =>
    obtain rfl := h.link k hk
    split
    · exact h.write data
    · exact h.takeErr
  · exact h.takeErr

lemma sockSendto (data : List Byte) :
  Promised base i j 0 (w.sockSendto id j data).2
  := by
  rw [Net.sockSendto]
  split_ifs
  · exact h
  · exact h.takeErr
  · exact h
  · exact h
  · exact h
  · exact h
  · exact h
  · exact h.sendRound data

lemma sockShutdown (rd wr : Bool) :
  Promised base i j 0 (w.sockShutdown id j rd wr).2
  := by
  have hrd : Promised base i j 0 (if rd then w.modSock j fun e => { e with shutRd := true }
      else w) := by
    split
    · exact h.sock rfl fun _ => id
    · exact h
  have hwr : Promised base i j 0 ((if rd then w.modSock j fun e => { e with shutRd := true }
      else w).modSock j fun e => { e with shutWr := true }) :=
    hrd.sock rfl fun _ => id
  rw [Net.sockShutdown]
  simp only
  split
  · exact h
  split
  · exact h
  split
  · split
    next k hk =>
      obtain rfl := hwr.link k hk
      exact hwr.shutdown
    · exact hwr
  · exact hrd

end

end Promised

/-! ### Closing -/

/-- Connection `i` is there as long as it has an owner, and socket `j` points back to it. -/
structure Attached (i j : ℕ) (w : Net) : Prop where
  gone : (w.tcpSockets i).active = false → (w.tcpSockets i).owner = none
  live : (w.tcpSockets i).active → (w.tcpSockets i).state ≠ .closed
  back : (w.tcpSockets i).owner = some j → (w.sockets j).tcb = some i

lemma quiet_attached (i j k : ℕ) : Quiet id k (Attached i j) where
  tcp := by
    intro w f h hf
    by_cases hk : i = k
    · subst hk
      refine ⟨?_, ?_, ?_⟩
      · rw [tcpSockets_modTcp, hf.active, hf.owner]
        exact h.gone
      · rw [tcpSockets_modTcp, hf.active]
        exact fun ha hc => h.live ha (hf.closed hc)
      · rw [tcpSockets_modTcp, hf.owner]
        exact h.back
    · constructor <;> rw [tcpSockets_modTcp_of_ne hk]
      exacts [h.gone, h.live, h.back]
  sock := by
    intro w l g h hg
    refine ⟨h.gone, h.live, ?_⟩
    intro ho
    by_cases hl : j = l
    · subst hl
      rw [sockets_modSock, hg.tcb]
      exact h.back ho
    · rw [sockets_modSock_of_ne hl]
      exact h.back ho
  rest := by
    intro w w' h ht hs _ _
    constructor <;> simp only [ht, hs]
    exacts [h.gone, h.live, h.back]
  poll := id

lemma handles_attached (i j : ℕ) : Handles i (Attached i j) where
  toQuiet := quiet_attached i j i
  notify := by
    intro w h ha
    constructor <;> simp only [tcpSockets_tcpNotify, tcb_tcpNotify (h.live ha)]
    exacts [h.gone, h.live, h.back]
  free := by
    intro w h
    constructor <;> simp

/-- A connection without an owner gets none. -/
lemma handles_orphan (i : ℕ) : Handles i fun w => (w.tcpSockets i).owner = none where
  tcp := by
    intro w f h hf
    rw [tcpSockets_modTcp, hf.owner]
    exact h
  sock := fun h _ => h
  rest := by
    intro w w' h ht _ _ _
    rw [ht]
    exact h
  poll := id
  notify := by
    intro w h _
    rw [tcpSockets_tcpNotify]
    exact h
  free := by
    intro w h
    simp

lemma attached_orphan (ho : (w.tcpSockets i).owner = none)
    (hlive : (w.tcpSockets i).active → (w.tcpSockets i).state ≠ .closed) :
  Attached i j w
  := ⟨fun _ => ho, hlive, by simp [ho]⟩

/-- After `sock_close` has let go of its connection, the connection has no owner. -/
lemma Attached.closeTcb (h : Attached i j w) (hlink : ∀ k, (w.sockets j).tcb = some k → k = i)
    (howner : ∀ k, (w.tcpSockets i).owner = some k → k = j) :
  Attached i j (w.closeTcb id j) ∧ ((w.closeTcb id j).tcpSockets i).owner = none
  := by
  rw [Net.closeTcb]
  cases hj : (w.sockets j).tcb with
  | none =>
    refine ⟨h, eq_none_iff_forall_ne_some.mpr fun k ho => ?_⟩
    obtain rfl := howner k ho
    rw [h.back ho] at hj
    cases hj
  | some k =>
    obtain rfl := hlink k hj
    have hgone : (w.tcpSockets k).active = false →
        Attached k j (w.modSock j fun e => { e with tcb := none }) :=
      fun hact => attached_orphan (h.gone hact) h.live
    have hfree : ∀ v : Net, Attached k j (v.tcpFree k) ∧ ((v.tcpFree k).tcpSockets k).owner = none :=
      fun v => ⟨attached_orphan (by simp) (by simp), by simp⟩
    simp only
    split
    · rw [tcpAbort]
      simp only
      split
      · exact hfree _
      next hact =>
        have hact : (w.tcpSockets k).active = false := by simpa using hact
        exact ⟨hgone hact, h.gone hact⟩
    · rw [tcpClose]
      split
      · simp only
        split
        · exact hfree _
        · have hq := (quiet_attached k j k).and (handles_orphan k).toQuiet
          apply hq.shutdown
          exact ⟨attached_orphan (by simp) (by simpa using h.live), by simp⟩
      next hact =>
        have hact : (w.tcpSockets k).active = false := by simpa using hact
        exact ⟨hgone hact, h.gone hact⟩

lemma Promised.closeTcb (h : Promised base i j 0 w) :
  Promised base i j 0 (w.closeTcb id j)
  := by
  rw [Net.closeTcb]
  split
  next k hk =>
    obtain rfl := h.link k hk
    have hcut : Promised base k j 0 (w.modSock j fun e => { e with tcb := none }) :=
      h.sock rfl (by simp)
    simp only
    split
    · exact hcut.abort
    · exact hcut.close
  · exact h

/-- The socket of a connection without an owner may be cleared. -/
lemma Promised.clear (h : Promised base i j 0 w) (ho : (w.tcpSockets i).owner = none) :
  Promised base i j 0 (w.modSock j fun _ => sockCleared .free .stream)
  := by
  refine ⟨⟨by simp [ho], by simp [sockCleared, ringUsed], h.backed.slots⟩,
    by simp [sockCleared], ?_⟩
  obtain ⟨log, hlog, hchain, hnone, hlast⟩ := h.log
  refine ⟨log, hlog, hchain, hnone, ?_⟩
  intro hact last hl
  obtain ⟨hst, hnxt, hroom⟩ := hlast hact last hl
  refine ⟨hst, hnxt, ?_⟩
  simp only [advertised, sockTcpRxSpace, ho, tcpSockets_modSock] at hroom ⊢
  exact hroom

/-! ### Runs -/

/-- The states in which stream socket `j` has been created and not been connected: attempts to
connect it have failed, and the rest of the stack has left it alone. -/
inductive Created (j : ℕ) : Net → Prop where
  | create {w w' : Net} : w.sockCreate .stream = (.ok j, w') → Created j w'
  | retry {w w' : Net} {ring buf : ℕ → Byte} {ip : BitVec 32} {port : BitVec 16} {err : ℕ} :
      Created j w → w.sockConnect id ring buf j ip port = (.error err, w') → err ≠ 115 →
      Created j w'
  | other {w w' : Net} : Created j w → w'.sockets j = w.sockets j → Created j w'

/-- A stream socket with an empty ring. -/
structure Unconnected (e : SocketEntry) : Prop where
  state : e.state = .idle
  type : e.type = .stream
  used : e.ringUsed = 0

/-- The ring that `sock_connect` uses is empty. -/
lemma Unconnected.ring (h : Unconnected (w.sockets j)) (ring : ℕ → Byte) :
  Unconnected ((w.connectRing ring j).2.sockets j)
    ∧ ((w.connectRing ring j).1 → ((w.connectRing ring j).2.sockets j).rxRing.isSome)
  := by
  rw [connectRing]
  split
  · simp only
    split
    next hok =>
      refine ⟨⟨?_, ?_, ?_⟩, ?_⟩ <;> simp [kmalloc, h.state, h.type, ringUsed]
    next hok => exact ⟨h, fun hok' => absurd hok' hok⟩
  next hring => exact ⟨h, fun _ => by simpa [isSome_iff_ne_none] using hring⟩

variable {buf ring : ℕ → Byte} {ip : BitVec 32} {port : BitVec 16}

/-- A connection is opened, or the socket is as before. -/
lemma Unconnected.connect {err : ℕ}
    (h : Unconnected (w.sockets j)) (hc : w.sockConnect id ring buf j ip port = (.error err, w')) :
  Unconnected (w'.sockets j) ∧ err ≠ 115
    ∨ ∃ (v v' : Net) (i : ℕ), v.tcpConnect id buf ip port j = (some i, v')
      ∧ (v'.sockets j).rxRing.isSome
      ∧ (v'.sockets j).ringUsed = 0 ∧ err = 115 ∧ w' = v'.modSock j fun e => { e with
          tcb := some i, localPort := (v'.tcpSockets i).localPort }
  := by
  have herr : ∀ {e : ℕ} {v : Net}, ((.error e : Except ℕ ℕ), v) = (.error err, w') →
      err = e ∧ w' = v := by
    intro e v heq
    obtain ⟨he, hv⟩ := Prod.mk.inj heq
    exact ⟨(Except.error.inj he).symm, hv.symm⟩
  obtain ⟨hring, hsome⟩ := h.ring ring
  rw [sockConnect] at hc
  split at hc
  · obtain ⟨rfl, rfl⟩ := herr hc
    exact Or.inl ⟨h, by decide⟩
  simp only [h.type, h.state] at hc
  split at hc
  · obtain ⟨rfl, rfl⟩ := herr hc
    exact Or.inl ⟨h, by decide⟩
  split at hc
  next hok =>
    rw [connectOpen] at hc
    have hsock := sockets_tcpConnect buf ip port j (w := (w.connectRing ring j).2.modSock j fun e =>
      { e with remoteIp := ip, remotePort := port, err := 0, peerClosed := false,
               state := .connecting })
    revert hc hsock
    rcases hconn : Net.tcpConnect id buf _ ip port j with ⟨_ | i, v'⟩
    · intro hc hsock
      obtain ⟨rfl, rfl⟩ := herr hc
      refine Or.inl ⟨⟨?_, ?_, ?_⟩, by decide⟩
      · simp
      · simp only [sockets_modSock]
        rw [hsock]
        simpa using hring.type
      · simp only [sockets_modSock]
        rw [hsock]
        simpa [ringUsed] using hring.used
    · intro hc hsock
      obtain ⟨rfl, rfl⟩ := herr hc
      refine Or.inr ⟨_, v', i, hconn, ?_, ?_, rfl, rfl⟩
      · rw [hsock]
        simpa using hsome hok
      · rw [hsock]
        simpa [ringUsed] using hring.used
  · obtain ⟨rfl, rfl⟩ := herr hc
    exact Or.inl ⟨hring, by decide⟩

end Net

/-- What happens to a connection and its socket: a segment arrives, the application receives,
sends, shuts down or closes, the timer fires, time passes.  A call that blocks goes on with
`connected` and `resend`. -/
inductive SocketEvent where
  | segment (seg : Segment)
  | connected
  | recv (len : ℕ) (peek : Bool)
  | send (data : List Byte)
  | resend (data : List Byte)
  | shutdown (rd wr : Bool)
  | close
  | timer (nowMs : BitVec 32)
  | time (ticks : BitVec 32)

/-- The effect of an event on connection `i` and socket `j`; only segments for the connection
count. -/
def SocketEvent.step (i j : ℕ) (w : Net) : SocketEvent → Net
  | .segment seg => if w.tcpLookup seg = some i then w.handleTcp seg else w
  | .connected => (w.connectResult j).2
  | .recv len peek => (w.sockRecvfrom id j len peek).2
  | .send data => (w.sockSendto id j data).2
  | .resend data => (w.sendRound id j data).2
  | .shutdown rd wr => (w.sockShutdown id j rd wr).2
  | .close => (w.sockClose id j).2
  | .timer nowMs => Net.tickSocket id nowMs w i
  | .time ticks => { w with tick := ticks }

namespace Net

variable {i j : ℕ} {w : Net} {base : List OutSegment}

lemma Promised.event (h : Promised base i j 0 w) (ha : Attached i j w) (e : SocketEvent) :
  Promised base i j 0 (e.step i j w) ∧ Attached i j (e.step i j w)
  := by
  cases e with
  | segment seg =>
    rw [SocketEvent.step]
    split
    next hl =>
      rw [handleTcp, hl]
      have hact := active_of_tcpLookup hl
      exact ⟨h.input hact seg, (handles_attached i j).input ha hact seg⟩
    · exact ⟨h, ha⟩
  | connected =>
    simp only [SocketEvent.step, connectResult]
    split
    · exact ⟨h, ha⟩
    · exact ⟨h.takeErr, takeErr_keeps (quiet_attached i j) ha j⟩
  | recv len peek =>
    exact ⟨h.sockRecvfrom len peek, sockRecvfrom_keeps (quiet_attached i j) ha j len peek⟩
  | send data => exact ⟨h.sockSendto data, sockSendto_keeps (quiet_attached i j) ha j data⟩
  | resend data => exact ⟨h.sendRound data, sendRound_keeps (quiet_attached i j) ha j data⟩
  | shutdown rd wr =>
    exact ⟨h.sockShutdown rd wr, sockShutdown_keeps (quiet_attached i j) ha j rd wr⟩
  | close =>
    rw [SocketEvent.step, sockClose]
    split
    · exact ⟨h, ha⟩
    · obtain ⟨hclosed, ho⟩ := ha.closeTcb h.link fun k hk => (h.backed.owned k hk).1
      exact ⟨h.closeTcb.clear ho, attached_orphan ho hclosed.live⟩
  | timer nowMs =>
    rw [SocketEvent.step, tickSocket]
    split
    · exact ⟨h, ha⟩
    next hact =>
      split
      · exact ⟨h.free, (handles_attached i j).free ha⟩
      split
      · refine ⟨h.timeout (by simpa using hact) nowMs, ?_⟩
        exact (quiet_attached i j i).timeout (fun err hv => (handles_attached i j).fail hv err) ha nowMs
      · exact ⟨h, ha⟩
  | time ticks =>
    refine ⟨?_, (quiet_attached i j i).rest ha rfl rfl rfl (.of_eq rfl rfl)⟩
    apply h.congr
    exacts [rfl, rfl, fun _ => id, id, id, rfl, rfl]

/-- The state after a sequence of events. -/
def runSocket (i j : ℕ) (w : Net) (es : List SocketEvent) : Net :=
  es.foldl (SocketEvent.step i j) w

lemma Promised.run {es : List SocketEvent} (h : Promised base i j 0 w) (ha : Attached i j w) :
  Promised base i j 0 (runSocket i j w es)
  := by
  induction es generalizing w with
  | nil => exact h
  | cons e es ih =>
    obtain ⟨h', ha'⟩ := h.event ha e
    exact ih h' ha'

/-- The first socket after the start. -/
def firstSocket : Net := ((boot (fun _ => true) []).sockCreate .stream).2

/-- Its connection, with the SYN on its way. -/
def connecting : Net := (firstSocket.sockConnect id (fun _ => 0) (fun _ => 0) 0 7 80).2

end Net
