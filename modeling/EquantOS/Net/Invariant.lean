import EquantOS.Net.Input
import EquantOS.Net.Socket

/-!
# Invariants of the stack

A property of the stack that survives the elementary changes of a connection survives
everything that the connection does.  What the elementary changes are is said once here,
and the functions of `net/tcp.c` are followed once; a transmission may poll the card, and
then the property has to survive the packets that the card delivers.
-/

namespace Net

/-- A connection block that has stayed with its owner: it has not been closed. -/
structure SameLink (s s' : TcpSocket) : Prop where
  active : s'.active = s.active
  owner : s'.owner = s.owner
  onEvent : s'.onEvent = s.onEvent
  remoteIp : s'.remoteIp = s.remoteIp
  closed : s'.state = .closed → s.state = .closed

/-- A socket that has kept its state and its connection. -/
structure SameEntry (e e' : SocketEntry) : Prop where
  state : e'.state = e.state
  type : e'.type = e.type
  tcb : e'.tcb = e.tcb

/-- Addresses that were known are known. -/
structure SameRoute (w w' : Net) : Prop where
  iface : w'.iface = w.iface
  arpCache : w.arpCache ⊆ w'.arpCache

lemma SameRoute.of_eq {w w' : Net} (hi : w'.iface = w.iface) (ha : w'.arpCache = w.arpCache) : SameRoute w w'
  := ⟨hi, ha ▸ List.Subset.refl _⟩

/-- A property that survives what connection `k` does while it stays with its owner, and the
polls of the card. -/
structure Quiet (poll : Net → Net) (k : ℕ) (P : Net → Prop) : Prop where
  tcp : ∀ {w f}, P w → SameLink (w.tcpSockets k) (f (w.tcpSockets k)) → P (w.modTcp k f)
  sock : ∀ {w j g}, P w → SameEntry (w.sockets j) (g (w.sockets j)) → P (w.modSock j g)
  rest : ∀ {w w'}, P w → w'.tcpSockets = w.tcpSockets → w'.sockets = w.sockets → w'.rx = w.rx →
    SameRoute w w' → P w'
  poll : ∀ {w}, P w → P (poll w)

variable {poll : Net → Net} {k : ℕ} {P : Net → Prop} {w : Net}

namespace Quiet

/-! ### Transmissions -/

section

variable (h : Quiet poll k P)

include h

lemma arpWait (target : BitVec 32) :
    ∀ (n : ℕ) {w : Net}, P w → P (arpWait poll target n w)
  | 0, _, hw => hw
  | n + 1, w, hw => by
    rw [Net.arpWait]
    split
    · exact h.poll hw
    · exact arpWait target n (h.poll hw)

lemma ipv4SendPacket (hw : P w) (iface : NetInterface)
    (destIp : BitVec 32) :
  P (w.ipv4SendPacket poll iface destIp)
  := by
  rw [Net.ipv4SendPacket]
  split
  · exact hw
  · exact h.arpWait _ _ hw

lemma xmit (hw : P w) (seq : BitVec 32) (flags : TcpFlags)
    (off len : ℕ) :
  P (w.tcpXmit poll k seq flags off len)
  := by
  rw [tcpXmit]
  split
  · exact hw
  have hwnd : P (w.tcpRcvWindow k).2 := by
    simp only [tcpRcvWindow]
    apply h.tcp hw
    exact ⟨rfl, rfl, rfl, rfl, id⟩
  apply h.ipv4SendPacket
  exact h.rest hwnd rfl rfl rfl (.of_eq rfl rfl)

lemma armRtx (hw : P w) : P (w.tcpArmRtx k) :=
  h.tcp hw ⟨rfl, rfl, rfl, rfl, id⟩

lemma ensureRtx (hw : P w) : P (w.tcpEnsureRtx k)
  := by
  rw [tcpEnsureRtx]
  split
  · exact hw
  · exact h.armRtx hw

lemma outputRound (hw : P w) (mss : ℕ) : P (w.outputRound poll k mss)
  := by
  apply h.ensureRtx
  apply h.tcp _ ⟨rfl, rfl, rfl, rfl, id⟩
  exact h.xmit hw _ _ _ _

lemma outputLoop (mss : ℕ) :
    ∀ (fuel : ℕ) {w : Net}, P w → P (outputLoop poll k mss fuel w)
  | 0, _, hw => hw
  | fuel + 1, w, hw => by
    rw [Net.outputLoop]
    split
    · exact hw
    · exact outputLoop mss fuel (h.outputRound hw mss)

lemma output (hw : P w) : P (w.tcpOutput poll k)
  := by
  have hfin : ∀ {v : Net}, P v → P (v.outputFin poll k) := by
    intro v hv
    rw [outputFin]
    split
    · apply h.ensureRtx
      apply h.tcp _ ⟨rfl, rfl, rfl, rfl, id⟩
      exact h.xmit hv _ _ _ _
    · exact hv
  rw [tcpOutput]
  split
  · rw [outputPersist]
    split
    · exact h.armRtx (hfin (h.outputLoop _ _ hw))
    · exact hfin (h.outputLoop _ _ hw)
  · exact hw

lemma write (hw : P w) (data : List Byte) : P (w.tcpWrite poll k data).2
  := by
  rw [tcpWrite]
  split
  · exact hw
  · split
    · exact hw
    · exact h.output (h.tcp hw ⟨rfl, rfl, rfl, rfl, id⟩)

lemma windowUpdate (hw : P w) : P (w.tcpWindowUpdate poll k)
  := by
  rcases tcpWindowUpdate_cases (w := w) (i := k) poll with heq | heq <;> rw [heq]
  · exact hw
  · exact h.xmit hw _ _ _ _

lemma shutdown (hw : P w) : P (w.tcpShutdown poll k)
  := by
  rw [tcpShutdown]
  split
  · exact hw
  split
  · exact h.output (h.tcp hw ⟨rfl, rfl, rfl, rfl, by simp⟩)
  · exact h.output (h.tcp hw ⟨rfl, rfl, rfl, rfl, by simp⟩)
  · exact hw

lemma retry (hw : P w) (now : BitVec 32) : P (w.timeoutRetry k now) :=
  h.tcp hw ⟨rfl, rfl, rfl, rfl, id⟩

/-- A timeout, as long as giving up keeps the property. -/
lemma timeout (hfail : ∀ {v : Net} (err : TcpError), P v → P (v.tcpFail k err))
    (hw : P w) (now : BitVec 32) :
  P (w.tcpTimeout poll k now)
  := by
  rw [tcpTimeout]
  split
  · split
    · exact hfail _ hw
    · exact h.retry (h.xmit hw _ _ _ _) now
  split
  · rw [timeoutPersist]
    apply h.tcp (h.xmit hw _ _ _ _)
    exact ⟨rfl, rfl, rfl, rfl, id⟩
  · split
    · exact hfail _ (h.xmit hw _ _ _ _)
    · exact h.retry (h.output (h.tcp hw ⟨rfl, rfl, rfl, rfl, id⟩)) now

/-! ### Delivery -/

lemma deliver (hw : P w) (data : List Byte) : P (w.tcpDeliver k data).2
  := by
  have hdata : P (w.sockTcpOnData k data).2 := by
    rw [sockTcpOnData]
    split
    · exact hw
    split
    · exact hw
    · simp only
      apply h.sock hw
      rw [SocketEntry.ringPush]
      split <;> exact ⟨rfl, rfl, rfl⟩
  simp only [tcpDeliver]
  apply h.tcp _ ⟨rfl, rfl, rfl, rfl, id⟩
  split
  · exact hdata
  · exact hw

lemma dropSlot (hw : P w) (slot : ℕ) : P (w.dropSlot k slot) :=
  h.tcp hw ⟨rfl, rfl, rfl, rfl, id⟩

lemma deliverInOrder (hw : P w) (data : List Byte) :
  P (w.deliverInOrder k data)
  := by
  rw [Net.deliverInOrder]
  split
  · apply tcpReorderDrain_induction (P := P)
    · intro v slot e hv _ _ _ _
      exact h.dropSlot (h.deliver hv _) slot
    · intro v slot hv
      exact h.dropSlot hv slot
    · exact h.deliver hw data
  · exact h.deliver hw data

lemma reorderInsert (hw : P w) (seq : BitVec 32) (data : List Byte) :
  P (w.tcpReorderInsert k seq data)
  := by
  have halloc : P w.kmalloc.2 := h.rest hw rfl rfl rfl (.of_eq rfl rfl)
  rw [tcpReorderInsert]
  simp only
  split
  · exact hw
  split
  · exact hw
  split
  · exact hw
  · split
    · exact h.tcp halloc ⟨rfl, rfl, rfl, rfl, id⟩
    · exact halloc

lemma inputData (hw : P w) (seg : Segment) : P (w.inputData k seg)
  := by
  rw [Net.inputData]
  split
  · split
    · exact h.deliverInOrder hw _
    split
    · split
      · exact h.deliverInOrder hw _
      · exact hw
    · exact h.reorderInsert hw _ _
  · exact hw

end

lemma and {Q : Net → Prop} (h : Quiet poll k P) (h' : Quiet poll k Q) :
    Quiet poll k fun w => P w ∧ Q w
  where
  tcp := fun hw hf => ⟨h.tcp hw.1 hf, h'.tcp hw.2 hf⟩
  sock := fun hw hg => ⟨h.sock hw.1 hg, h'.sock hw.2 hg⟩
  rest := fun hw ht hs hr ha => ⟨h.rest hw.1 ht hs hr ha, h'.rest hw.2 ht hs hr ha⟩
  poll := fun hw => ⟨h.poll hw.1, h'.poll hw.2⟩

/-- What is kept of a connection that is active. -/
lemma withActive (h : Quiet id k P) : Quiet id k fun w => P w ∧ (w.tcpSockets k).active
  where
  tcp := by
    rintro w f ⟨hw, hact⟩ hf
    refine ⟨h.tcp hw hf, ?_⟩
    rw [tcpSockets_modTcp, hf.active]
    exact hact
  sock := fun ⟨hw, hact⟩ hg => ⟨h.sock hw hg, hact⟩
  rest := by
    rintro w w' ⟨hw, hact⟩ ht hs hr ha
    refine ⟨h.rest hw ht hs hr ha, ?_⟩
    rw [ht]
    exact hact
  poll := id

end Quiet

lemma tcpSockets_tcpFree_of_ne {i : ℕ} (hi : i ≠ k) : (w.tcpFree k).tcpSockets i = w.tcpSockets i
  := by
  rw [tcpFree, tcpSockets_modTcp_of_ne hi, tcpSockets_tcpNotify, tcpSockets_modTcp_of_ne hi]

/-! ### Segments -/

/-- A property that survives what a segment does to connection `k`. -/
structure Handles (k : ℕ) (P : Net → Prop) : Prop extends Quiet id k P where
  notify : ∀ {w}, P w → (w.tcpSockets k).active → P (w.tcpNotify k)
  free : ∀ {w}, P w → P (w.tcpFree k)

namespace Handles

section

variable (h : Handles k P) (hw : P w)

include h hw

lemma fail (err : TcpError) : P (w.tcpFail k err) :=
  h.free (h.tcp hw ⟨rfl, rfl, rfl, rfl, id⟩)

lemma inputSynSent (hact : (w.tcpSockets k).active)
    (seg : Segment) :
  P (w.inputSynSent k seg)
  := by
  have hq := h.toQuiet.withActive
  rw [Net.inputSynSent]
  split
  · split
    · exact h.fail hw _
    · exact hw
  split
  · have hopen : P ((w.modTcp k fun s => { s with
        rcvNxt := seg.seq + 1
        sndUna := seg.ack
        sndWnd := seg.windowSize.toNat
        peerMss := tcpParseOptions seg.options tcpDefaultMss
        state := .established
        rtxArmed := false
        retries := 0
        rtoMs := tcpInitialRtoMs }).tcpSendAck id k) ∧ _ :=
      hq.xmit (hq.tcp ⟨hw, hact⟩ ⟨rfl, rfl, rfl, rfl, by simp⟩) _ _ _ _
    exact h.toQuiet.output (h.notify hopen.1 hopen.2)
  · exact hw

lemma inputRst (seg : Segment) : P (w.inputRst k seg)
  := by
  rw [Net.inputRst]
  split
  · split
    · exact h.free hw
    · exact h.free hw
    · exact h.free hw
    · exact h.fail hw _
  · exact hw

lemma inputAck (hact : (w.tcpSockets k).active) (seg : Segment) :
  P (w.inputAck k seg).2 ∧ ((w.inputAck k seg).2.tcpSockets k).active
  := by
  constructor
  · rw [Net.inputAck]
    split
    · rw [tcpProcessAck]
      simp only
      split
      · apply h.notify
        · exact h.tcp hw ⟨rfl, rfl, rfl, rfl, id⟩
        · rw [tcpSockets_modTcp]
          exact hact
      · split
        · exact h.tcp hw ⟨rfl, rfl, rfl, rfl, id⟩
        · exact hw
    · exact hw
  · obtain ⟨snd, timer, heq⟩ := inputAck_eq (w := w) (i := k) seg
    rw [heq]
    exact hact

lemma inputFin (hact : (w.tcpSockets k).active) (seg : Segment)
    (acked : Bool) :
  P (w.inputFin k seg acked)
  := by
  rw [Net.inputFin]
  split
  · apply h.notify
    · apply h.tcp hw
      refine ⟨rfl, rfl, rfl, rfl, ?_⟩
      cases hst : (w.tcpSockets k).state <;> simp [stateAfterFin]
      split <;> simp
    · rw [tcpSockets_modTcp]
      exact hact
  · exact hw

lemma inputFinish (need acked : Bool) :
  P (w.inputFinish k need acked)
  := by
  have hmove : P (if acked then w.inputFinAcked k else w) := by
    split
    · rw [inputFinAcked]
      split
      · exact h.tcp hw ⟨rfl, rfl, rfl, rfl, by simp⟩
      · exact h.tcp hw ⟨rfl, rfl, rfl, rfl, by simp⟩
      · exact hw
    · exact hw
  rw [Net.inputFinish]
  split
  · exact h.free hw
  apply h.toQuiet.output
  split
  · exact h.toQuiet.xmit hmove _ _ _ _
  · exact hmove

lemma input (hact : (w.tcpSockets k).active) (seg : Segment) :
  P (w.tcpInput k seg)
  := by
  rw [tcpInput]
  split
  · exact h.inputSynSent hw hact seg
  split
  · exact h.inputRst hw seg
  · obtain ⟨hack, hact'⟩ := h.inputAck hw hact seg
    obtain ⟨hdata, hact''⟩ := h.toQuiet.withActive.inputData ⟨hack, hact'⟩ seg
    exact h.inputFinish (h.inputFin hdata hact'' seg _) _ _

end

end Handles

/-- A property that survives what a segment does to any connection survives a packet. -/
lemma handlePacket_keeps (h : ∀ k, Handles k P) (hw : P w) (packet : Packet) :
  P (w.handlePacket packet)
  := by
  cases packet with
  | arp spa =>
    rw [handlePacket, arpUpdateCache]
    split
    · exact hw
    · exact (h 0).rest hw rfl rfl rfl ⟨rfl, List.subset_append_left _ _⟩
  | tcp seg =>
    rw [handlePacket, handleTcp]
    split
    next k hl => exact (h k).input hw (active_of_tcpLookup hl) seg
    · exact hw

/-- A property that survives what a segment does to any connection survives the polls of the
card, and so all that a connection does. -/
lemma quiet_poll (h : ∀ k, Handles k P) (hrx : ∀ {w : Net} (rx : List (List Packet)), P w →
    P { w with rx := rx }) (k : ℕ) :
    Quiet rtl8139Poll k P
  where
  tcp := (h k).tcp
  sock := (h k).sock
  rest := (h k).rest
  poll := by
    intro w hw
    rw [rtl8139Poll]
    split
    · exact hw
    next packets rest _ =>
      apply List.foldlRecOn (motive := P) packets
      · exact hrx rest hw
      · intro v hv packet _
        exact handlePacket_keeps h hv packet

/-! ### Socket calls -/

section

variable (h : ∀ k, Quiet poll k P) (hw : P w)

include h hw

/-- The socket's error is taken. -/
lemma takeErr_keeps (j : ℕ) :
  P (w.modSock j fun e => { e with err := 0 })
  := (h 0).sock hw ⟨rfl, rfl, rfl⟩

lemma sendRound_keeps (j : ℕ) (data : List Byte) :
  P (w.sendRound poll j data).2
  := by
  rw [sendRound]
  split
  next i _ =>
    split
    · exact (h i).write hw data
    · exact takeErr_keeps h hw j
  · exact takeErr_keeps h hw j

lemma sockSendto_keeps (j : ℕ) (data : List Byte) :
  P (w.sockSendto poll j data).2
  := by
  rw [sockSendto]
  split_ifs
  · exact hw
  · exact takeErr_keeps h hw j
  · exact hw
  · exact hw
  · exact hw
  · exact hw
  · exact hw
  · exact sendRound_keeps h hw j data

lemma sockRecvfrom_keeps (j len : ℕ) (peek : Bool) :
  P (w.sockRecvfrom poll j len peek).2
  := by
  have hrecv : P (w.recvBytes poll j len peek).2 := by
    have hpop : P (w.modSock j fun _ => ((w.sockets j).ringPop len peek).2) := by
      apply (h 0).sock hw
      rw [SocketEntry.ringPop]
      split
      · exact ⟨rfl, rfl, rfl⟩
      · exact ⟨rfl, rfl, rfl⟩
    rw [recvBytes]
    simp only
    split
    next i _ =>
      split
      · exact hpop
      · exact (h i).windowUpdate hpop
    · exact hpop
  rw [sockRecvfrom]
  simp only
  split_ifs
  · exact hw
  · exact hrecv
  · exact takeErr_keeps h hw j
  · exact hw
  · exact hw
  · exact hw
  · exact hw

lemma sockShutdown_keeps (j : ℕ) (rd wr : Bool) :
  P (w.sockShutdown poll j rd wr).2
  := by
  have hrd : P (if rd then w.modSock j fun e => { e with shutRd := true } else w) := by
    split
    · exact (h 0).sock hw ⟨rfl, rfl, rfl⟩
    · exact hw
  have hwr : P ((if rd then w.modSock j fun e => { e with shutRd := true } else w).modSock j
      fun e => { e with shutWr := true }) :=
    (h 0).sock hrd ⟨rfl, rfl, rfl⟩
  rw [sockShutdown]
  simp only
  split
  · exact hw
  split
  · exact hw
  split
  · split
    next i _ => exact (h i).shutdown hwr
    · exact hwr
  · exact hrd

end

end Net
