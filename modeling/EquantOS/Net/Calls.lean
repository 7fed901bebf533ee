import EquantOS.Net.Linkage
import EquantOS.Net.Polling

/-!
# Socket calls

A connection is opened by `sock_connect`, which points to the block when `tcp_connect`
returns.  If the SYN has to wait for the address of the next hop, packets are handled in
between, and a reset that passes for an answer to the SYN may release the block too early.
Otherwise sockets and connections point to each other whenever a call returns.
-/

open List

namespace Net

open Option

variable {w : Net} {i j k : ℕ}

/-! ### Opening a connection -/

/-- Connection `i` of socket `j` has been opened, but the socket does not point to it yet. -/
structure Opening (i j : ℕ) (w : Net) : Prop where
  link : Linkage (some (i, j)) w
  active : (w.tcpSockets i).active
  owner : (w.tcpSockets i).owner = some j
  type : (w.sockets j).type = .stream
  state : (w.sockets j).state ≠ .idle

lemma stream_tcpNotify
    (h : (w.sockets j).type = .stream ∧ (w.sockets j).state ≠ .idle) :
  ((w.tcpNotify k).sockets j).type = .stream ∧ ((w.tcpNotify k).sockets j).state ≠ .idle
  := by
  rw [tcpNotify]
  split
  · rw [sockTcpOnEvent]
    split
    · exact h
    next l _ =>
      by_cases hl : j = l
      · subst hl
        rw [sockets_modSock, onEvent]
        cases (w.tcpSockets k).state <;> cases (w.tcpSockets k).peerFin <;> simp [h]
        all_goals
          split <;> simp [h]
      · rw [sockets_modSock_of_ne hl]
        exact h
  · exact h

/-- A stream socket that is not idle stays one. -/
lemma handles_stream (j k : ℕ) :
    Handles k fun w => (w.sockets j).type = .stream ∧ (w.sockets j).state ≠ .idle
  where
  tcp := fun h _ => h
  sock := by
    intro w l g h hg
    by_cases hl : j = l
    · subst hl
      rw [sockets_modSock, hg.type, hg.state]
      exact h
    · rw [sockets_modSock_of_ne hl]
      exact h
  rest := by
    intro w w' h _ hs _ _
    rw [hs]
    exact h
  poll := id
  notify := fun h _ => stream_tcpNotify h
  free := fun h => stream_tcpNotify (w := modTcp _ k _) h

variable {s s' : TcpSocket} {buf : ℕ → Byte} {ip : BitVec 32} {port : BitVec 16}

/-- A block opened as `s` that no reset has hit: neither side has closed. -/
structure Unclosed (s s' : TcpSocket) : Prop where
  active : s'.active
  owner : s'.owner = s.owner
  state : s'.state = .synSent ∨ s'.state = .established ∨ s'.state = .closeWait
  localPort : s'.localPort = s.localPort
  remoteIp : s'.remoteIp = s.remoteIp
  remotePort : s'.remotePort = s.remotePort

/-- The packet is no reset for block `s`. -/
def NoReset (s : TcpSocket) (packet : Packet) : Prop :=
  ∀ seg, packet = .tcp seg → seg.destPort = s.localPort → seg.srcIp = s.remoteIp →
    seg.srcPort = s.remotePort → seg.flags.rst = false

/-- A segment without a reset leaves a connection in use that this side has not closed. -/
lemma Unclosed.input (h : Unclosed s (w.tcpSockets i)) {seg : Segment} (hrst : seg.flags.rst = false) :
  Unclosed s ((w.tcpInput i seg).tcpSockets i)
  := by
  by_cases hsyn : (w.tcpSockets i).state = .synSent
  · rw [tcpInput, if_pos hsyn, inputSynSent]
    dsimp only
    rw [if_neg (by simp [hrst])]
    split
    · obtain ⟨nxt, fin, timer, adv, log, hout, -⟩ := tcpOutput_id (i := i) (w := tcpNotify _ i)
      rw [hout, tcpSockets_sends, tcpSockets_tcpNotify, tcpSendAck, tcpXmit_id, tcpSockets_sends, tcpSockets_modTcp]
      exact ⟨h.active, h.owner, .inr (.inl rfl), h.localPort, h.remoteIp, h.remotePort⟩
    · exact h
  obtain ⟨snd, timer, hack⟩ := inputAck_eq (w := w) (i := i) seg
  obtain ⟨nxt, reorder, fin, deadline, accepted, hproc⟩ := tcpSockets_processed (w := w) (i := i) seg
  have hopen : Unclosed s ((w.processed i seg).tcpSockets i) ∧ ((w.processed i seg).tcpSockets i).state ≠ .synSent := by
    rw [hproc, hack]
    have hstate := h.state.resolve_left hsyn
    refine ⟨⟨h.active, h.owner, ?_, h.localPort, h.remoteIp, h.remotePort⟩, ?_⟩
    all_goals
      rcases hstate with hst | hst <;> cases accepted <;> simp [hst, stateAfterFin]
  obtain ⟨hopen, hpast⟩ := hopen
  obtain ⟨need, heq⟩ := tcpInput_processed hsyn hrst
  rw [heq, inputFinish_eq, if_neg]
  · obtain ⟨nxt, fin, timer, adv, log, hout, -⟩ :=
      tcpOutput_id (w := (w.processed i seg).answered i need (w.inputAck i seg).1) (i := i)
    obtain ⟨deadline, adv, hans⟩ := tcpSockets_answered (w := w.processed i seg) (i := i) need (w.inputAck i seg).1
    rw [hout, tcpSockets_sends, hans]
    refine ⟨hopen.active, hopen.owner, ?_, hopen.localPort, hopen.remoteIp, hopen.remotePort⟩
    rcases hopen.state.resolve_left hpast with hst | hst <;> simp [hst, stateAfterFinAck]
  · rintro ⟨-, hlast⟩
    rcases hopen.state with hst | hst | hst <;> rw [hst] at hlast <;> cases hlast

lemma Unclosed.packet (h : Unclosed s (w.tcpSockets i)) {packet : Packet} (hp : NoReset s packet) :
  Unclosed s ((w.handlePacket packet).tcpSockets i)
  := by
  apply block_packet (Q := Unclosed s) h
  rintro seg rfl hl
  obtain ⟨hdest, hip, hport⟩ := tcpLookup_matches hl
  exact h.input (hp seg rfl (hdest.trans h.localPort) (hip.trans h.remoteIp) (hport.trans h.remotePort))

/-- The SYN of block `s` goes out undisturbed: the next hop is known, or no answer to the SYN or no reset
comes while it waits. -/
def Undisturbed (s : TcpSocket) (w : Net) : Prop :=
  Unanswered s w ∨ Waits (NoReset s) s.remoteIp w

/-- A block whose SYN goes out undisturbed stays in use. -/
lemma unclosed_syn (h : w.tcpSockets i = s) (hact : s.active) (hs : s.state = .synSent) (hp : Undisturbed s w)
    (seq : BitVec 32) :
  Unclosed s ((w.tcpXmit rtl8139Poll i seq { syn := true } 0 0).tcpSockets i)
  := by
  have hself : ∀ adv, Unclosed s { s with lastAdvWnd := adv } :=
    fun _ => ⟨hact, rfl, .inl hs, rfl, rfl, rfl⟩
  rcases hp with hp | hp
  · obtain ⟨adv, heq⟩ := block_unanswered h hs hp seq
    rw [heq]
    exact hself adv
  · apply block_syn (Q := Unclosed s) (fun hv hno => hv.packet hno)
    · intro s' adv hv
      exact ⟨hv.active, hv.owner, hv.state, hv.localPort, hv.remoteIp, hv.remotePort⟩
    · rw [h]
      exact hself s.lastAdvWnd
    · rw [h]
      exact hp

/-- The socket and the connection of an undisturbed SYN. -/
lemma Opening.syn (h : Opening i j w) (hs : (w.tcpSockets i).state = .synSent)
    (hp : Undisturbed (w.tcpSockets i) w) (seq : BitVec 32) :
  Opening i j (w.tcpXmit rtl8139Poll i seq { syn := true } 0 0)
  := by
  have hblock := unclosed_syn rfl h.active hs hp seq
  have hsock := (quiet_poll (handles_stream j) (fun _ hv => hv) i).xmit ⟨h.type, h.state⟩ seq { syn := true } 0 0
  exact ⟨(quiet_linkage (some (i, j)) i).xmit h.link _ _ _ _, hblock.active, hblock.owner.trans h.owner,
    hsock.1, hsock.2⟩

/-- Which port is free depends on the connection blocks only. -/
lemma allocPortLoop_congr : ∀ (n : ℕ) {w w' : Net}, w'.tcpSockets = w.tcpSockets →
    w'.nextEphemeral = w.nextEphemeral → (allocPortLoop n w').1 = (allocPortLoop n w).1
  | 0, _, _, _, _ => rfl
  | n + 1, w, w', ht, he => by
    rw [allocPortLoop, allocPortLoop]
    simp only [portUsed, ht, he]
    split_ifs
    · exact allocPortLoop_congr n rfl rfl
    · exact allocPortLoop_congr n rfl rfl
    · rfl
    · rfl

lemma nextBlock_congr {w' : Net} (ht : w'.tcpSockets = w.tcpSockets) (hs : w'.seed = w.seed)
    (htick : w'.tick = w.tick) (he : w'.nextEphemeral = w.nextEphemeral) :
  nextBlock w' = nextBlock w
  := by
  have hport : w'.tcpAllocPort.1 = w.tcpAllocPort.1 := by
    rw [tcpAllocPort, tcpAllocPort]
    simp only [he, getRandomIsn, hs, htick]
    split_ifs
    · exact allocPortLoop_congr _ ht rfl
    · exact allocPortLoop_congr _ ht he
  have hisn : w'.tcpAllocPort.2.getRandomIsn.1 = w.tcpAllocPort.2.getRandomIsn.1 := by
    obtain ⟨eph, heq⟩ := tcpAllocPort_eq (w := w)
    obtain ⟨eph', heq'⟩ := tcpAllocPort_eq (w := w')
    rw [heq, heq']
    simp only [getRandomIsn, hs, htick, he]
  funext buf ip port j
  rw [nextBlock, nextBlock, hport, hisn]

/-- The next SYN goes out undisturbed whatever the sockets and the heap are. -/
lemma Undisturbed.with (h : Undisturbed (nextBlock w buf ip port j) w) (sockets : ℕ → SocketEntry)
    (mallocs : ℕ → Bool) :
  Undisturbed (nextBlock { w with sockets := sockets, mallocs := mallocs } buf ip port j)
    { w with sockets := sockets, mallocs := mallocs }
  := by
  have hblock : nextBlock { w with sockets := sockets, mallocs := mallocs } = nextBlock w :=
    nextBlock_congr rfl rfl rfl rfl
  rw [hblock]
  exact h

/-- A block that is not in use is filled in for socket `j`. -/
lemma Linkage.fill (h : Linkage none w) (hi : (w.tcpSockets i).active = false)
    (hj : (w.sockets j).tcb = none) (hget : w.sockGet j) (hact : s.active)
    (howner : s.owner = some j) (hevent : s.onEvent) (hstate : s.state ≠ .closed) :
  Linkage (some (i, j)) (w.modTcp i fun _ => s)
  := by
  refine ⟨?_, ?_, ?_, ?_, ?_, h.idle, h.dgram, ?_⟩
  · intro l i' hl
    have hne : i' ≠ i := by
      rintro rfl
      have := (h.fwd l i' hl).1
      rw [hi] at this
      cases this
    rw [tcpSockets_modTcp_of_ne hne]
    exact h.fwd l i' hl
  · intro i' l
    by_cases hne : i' = i
    · subst hne
      rw [tcpSockets_modTcp]
      intro _ ho
      obtain rfl := some.inj (howner.symm.trans ho)
      exact ⟨.inr rfl, hget⟩
    · rw [tcpSockets_modTcp_of_ne hne]
      intro ha ho
      obtain ⟨hlink, hgetl⟩ := h.bwd i' l ha ho
      exact ⟨.inl (hlink.resolve_right (by simp)), hgetl⟩
  · intro i'
    by_cases hne : i' = i
    · subst hne
      rw [tcpSockets_modTcp, hact]
      intro hfalse
      cases hfalse
    · rw [tcpSockets_modTcp_of_ne hne]
      exact h.gone i'
  · intro i'
    by_cases hne : i' = i
    · subst hne
      rw [tcpSockets_modTcp]
      exact fun _ => hstate
    · rw [tcpSockets_modTcp_of_ne hne]
      exact h.live i'
  · intro i' l
    by_cases hne : i' = i
    · subst hne
      rw [tcpSockets_modTcp]
      exact fun _ => hevent
    · rw [tcpSockets_modTcp_of_ne hne]
      exact h.notified i' l
  · rintro i' l hp
    obtain ⟨rfl, rfl⟩ := Prod.mk.inj (some.inj hp)
    exact hj

/-- The pointer of a socket to its new connection closes the link. -/
lemma Linkage.attach (h : Linkage (some (i, j)) w) (ha : (w.tcpSockets i).active)
    (ho : (w.tcpSockets i).owner = some j) {g : SocketEntry → SocketEntry}
    (hg : (g (w.sockets j)).tcb = some i) (htype : (g (w.sockets j)).type = .stream)
    (hidle : (g (w.sockets j)).state ≠ .idle) (hfree : (g (w.sockets j)).state = (w.sockets j).state) :
  Linkage none (w.modSock j g)
  := by
  refine ⟨?_, ?_, h.gone, h.live, h.notified, ?_, ?_, by simp⟩
  · intro l i' hl
    by_cases hlj : l = j
    · subst hlj
      rw [sockets_modSock, hg] at hl
      obtain rfl := some.inj hl
      exact ⟨ha, ho⟩
    · rw [sockets_modSock_of_ne hlj] at hl
      exact h.fwd l i' hl
  · intro i' l ha' ho'
    obtain ⟨hlink, hget⟩ := h.bwd i' l ha' ho'
    by_cases hlj : l = j
    · subst hlj
      rw [sockGet, sockets_modSock, hg, hfree]
      exact ⟨.inl (congrArg some (h.unique ha ho ha' ho')).symm, hget⟩
    · rw [sockGet, sockets_modSock_of_ne hlj]
      refine ⟨.inl (hlink.resolve_right fun hp => ?_), hget⟩
      exact hlj (Prod.mk.inj (some.inj hp)).2.symm
  · intro l hl
    by_cases hlj : l = j
    · subst hlj
      rw [sockets_modSock] at hl
      exact absurd hl hidle
    · rw [sockets_modSock_of_ne hlj] at hl ⊢
      exact h.idle l hl
  · intro l hl
    by_cases hlj : l = j
    · subst hlj
      rw [sockets_modSock, htype] at hl
      cases hl
    · rw [sockets_modSock_of_ne hlj] at hl ⊢
      exact h.dgram l hl

/-- A free block that is cleared has no socket. -/
lemma Linkage.cleared (h : Linkage none w) (hi : (w.tcpSockets i).active = false) :
  Linkage none (w.modTcp i fun _ => tcpCleared).kmalloc.2
  := by
  have hmod : Linkage none (w.modTcp i fun _ => tcpCleared) := by
    refine h.disown (by simp) (fun l hl => ?_) rfl (by simp [tcpCleared])
    have := (h.fwd l i hl).1
    rw [hi] at this
    cases this
  exact hmod.same rfl rfl

/-- The block of `tcp_connect` before its SYN is sent. -/
lemma opening_nextBlock (h : Linkage none (w.tcpAllocPort.2.modTcp i fun _ => tcpCleared).kmalloc.2)
    (hj : (w.sockets j).tcb = none) (hget : w.sockGet j) (htype : (w.sockets j).type = .stream)
    (hidle : (w.sockets j).state ≠ .idle) :
  Opening i j ((w.tcpAllocPort.2.modTcp i fun _ => tcpCleared).kmalloc.2.getRandomIsn.2.modTcp i
    fun _ => nextBlock w buf ip port j)
  := by
  obtain ⟨eph, heq⟩ := tcpAllocPort_eq (w := w)
  refine ⟨?_, ?_, ?_, ?_, ?_⟩
  · have hisn : Linkage none (w.tcpAllocPort.2.modTcp i fun _ => tcpCleared).kmalloc.2.getRandomIsn.2 :=
      h.same rfl rfl
    apply hisn.fill _ _ _ rfl rfl rfl (by simp [nextBlock, tcpOpened])
    · simp [getRandomIsn, kmalloc, tcpCleared]
    · rw [heq]
      exact hj
    · rw [heq]
      exact hget
  · rw [tcpSockets_modTcp]
    rfl
  · rw [tcpSockets_modTcp]
    rfl
  · rw [heq]
    exact htype
  · rw [heq]
    exact hidle

/-- A connection that is opened undisturbed has its owner when `tcp_connect` returns. -/
lemma Linkage.tcpConnect (h : Linkage none w) (hj : (w.sockets j).tcb = none)
    (hget : w.sockGet j) (htype : (w.sockets j).type = .stream) (hidle : (w.sockets j).state ≠ .idle)
    (hp : Undisturbed (nextBlock w buf ip port j) w) {conn : Option ℕ × Net}
    (hconn : w.tcpConnect rtl8139Poll buf ip port j = conn) :
  (conn.1 = none ∧ Linkage none conn.2 ∧ (conn.2.sockets j).tcb = none)
    ∨ ∃ i, conn.1 = some i ∧ Opening i j conn.2
  := by
  subst hconn
  obtain ⟨eph, heq⟩ := tcpAllocPort_eq (w := w)
  rw [Net.tcpConnect]
  split
  · exact .inl ⟨rfl, h, hj⟩
  next i hfind =>
    have hi : (w.tcpSockets i).active = false := by simpa using find?_some hfind
    have hport : Linkage none w.tcpAllocPort.2 := by
      rw [heq]
      exact h.same rfl rfl
    have hcleared : Linkage none (w.tcpAllocPort.2.modTcp i fun _ => tcpCleared).kmalloc.2 :=
      hport.cleared (by rw [heq]; exact hi)
    have hopened : Opening i j
        ((w.tcpAllocPort.2.modTcp i fun _ => tcpCleared).kmalloc.2.getRandomIsn.2.modTcp i
          fun _ => nextBlock w buf ip port j) := opening_nextBlock hcleared hj hget htype hidle
    simp only
    split_ifs with hzero hmalloc
    · refine .inl ⟨rfl, hport, ?_⟩
      rw [heq]
      exact hj
    · have hsyn := hopened.syn (by rw [tcpSockets_modTcp]; rfl) (by rw [tcpSockets_modTcp, heq]; exact hp)
        w.tcpAllocPort.2.getRandomIsn.1
      have hmove := hsyn.link.tcp (k := i) (f := fun s => { s with sndNxt := s.sndNxt + 1 })
        ⟨rfl, rfl, rfl, rfl, id⟩
      have harm := (quiet_linkage (some (i, j)) i).armRtx hmove
      refine .inr ⟨i, rfl, harm, ?_, ?_, hsyn.type, hsyn.state⟩
      · simp only [tcpArmRtx, tcpSockets_modTcp]
        exact hsyn.active
      · simp only [tcpArmRtx, tcpSockets_modTcp]
        exact hsyn.owner
    · refine .inl ⟨rfl, hcleared, ?_⟩
      rw [heq]
      exact hj

lemma Linkage.connectOpen (h : Linkage none w) (hget : w.sockGet j)
    (htype : (w.sockets j).type = .stream) (hidle : (w.sockets j).state = .idle)
    (hp : Undisturbed (nextBlock w buf ip port j) w) :
  Linkage none (w.connectOpen rtl8139Poll buf j ip port).2
  := by
  have hj := h.idle j hidle
  rw [Net.connectOpen]
  set v := w.modSock j fun e => { e with
    remoteIp := ip, remotePort := port, err := 0, peerClosed := false, state := .connecting } with hv
  have hopen : Linkage none v := h.unlinked hj hj
  have hnone : (v.sockets j).tcb = none := by simpa [hv] using hj
  have hused : v.sockGet j := by
    simp only [sockGet, Bool.and_eq_true] at hget ⊢
    simpa [hv] using hget.1
  have hstream : (v.sockets j).type = .stream := by simpa [hv] using htype
  have hconn := hopen.tcpConnect hnone hused hstream (by simp [hv]) (hp.with v.sockets w.mallocs) rfl
  rcases hconn with ⟨hnone, hlink, htcb⟩ | ⟨i, hsome, hopening⟩
  · simp only [hnone]
    apply hlink.unlinked htcb
    rfl
  simp only [hsome]
  apply hopening.link.attach hopening.active hopening.owner
  · rfl
  · exact hopening.type
  · exact hopening.state
  · rfl

/-! ### Socket calls -/

lemma Linkage.tcb_of_free (h : Linkage none w) (hfree : (w.sockets j).state = .free) :
  (w.sockets j).tcb = none
  := by
  cases ht : (w.sockets j).tcb with
  | none => rfl
  | some i =>
    obtain ⟨ha, ho⟩ := h.fwd j i ht
    have hget := (h.bwd i j ha ho).2
    simp [sockGet, hfree] at hget

lemma Linkage.sockCreate (h : Linkage none w) (type : SockType) :
  Linkage none (w.sockCreate type).2
  := by
  rw [Net.sockCreate]
  split
  next j hfind =>
    have hfree : (w.sockets j).state = .free := by simpa using find?_some hfind
    simp only
    apply h.unlinked (h.tcb_of_free hfree)
    rfl
  · exact h

lemma udpAllocPortLoop_eq : ∀ (n : ℕ) (w : Net), ∃ next, (udpAllocPortLoop n w).2
      = { w with nextUdpPort := next }
  | 0, w => ⟨w.nextUdpPort, rfl⟩
  | n + 1, w => by
    rw [udpAllocPortLoop]
    simp only [apply_ite Prod.snd]
    split_ifs
    · exact udpAllocPortLoop_eq n _
    · exact ⟨_, rfl⟩
    · exact udpAllocPortLoop_eq n _
    · exact ⟨_, rfl⟩

lemma Linkage.udpEnsurePort (h : Linkage none w) (j : ℕ) : Linkage none (w.udpEnsurePort j).2
  := by
  rw [Net.udpEnsurePort]
  split
  · obtain ⟨next, heq⟩ := udpAllocPortLoop_eq (48999 - 32768 + 1) w
    have hport : Linkage none w.udpAllocPort.2 := by
      rw [udpAllocPort, heq]
      exact h.same rfl rfl
    simp only
    apply hport.sock
    exact ⟨rfl, rfl, rfl⟩
  · exact h

lemma type_udpEnsurePort (j : ℕ) : ((w.udpEnsurePort j).2.sockets j).type = (w.sockets j).type
  := by
  rw [Net.udpEnsurePort]
  split
  · obtain ⟨next, heq⟩ := udpAllocPortLoop_eq (48999 - 32768 + 1) w
    simp only [udpAllocPort, heq, sockets_modSock]
  · rfl

lemma Linkage.udpSendto (h : Linkage none w) (j len : ℕ)
    (dest : Option (BitVec 32 × BitVec 16)) :
  Linkage none (w.udpSendto rtl8139Poll j len dest).2
  := by
  have hbound := h.udpEnsurePort j
  have halloc : Linkage none (w.udpEnsurePort j).2.kmalloc.2 := hbound.same rfl rfl
  rw [Net.udpSendto]
  simp only
  split
  · exact h
  split
  · exact h
  split
  · exact hbound
  split
  · exact hbound
  split
  · exact (quiet_linkage none 0).ipv4SendPacket halloc _ _
  · exact halloc

lemma Linkage.udpRecvfrom (h : Linkage none w) (j len : ℕ) (peek : Bool) :
  Linkage none (w.udpRecvfrom j len peek).2
  := by
  rw [Net.udpRecvfrom]
  split
  · exact h
  simp only
  split
  · exact h
  · apply h.sock
    exact ⟨rfl, rfl, rfl⟩

lemma Linkage.connectRing (h : Linkage none w) (ring : ℕ → Byte) (j : ℕ) :
  Linkage none (w.connectRing ring j).2
  := by
  have halloc : Linkage none w.kmalloc.2 := h.same rfl rfl
  rw [Net.connectRing]
  split
  · simp only
    split
    · apply halloc.sock
      exact ⟨rfl, rfl, rfl⟩
    · exact halloc
  · exact h

/-- The ring does not disturb the next SYN. -/
lemma connectRing_eq (ring : ℕ → Byte) (j : ℕ) : ∃ sockets mallocs, (w.connectRing ring j).2
    = { w with sockets := sockets, mallocs := mallocs }
      ∧ (sockets j).state = (w.sockets j).state ∧ (sockets j).type = (w.sockets j).type
  := by
  rw [Net.connectRing]
  split
  · simp only
    split
    · exact ⟨_, _, rfl, by simp [kmalloc]⟩
    · exact ⟨_, _, rfl, rfl, rfl⟩
  · exact ⟨_, _, rfl, rfl, rfl⟩

/-- The SYN of a connection that is opened goes out undisturbed. -/
def ConnectUndisturbed (w : Net) (buf : ℕ → Byte) (j : ℕ) (ip : BitVec 32) (port : BitVec 16) :
    Prop :=
  (w.sockets j).type = .stream → (w.sockets j).state = .idle →
    Undisturbed (nextBlock w buf ip port j) w

lemma Linkage.sockConnect (h : Linkage none w) (ring buf : ℕ → Byte) (j : ℕ) (ip : BitVec 32)
    (port : BitVec 16) (hp : ConnectUndisturbed w buf j ip port) :
  Linkage none (w.sockConnect rtl8139Poll ring buf j ip port).2
  := by
  rw [Net.sockConnect]
  split
  · exact h
  next hget =>
    have hget : w.sockGet j := by simpa using hget
    cases htype : (w.sockets j).type with
    | dgram =>
      have hbound := h.udpEnsurePort j
      have hnone := hbound.dgram j ((type_udpEnsurePort j).trans htype)
      simp only
      split
      · exact hbound
      · simp only
        apply hbound.unlinked hnone
        exact hnone
    | stream =>
      cases hstate : (w.sockets j).state with
      | free => simp [sockGet, hstate] at hget
      | connecting => exact h
      | connected => exact h
      | closed => exact takeErr_keeps (quiet_linkage none) h j
      | idle =>
        simp only
        split
        · exact h
        obtain ⟨sockets, mallocs, heq, hsame, hty⟩ := connectRing_eq (w := w) ring j
        have hring := h.connectRing ring j
        split
        · rw [heq] at hring ⊢
          apply hring.connectOpen
          · rw [sockGet, hsame]
            exact hget
          · exact hty.trans htype
          · exact hsame.trans hstate
          · exact (hp htype hstate).with sockets mallocs
        · exact hring

lemma Linkage.sockClose (h : Linkage none w) (j : ℕ) :
  Linkage none (w.sockClose rtl8139Poll j).2
  := by
  rw [Net.sockClose]
  split
  · exact h
  obtain ⟨hclose, hnone⟩ := h.closeTcb j
  simp only
  apply hclose.unlinked hnone
  rfl

end Net

/-! ### Runs -/

/-- What happens to the stack: the calls of programs, polls of the card and the timer.  A call
that blocks goes on with `connected` and `resend`. -/
inductive Call where
  | create (type : SockType)
  | connect (id : ℕ) (ip : BitVec 32) (port : BitVec 16) (ring buf : ℕ → Byte)
  | connected (id : ℕ)
  | send (id : ℕ) (data : List Byte) (dest : Option (BitVec 32 × BitVec 16))
  | resend (id : ℕ) (data : List Byte)
  | recv (id len : ℕ) (peek : Bool)
  | shutdown (id : ℕ) (rd wr : Bool)
  | close (id : ℕ)
  | poll
  | tick (now : BitVec 32)
  | time (ticks : BitVec 32)

def Call.step (w : Net) : Call → Net
  | .create type => (w.sockCreate type).2
  | .connect id ip port ring buf => (w.sockConnect Net.rtl8139Poll ring buf id ip port).2
  | .connected id => (w.connectResult id).2
  | .send id data dest =>
    if w.sockGet id ∧ (w.sockets id).type = .dgram then
      (w.udpSendto Net.rtl8139Poll id data.length dest).2
    else (w.sockSendto Net.rtl8139Poll id data).2
  | .resend id data => (w.sendRound Net.rtl8139Poll id data).2
  | .recv id len peek =>
    if w.sockGet id ∧ (w.sockets id).type = .dgram then (w.udpRecvfrom id len peek).2
    else (w.sockRecvfrom Net.rtl8139Poll id len peek).2
  | .shutdown id rd wr => (w.sockShutdown Net.rtl8139Poll id rd wr).2
  | .close id => (w.sockClose Net.rtl8139Poll id).2
  | .poll => w.rtl8139Poll
  | .tick now => w.tcpTickWithIface Net.rtl8139Poll now
  | .time ticks => { w with tick := ticks }

/-- No connection is reset, or none is answered, before its SYN has gone out. -/
def Call.Undisturbed (w : Net) : Call → Prop
  | .connect id ip port _ buf => w.ConnectUndisturbed buf id ip port
  | _ => True

namespace Net

variable {w : Net}

lemma Linkage.call (h : Linkage none w) {call : Call} (hcall : call.Undisturbed w) :
  Linkage none (call.step w)
  := by
  cases call with
  | create type => exact h.sockCreate type
  | connect id ip port ring buf => exact h.sockConnect ring buf id ip port hcall
  | connected id =>
    simp only [Call.step, connectResult]
    split
    · exact h
    · exact takeErr_keeps (quiet_linkage none) h id
  | send id data dest =>
    rw [Call.step]
    split
    · exact h.udpSendto id data.length dest
    · exact sockSendto_keeps (quiet_linkage none) h id data
  | resend id data => exact sendRound_keeps (quiet_linkage none) h id data
  | recv id len peek =>
    rw [Call.step]
    split
    · exact h.udpRecvfrom id len peek
    · exact sockRecvfrom_keeps (quiet_linkage none) h id len peek
  | shutdown id rd wr => exact sockShutdown_keeps (quiet_linkage none) h id rd wr
  | close id => exact h.sockClose id
  | poll => exact (quiet_linkage none 0).poll h
  | tick now => exact h.tick now
  | time ticks => exact h.same rfl rfl

def runCalls (calls : List Call) (w : Net) : Net := calls.foldl Call.step w

/-- The SYN of every connection of a run goes out undisturbed. -/
def RunUndisturbed : List Call → Net → Prop
  | [], _ => True
  | call :: calls, w => call.Undisturbed w ∧ RunUndisturbed calls (call.step w)

lemma Linkage.run {calls : List Call} (h : Linkage none w) (hcalls : RunUndisturbed calls w) :
  Linkage none (runCalls calls w)
  := by
  induction calls generalizing w with
  | nil => exact h
  | cons call calls ih => exact ih (h.call hcalls.1) hcalls.2

/-- No connections and no sockets. -/
lemma linkage_fresh (ht : ∀ i, w.tcpSockets i = tcpCleared)
    (hs : ∀ j, w.sockets j = sockCleared .free .stream) :
  Linkage none w
  := by
  constructor <;> simp [ht, hs, tcpCleared, sockCleared]

/-- Sockets and connections point to each other after every run in which the SYN of every
connection goes out undisturbed. -/
theorem sockets_linked {calls : List Call} (ht : ∀ i, w.tcpSockets i = tcpCleared)
    (hs : ∀ j, w.sockets j = sockCleared .free .stream) (hcalls : RunUndisturbed calls w) :
  (∀ j i, ((runCalls calls w).sockets j).tcb = some i →
      ((runCalls calls w).tcpSockets i).active
        ∧ ((runCalls calls w).tcpSockets i).owner = some j)
    ∧ ∀ i j, ((runCalls calls w).tcpSockets i).active →
      ((runCalls calls w).tcpSockets i).owner = some j →
      ((runCalls calls w).sockets j).tcb = some i ∧ (runCalls calls w).sockGet j
  := by
  have hrun := (linkage_fresh ht hs).run hcalls
  refine ⟨hrun.fwd, ?_⟩
  intro i j ha ho
  obtain ⟨hlink, hget⟩ := hrun.bwd i j ha ho
  exact ⟨hlink.resolve_right (by simp), hget⟩

/-- A socket is created and connected: the SYN waits for the address of the gateway, and its
answer comes afterwards. -/
def connectFirst : List Call := [.create .stream, .connect 0 7 80 (fun _ => 0) (fun _ => 0)]

theorem sockets_linked_first :
  ∃ w, w = runCalls (connectFirst ++ [.poll]) (boot (fun _ => true) [[.arp 0x0A000202],
        [.tcp (toFirst { syn := true, ack := true } (firstBlock.sndNxt + 1))]])
    ∧ (w.sockets 0).state = .connected ∧ (w.sockets 0).tcb = some 0
    ∧ (w.tcpSockets 0).active ∧ (w.tcpSockets 0).owner = some 0
  := by
  have hundisturbed : RunUndisturbed (connectFirst ++ [.poll]) (boot (fun _ => true)
      [[.arp 0x0A000202], [.tcp (toFirst { syn := true, ack := true } (firstBlock.sndNxt + 1))]]) := by
    refine ⟨trivial, fun _ _ => .inl (.inr ?_), trivial, trivial⟩
    change ∀ batch ∈ [[Packet.arp 0x0A000202], [.tcp (toFirst _ (firstBlock.sndNxt + 1))]], _
    simp only [forall_mem_cons, not_mem_nil, false_implies, implies_true, and_true]
    constructor
    · intro seg hseg
      cases hseg
    · rintro seg hseg - - - ⟨-, hack⟩
      cases hseg
      exact absurd hack (by decide)
  have h := sockets_linked (fun _ => rfl) (fun _ => rfl) hundisturbed
  exact ⟨_, rfl, rfl, rfl, h.1 0 0 rfl⟩

/-- A reset that guesses the initial sequence number comes while the SYN waits for the address
of the gateway: the connection is released before the socket points to it. -/
theorem link_dangling :
  ∃ w, w = runCalls connectFirst (boot (fun _ => true)
        [[.tcp (toFirst { rst := true, ack := true } firstBlock.sndNxt), .arp 0x0A000202]])
    ∧ (w.sockets 0).tcb = some 0 ∧ (w.tcpSockets 0).active = false
    ∧ (w.tcpSockets 0).owner = none
  := ⟨_, rfl, rfl, rfl, rfl⟩

end Net
