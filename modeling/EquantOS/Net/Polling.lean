import EquantOS.Net.Invariant
import EquantOS.Net.FinAck

/-!
# Transmissions that poll the card

`ipv4_send_packet` polls the card while it waits for the address of the next hop, so that packets are
handled in the middle of a transmission.  Once the address is known this does not happen any more, since
the ARP cache forgets nothing.  The SYN of a connection may have to wait; if nothing answers it before it
has gone out and the wait ends with the address, the sent stream of the connection is in order.
-/

open List hiding after
open Serial

namespace Net

open Ring

variable {w w' : Net} {i k : ℕ} {s : TcpSocket}

/-! ### Known addresses -/

/-- The address of the next hop to the peer of connection `i` is known. -/
def Resolved (i : ℕ) (w : Net) : Prop :=
  ∀ iface, w.iface = some iface → nextHop iface (w.tcpSockets i).remoteIp ∈ w.arpCache

lemma Resolved.of_route (h : Resolved i w) (hip : (w'.tcpSockets i).remoteIp = (w.tcpSockets i).remoteIp)
    (hroute : SameRoute w w') :
  Resolved i w'
  := by
  intro iface hi
  rw [hip]
  exact hroute.arpCache (h iface (hroute.iface ▸ hi))

lemma Resolved.modTcp (h : Resolved i w) {f : TcpSocket → TcpSocket}
    (hf : (f (w.tcpSockets k)).remoteIp = (w.tcpSockets k).remoteIp) :
  Resolved i (w.modTcp k f)
  := by
  refine h.of_route ?_ (.of_eq rfl rfl)
  by_cases hk : i = k
  · subst hk
    rw [tcpSockets_modTcp, hf]
  · rw [tcpSockets_modTcp_of_ne hk]

lemma resolved_notify (h : Resolved i w) : Resolved i (w.tcpNotify k)
  := by
  obtain ⟨sockets, heq, -⟩ := tcpNotify_eq (w := w) (i := k)
  rw [heq]
  exact h.of_route rfl (.of_eq rfl rfl)

/-- Known addresses stay known. -/
lemma handles_resolved (i k : ℕ) : Handles k (Resolved i) where
  tcp := fun h hf => h.modTcp hf.remoteIp
  sock := fun h _ => h.of_route rfl (.of_eq rfl rfl)
  rest := by
    intro w w' h ht _ _ hr
    exact h.of_route (by rw [ht]) hr
  poll := id
  notify := fun h _ => resolved_notify h
  free := fun h => (resolved_notify (h.modTcp rfl)).modTcp rfl

section

variable (poll : Net → Net) (h : Resolved i w)

include h

/-! ### Nothing is handled in between -/

lemma tcpXmit_of_resolved (seq : BitVec 32) (flags : TcpFlags) (off len : ℕ) :
  w.tcpXmit poll i seq flags off len = w.tcpXmit id i seq flags off len
  := by
  rw [tcpXmit, tcpXmit]
  cases hi : w.iface with
  | none => rfl
  | some iface =>
    have hip : ((w.tcpRcvWindow i).2.tcpSockets i).remoteIp = (w.tcpSockets i).remoteIp := by
      simp [tcpRcvWindow]
    have hknown : nextHop iface ((w.tcpRcvWindow i).2.tcpSockets i).remoteIp ∈ w.arpCache := by
      rw [hip]
      exact h iface hi
    simp only [ipv4SendPacket]
    exact (if_pos hknown).trans (if_pos hknown).symm

lemma outputRound_of_resolved (mss : ℕ) : w.outputRound poll i mss = w.outputRound id i mss
  := by
  simp only [outputRound, tcpXmit_of_resolved poll h]

lemma outputFin_of_resolved : w.outputFin poll i = w.outputFin id i
  := by
  simp only [outputFin, tcpXmit_of_resolved poll h]

omit h in
lemma outputLoop_of_resolved (mss : ℕ) :
    ∀ (fuel : ℕ) {w : Net}, Resolved i w → outputLoop poll i mss fuel w = outputLoop id i mss fuel w
  | 0, _, _ => rfl
  | fuel + 1, w, h => by
    rw [outputLoop, outputLoop, outputRound_of_resolved poll h,
      outputLoop_of_resolved mss fuel ((handles_resolved i i).outputRound h mss)]

lemma tcpOutput_of_resolved : w.tcpOutput poll i = w.tcpOutput id i
  := by
  have hloop := (handles_resolved i i).outputLoop (outputMss (w.tcpSockets i)) (w.tcpSockets i).txLen h
  simp only [tcpOutput, outputLoop_of_resolved poll _ _ h, outputFin_of_resolved poll hloop]

lemma tcpWrite_of_resolved (data : List Byte) : w.tcpWrite poll i data = w.tcpWrite id i data
  := by
  rw [tcpWrite, tcpWrite]
  cases (w.tcpSockets i).txBuf with
  | none => rfl
  | some buf =>
    dsimp only
    split
    · rfl
    · rw [tcpOutput_of_resolved poll (Resolved.modTcp h rfl)]

lemma tcpWindowUpdate_of_resolved : w.tcpWindowUpdate poll i = w.tcpWindowUpdate id i
  := by
  simp only [tcpWindowUpdate, tcpSendAck, tcpXmit_of_resolved poll h]

lemma tcpShutdown_of_resolved : w.tcpShutdown poll i = w.tcpShutdown id i
  := by
  rw [tcpShutdown, tcpShutdown]
  split
  · rfl
  · cases (w.tcpSockets i).state
    all_goals first
      | rfl
      | exact tcpOutput_of_resolved poll (h.modTcp rfl)

lemma tcpClose_of_resolved : w.tcpClose poll i = w.tcpClose id i
  := by
  have hclosed : Resolved i (w.modTcp i fun s => { s with
      owner := none, onData := false, rxSpace := false, onEvent := false }) := h.modTcp rfl
  simp only [tcpClose, tcpShutdown_of_resolved poll hclosed]

lemma tcpTimeout_of_resolved (now : BitVec 32) : w.tcpTimeout poll i now = w.tcpTimeout id i now
  := by
  have hback : Resolved i (w.modTcp i fun s => { s with sndNxt := s.sndUna, rtxArmed := false }) := h.modTcp rfl
  simp only [tcpTimeout, timeoutPersist, tcpXmit_of_resolved poll h, tcpOutput_of_resolved poll hback]

lemma Event.step_of_resolved (e : Event) : e.step poll i w = e.step id i w
  := by
  cases e with
  | write data => simp only [Event.step, tcpWrite_of_resolved poll h]
  | read => exact tcpWindowUpdate_of_resolved poll h
  | shutdown => exact tcpShutdown_of_resolved poll h
  | close => exact tcpClose_of_resolved poll h
  | segment seg => rfl
  | timeout now => simp only [Event.step, tcpTimeout_of_resolved poll h]
  | output => simp only [Event.step, tcpOutput_of_resolved poll h]
  | tick t => rfl

lemma Event.accepted_of_resolved (e : Event) : e.accepted poll i w = e.accepted id i w
  := by
  cases e with
  | write data => simp only [Event.accepted, tcpWrite_of_resolved poll h]
  | _ => rfl

end

lemma Resolved.step (h : Resolved i w) (e : Event) : Resolved i (e.step id i w)
  := by
  have hq := (handles_resolved i i).toQuiet
  cases e with
  | write data => exact hq.write h data
  | read => exact hq.windowUpdate h
  | shutdown => exact hq.shutdown h
  | close =>
    have hclosed : Resolved i (w.modTcp i fun s => { s with
        owner := none, onData := false, rxSpace := false, onEvent := false }) := h.modTcp rfl
    simp only [Event.step, tcpClose]
    split
    · split
      · exact (handles_resolved i i).free hclosed
      · exact hq.shutdown hclosed
    · exact h
  | segment seg =>
    simp only [Event.step]
    split
    next hl =>
      simp only [handleTcp, hl]
      exact (handles_resolved i i).input h (active_of_tcpLookup hl) seg
    · exact h
  | timeout now =>
    simp only [Event.step]
    split
    · exact hq.timeout (fun err hv => (handles_resolved i i).fail hv err) h now
    · exact h
  | output =>
    simp only [Event.step]
    split
    · exact hq.output h
    · exact h
  | tick t => exact h.of_route rfl (.of_eq rfl rfl)

/-- A run of a connection to a known address does not poll. -/
lemma run_of_resolved (poll : Net → Net) : ∀ (es : List Event) {w : Net}, Resolved i w →
    runEvents poll i w es = runEvents id i w es ∧ written poll i w es = written id i w es
      ∧ received poll i w es = received id i w es
  | [], _, _ => ⟨rfl, rfl, rfl⟩
  | e :: es, w, h => by
    obtain ⟨hrun, hwritten, hreceived⟩ := run_of_resolved poll es (h.step e)
    have hstep := Event.step_of_resolved poll h e
    simp only [runEvents, written, received, hstep, hrun, hwritten, hreceived,
      Event.accepted_of_resolved poll h e, and_self]

/-! ### The wait of the SYN -/

section

variable {packet : Packet} {buf : ℕ → Byte} {ip : BitVec 32} {port : BitVec 16} {owner : ℕ}

lemma handles_block (s : TcpSocket) (hk : i ≠ k) : Handles k fun w => w.tcpSockets i = s where
  tcp := by
    intro w f h _
    rw [tcpSockets_modTcp_of_ne hk]
    exact h
  sock := fun h _ => h
  rest := by
    intro w w' h ht _ _ _
    rw [ht]
    exact h
  poll := id
  notify := by
    intro w h _
    rw [tcpSockets_tcpNotify]
    exact h
  free := by
    intro w h
    rw [tcpSockets_tcpFree_of_ne hk]
    exact h

lemma handles_rx (rx : List (List Packet)) (k : ℕ) : Handles k fun w => w.rx = rx where
  tcp := fun h _ => h
  sock := fun h _ => h
  rest := fun h _ _ hr _ => hr.trans h
  poll := id
  notify := by
    intro w h _
    obtain ⟨sockets, heq, -⟩ := tcpNotify_eq (w := w) (i := k)
    rw [heq]
    exact h
  free := by
    intro w h
    obtain ⟨sockets, heq, -⟩ := tcpNotify_eq (i := k) (w := w.modTcp k fun s => { s with
      reorder := fun _ => none, txBuf := none, state := .closed })
    rw [tcpFree, heq]
    exact h

lemma tcpLookup_matches {seg : Segment} (h : w.tcpLookup seg = some i) :
  seg.destPort = (w.tcpSockets i).localPort ∧ seg.srcIp = (w.tcpSockets i).remoteIp
    ∧ seg.srcPort = (w.tcpSockets i).remotePort
  := by
  have := find?_some h
  simp only [Bool.and_eq_true, beq_iff_eq] at this
  exact ⟨this.1.1.2.symm, this.1.2.symm, this.2.symm⟩

/-- The packet is no answer to the SYN of block `s`, which has not been sent. -/
def NoAnswer (s : TcpSocket) (packet : Packet) : Prop :=
  ∀ seg, packet = .tcp seg → seg.destPort = s.localPort → seg.srcIp = s.remoteIp →
    seg.srcPort = s.remotePort → ¬ (seg.flags.ack ∧ seg.ack = s.sndNxt)

/-- Packets for other connections leave a block alone; for those for its own the property has to be shown. -/
lemma block_packet {Q : TcpSocket → Prop} (h : Q (w.tcpSockets i))
    (hown : ∀ seg, packet = .tcp seg → w.tcpLookup seg = some i → Q ((w.tcpInput i seg).tcpSockets i)) :
  Q ((w.handlePacket packet).tcpSockets i)
  := by
  cases packet with
  | arp spa =>
    rw [handlePacket, arpUpdateCache]
    split <;> exact h
  | tcp seg =>
    rw [handlePacket, handleTcp]
    split
    next k hl =>
      by_cases hk : i = k
      · subst hk
        exact hown seg rfl hl
      · rw [(handles_block _ hk).input rfl (active_of_tcpLookup hl) seg]
        exact h
    · exact h

/-- A segment that is no answer to the SYN is dropped. -/
lemma tcpInput_noAnswer (hs : (w.tcpSockets i).state = .synSent) {seg : Segment}
    (hp : NoAnswer (w.tcpSockets i) (.tcp seg)) (hl : w.tcpLookup seg = some i) :
  w.tcpInput i seg = w
  := by
  obtain ⟨hdest, hip, hport⟩ := tcpLookup_matches hl
  have hack : (seg.flags.ack && seg.ack == (w.tcpSockets i).sndNxt) = false := by
    simpa using hp seg rfl hdest hip hport
  rw [tcpInput, if_pos hs, inputSynSent]
  simp [hack]

/-- What packets that satisfy `H` keep of a block, a poll keeps. -/
lemma block_poll {Q : TcpSocket → Prop} {H : Packet → Prop}
    (hpacket : ∀ {w : Net} {packet : Packet}, Q (w.tcpSockets i) → H packet →
      Q ((w.handlePacket packet).tcpSockets i))
    (h : Q (w.tcpSockets i)) {n : ℕ} (hp : ∀ batch ∈ w.rx.take (n + 1), ∀ packet ∈ batch, H packet) :
  Q (w.rtl8139Poll.tcpSockets i) ∧ ∀ batch ∈ w.rtl8139Poll.rx.take n, ∀ packet ∈ batch, H packet
  := by
  rw [rtl8139Poll]
  cases hrx : w.rx with
  | nil => exact ⟨h, by simp [hrx]⟩
  | cons packets rest =>
    rw [hrx, take_succ_cons, forall_mem_cons] at hp
    have hfold : Q ((packets.foldl handlePacket { w with rx := rest }).tcpSockets i)
        ∧ (packets.foldl handlePacket { w with rx := rest }).rx = rest := by
      apply foldlRecOn (motive := fun v : Net => Q (v.tcpSockets i) ∧ v.rx = rest) packets
      · exact ⟨h, rfl⟩
      · rintro v ⟨hv, hvrx⟩ packet hmem
        exact ⟨hpacket hv (hp.1 packet hmem), (handlePacket_keeps (handles_rx v.rx) rfl packet).trans hvrx⟩
    refine ⟨hfold.1, ?_⟩
    rw [hfold.2]
    exact hp.2

lemma block_arpWait {Q : TcpSocket → Prop} {H : Packet → Prop}
    (hpacket : ∀ {w : Net} {packet : Packet}, Q (w.tcpSockets i) → H packet →
      Q ((w.handlePacket packet).tcpSockets i)) (target : BitVec 32) :
    ∀ (n : ℕ) {w : Net}, Q (w.tcpSockets i) → (∀ batch ∈ w.rx.take n, ∀ packet ∈ batch, H packet) →
      Q ((arpWait rtl8139Poll target n w).tcpSockets i)
  | 0, _, h, _ => h
  | n + 1, w, h, hp => by
    obtain ⟨h', hp'⟩ := block_poll hpacket h hp
    rw [arpWait]
    split
    · exact h'
    · exact block_arpWait hpacket target n h' hp'

/-- The next hop is known, or all packets that come while a packet for it waits satisfy `H`. -/
def Waits (H : Packet → Prop) (ip : BitVec 32) (w : Net) : Prop :=
  (∀ iface, w.iface = some iface → nextHop iface ip ∈ w.arpCache)
    ∨ ∀ batch ∈ w.rx.take 50, ∀ packet ∈ batch, H packet

/-- The SYN of a block that is kept in the wait. -/
lemma block_syn {Q : TcpSocket → Prop} {H : Packet → Prop}
    (hpacket : ∀ {w : Net} {packet : Packet}, Q (w.tcpSockets i) → H packet →
      Q ((w.handlePacket packet).tcpSockets i))
    (hadv : ∀ {s} adv, Q s → Q { s with lastAdvWnd := adv }) (h : Q (w.tcpSockets i))
    (hp : Waits H (w.tcpSockets i).remoteIp w) (seq : BitVec 32) :
  Q ((w.tcpXmit rtl8139Poll i seq { syn := true } 0 0).tcpSockets i)
  := by
  rw [tcpXmit]
  split
  · exact h
  next iface hi =>
    have hv : Q ((w.tcpRcvWindow i).2.tcpSockets i) := by
      simp only [tcpRcvWindow, tcpSockets_modTcp]
      exact hadv _ h
    have hip : ((w.tcpRcvWindow i).2.tcpSockets i).remoteIp = (w.tcpSockets i).remoteIp := by
      simp [tcpRcvWindow]
    simp only [ipv4SendPacket, hip]
    split
    · exact hv
    next hmiss =>
      rcases hp with hknown | hp
      · exact absurd (hknown iface hi) hmiss
      · exact block_arpWait hpacket _ 50 (w := { (w.tcpRcvWindow i).2 with sent := (w.tcpRcvWindow i).2.sent
          ++ [buildSegment (w.tcpSockets i) iface (w.tcpRcvWindow i).1 seq { syn := true } 0 0] }) hv hp

/-- The block of the next connection: its port and its initial sequence number are drawn from
the state. -/
def nextBlock (w : Net) (buf : ℕ → Byte) (ip : BitVec 32) (port : BitVec 16) (j : ℕ) : TcpSocket :=
  tcpOpened ip w.tcpAllocPort.1 port w.tcpAllocPort.2.getRandomIsn.1 buf j

/-- No answer to the SYN of block `s` comes before it has gone out. -/
def Unanswered (s : TcpSocket) (w : Net) : Prop := Waits (NoAnswer s) s.remoteIp w

/-- The block of a connection whose SYN is not answered in the wait stays as it is. -/
lemma block_unanswered (h : w.tcpSockets i = s) (hs : s.state = .synSent) (hp : Unanswered s w) (seq : BitVec 32) :
  ∃ adv, (w.tcpXmit rtl8139Poll i seq { syn := true } 0 0).tcpSockets i = { s with lastAdvWnd := adv }
  := by
  apply block_syn (Q := fun s' => ∃ adv, s' = { s with lastAdvWnd := adv }) (H := NoAnswer s)
  · rintro v packet ⟨adv, hv⟩ hno
    refine block_packet (Q := fun s' => ∃ adv, s' = { s with lastAdvWnd := adv }) ⟨adv, hv⟩ ?_
    rintro seg rfl hl
    rw [tcpInput_noAnswer (by rw [hv]; exact hs) (by rw [hv]; exact hno) hl]
    exact ⟨adv, hv⟩
  · rintro s' adv ⟨-, rfl⟩
    exact ⟨adv, rfl⟩
  · exact ⟨s.lastAdvWnd, h⟩
  · rw [h]
    exact hp

lemma tcpConnect_unanswered {w₀ : Net} (hp : Unanswered (nextBlock w₀ buf ip port owner) w₀)
    (h : w₀.tcpConnect rtl8139Poll buf ip port owner = (some i, w)) :
  ∃ timer adv, w.tcpSockets i = { nextBlock w₀ buf ip port owner with
    sndNxt := (nextBlock w₀ buf ip port owner).sndUna + 1, toTcpTimer := timer, lastAdvWnd := adv }
  := by
  obtain ⟨eph, heq⟩ := tcpAllocPort_eq (w := w₀)
  rw [tcpConnect] at h
  split at h
  · cases h
  next k hfind =>
    simp only at h
    split at h
    · cases h
    split at h
    · obtain ⟨hi, hw⟩ := Prod.mk.inj h
      obtain rfl := Option.some.inj hi
      set v := ((w₀.tcpAllocPort.2.modTcp k fun _ => tcpCleared).kmalloc.2.getRandomIsn.2.modTcp k
        fun _ => nextBlock w₀ buf ip port owner) with hv
      obtain ⟨adv, hblock⟩ := block_unanswered (w := v) (i := k) (s := nextBlock w₀ buf ip port owner) (by simp [hv])
        rfl (by rw [hv, heq]; exact hp) w₀.tcpAllocPort.2.getRandomIsn.1
      set u := v.tcpXmit rtl8139Poll k w₀.tcpAllocPort.2.getRandomIsn.1 { syn := true } 0 0 with hu
      have hwu : w = (u.modTcp k fun s => { s with sndNxt := s.sndNxt + 1 }).tcpArmRtx k := hw.symm
      refine ⟨(w.tcpSockets k).toTcpTimer, adv, ?_⟩
      rw [hwu]
      simp only [tcpArmRtx, tcpSockets_modTcp, hblock]
      rfl
    · cases h

end

/-! ### Acknowledged bytes -/

section

variable {isn : BitVec 32} {W acked : List Byte} {heard : Prop} {base : List OutSegment} {seg : Segment} {e : Event}

/-- How an event moves the end of the acknowledged bytes of the stream `W`, which are those in front of the
queue: a segment that acknowledges more of them moves it to where it says, or to the end of the stream if it
acknowledges the FIN too, and nothing else moves it. -/
def Releases (poll : Net → Net) (isn : BitVec 32) (W : List Byte) (i : ℕ) (w : Net) (e : Event) : Prop :=
  let s := w.tcpSockets i
  let s' := (e.step poll i w).tcpSockets i
  ((W ++ e.accepted poll i w).length - s'.txLen = W.length - s.txLen
      ∧ ∀ seg, e = .segment seg → w.tcpLookup seg = some i → s.state ≠ .synSent → seg.flags.rst = false →
        seg.flags.ack → ∀ n, W.length - s.txLen < n → n ≤ W.length → seg.ack ≠ isn + 1 + BitVec.ofNat 32 n)
    ∨ ∃ seg, e = .segment seg ∧ seg.flags.ack ∧ W.length - s.txLen < W.length - s'.txLen
      ∧ (seg.ack = isn + 1 + BitVec.ofNat 32 (W.length - s'.txLen)
        ∨ s'.txLen = 0 ∧ s.finSent ∧ seg.ack = isn + 1 + BitVec.ofNat 32 (W.length + 1))

lemma txLen_output : ((w.tcpOutput id i).tcpSockets i).txLen = (w.tcpSockets i).txLen
  := by
  obtain ⟨nxt, fin, timer, adv, log, heq, -⟩ := tcpOutput_id (w := w) (i := i)
  rw [heq, tcpSockets_sends]

lemma txLen_xmit (seq : BitVec 32) (flags : TcpFlags) (off len : ℕ) :
  ((w.tcpXmit id i seq flags off len).tcpSockets i).txLen = (w.tcpSockets i).txLen
  := by
  rw [tcpXmit_id, tcpSockets_sends]

lemma txLen_shutdown : ((w.tcpShutdown id i).tcpSockets i).txLen = (w.tcpSockets i).txLen
  := by
  rw [tcpShutdown]
  split
  · rfl
  split
  · rw [txLen_output, tcpSockets_modTcp]
  · rw [txLen_output, tcpSockets_modTcp]
  · rfl

lemma txLen_write (data : List Byte) :
  ((w.tcpWrite id i data).2.tcpSockets i).txLen
    = (w.tcpSockets i).txLen + (data.take (w.tcpWrite id i data).1).length
  := by
  rw [tcpWrite]
  split
  · simp
  split
  · simp
  · simp only [txLen_output, tcpSockets_modTcp, length_take]
    omega

lemma txLen_timeout (now : BitVec 32) (hact : ((w.tcpTimeout id i now).tcpSockets i).active) :
  ((w.tcpTimeout id i now).tcpSockets i).txLen = (w.tcpSockets i).txLen
  := by
  rw [tcpTimeout] at hact ⊢
  dsimp only at hact ⊢
  split_ifs at hact ⊢
  · simp at hact
  · rw [timeoutRetry, tcpSockets_modTcp, txLen_xmit]
  · rw [timeoutPersist, tcpSockets_modTcp, txLen_xmit]
  · simp at hact
  · rw [timeoutRetry, tcpSockets_modTcp, txLen_output, tcpSockets_modTcp]

/-- The queue after a segment that has not released the connection. -/
lemma txLen_input (hsyn : (w.tcpSockets i).state ≠ .synSent) (hrst : seg.flags.rst = false)
    (hact : ((w.tcpInput i seg).tcpSockets i).active) :
  ((w.tcpInput i seg).tcpSockets i).txLen = ((w.inputAck i seg).2.tcpSockets i).txLen
  := by
  obtain ⟨need, heq⟩ := tcpInput_processed hsyn hrst
  rw [heq, inputFinish_eq] at hact ⊢
  split
  next hlast => simp [if_pos hlast] at hact
  · obtain ⟨deadline, adv, hans⟩ := tcpSockets_answered (w := w.processed i seg) (i := i) need (w.inputAck i seg).1
    obtain ⟨nxt, reorder, fin, deadline, accepted, hproc⟩ := tcpSockets_processed (w := w) (i := i) seg
    rw [txLen_output, hans, hproc]

/-- The answer to the SYN and resets leave the queue of a connection that they do not release. -/
lemma txLen_input_other (h : (w.tcpSockets i).state = .synSent ∨ seg.flags.rst)
    (hact : ((w.tcpInput i seg).tcpSockets i).active) :
  ((w.tcpInput i seg).tcpSockets i).txLen = (w.tcpSockets i).txLen
  := by
  rw [tcpInput] at hact ⊢
  split
  next hsyn =>
    rw [if_pos hsyn, inputSynSent] at hact
    rw [inputSynSent]
    dsimp only at hact ⊢
    split_ifs at hact ⊢
    · simp at hact
    · rfl
    · rw [txLen_output, tcpSockets_tcpNotify, tcpSendAck, txLen_xmit, tcpSockets_modTcp]
    · rfl
  next hsyn =>
    have hrst := h.resolve_left hsyn
    rw [if_neg hsyn, if_pos hrst, inputRst] at hact
    rw [if_pos hrst, inputRst]
    split
    next hwin =>
      rw [if_pos hwin] at hact
      split at hact <;> simp at hact
    · rfl

/-- What an acknowledgement takes from the queue. -/
lemma txLen_ackOutcome (hlen : s.txLen ≤ tcpTxBufSize) (now ack : BitVec 32) (wnd : ℕ) :
  (ackOutcome now ack wnd s).txLen
    = if (ack - s.sndUna).toNat ≤ s.txLen + (if s.finSent then 1 else 0) then s.txLen - (ack - s.sndUna).toNat
      else s.txLen
  := by
  have hnew : ackIsNew s ack ↔ 0 < (ack - s.sndUna).toNat
      ∧ (ack - s.sndUna).toNat ≤ s.txLen + if s.finSent then 1 else 0 := Sending.ackIsNew_iff hlen
  rw [ackOutcome]
  split
  next h =>
    rw [if_pos (hnew.mp h).2, ackAdvance]
    simp only
    omega
  next h =>
    have hsame : (if ack = s.sndUna then { s with sndWnd := wnd } else s).txLen = s.txLen := by
      split <;> rfl
    rw [hsame]
    by_cases hle : (ack - s.sndUna).toNat ≤ s.txLen + (if s.finSent then 1 else 0)
    · have hzero : (ack - s.sndUna).toNat = 0 := by
        by_contra hpos
        exact h (hnew.mpr ⟨by omega, hle⟩)
      rw [if_pos hle, hzero, Nat.sub_zero]
    · rw [if_neg hle]

/-- An acknowledgement of the bytes up to number `n`, as the queue counts it. -/
lemma ack_sub_una (hh : Holds W acked s) (hd : InData isn acked s) {n : ℕ} (hlo : W.length - s.txLen ≤ n)
    (hhi : n ≤ W.length + 1) :
  (isn + 1 + BitVec.ofNat 32 n - s.sndUna).toNat = n - (W.length - s.txLen)
  := by
  have hlen := hh.length_eq
  obtain ⟨-, -, hle, -⟩ := hh
  simp only [tcpTxBufSize] at hle
  have hn : n = acked.length + (n - acked.length) := by omega
  have hack : isn + 1 + BitVec.ofNat 32 n = after (after isn (1 + acked.length)) (n - acked.length) := by
    conv_lhs => rw [hn]
    rw [after_after, Nat.add_assoc, ← after_after]
    rfl
  rw [hack, hd.una, toNat_after_sub, Nat.mod_eq_of_lt (by omega)]
  omega

/-- Every acknowledgement number is that of the bytes up to some number. -/
lemma ack_eq_number (hd : InData isn acked s) (ack : BitVec 32) :
  ack = isn + 1 + BitVec.ofNat 32 (acked.length + (ack - s.sndUna).toNat)
  := by
  have hto := after_sub_toNat s.sndUna ack
  rw [hd.una, after_after, Nat.add_assoc, ← after_after, ← hd.una] at hto
  exact hto.symm

/-- What is left of the queue after an acknowledgement, and what the acknowledgement says then. -/
lemma inData_released (hh : Holds W acked s) (hd : InData isn acked s) (ack : BitVec 32) {len : ℕ}
    (hleft : len = if (ack - s.sndUna).toNat ≤ s.txLen + (if s.finSent then 1 else 0)
      then s.txLen - (ack - s.sndUna).toNat else s.txLen) :
  (len = s.txLen ∧ ∀ n, W.length - s.txLen < n → n ≤ W.length → ack ≠ isn + 1 + BitVec.ofNat 32 n)
    ∨ len < s.txLen ∧ (ack = isn + 1 + BitVec.ofNat 32 (W.length - len)
      ∨ len = 0 ∧ s.finSent ∧ ack = isn + 1 + BitVec.ofNat 32 (W.length + 1))
  := by
  have hlen := hh.length_eq
  have hback := ack_eq_number hd ack
  -- an acknowledgement of the byte with number `n` is this far ahead of `snd_una`
  have hnum : ∀ n, W.length - s.txLen < n → n ≤ W.length → ack = isn + 1 + BitVec.ofNat 32 n →
      (ack - s.sndUna).toNat = n - acked.length := by
    intro n hlo hhi heq
    rw [heq, ack_sub_una hh hd (by omega) (by omega)]
    omega
  generalize (ack - s.sndUna).toNat = d at hleft hback hnum
  by_cases hin : d ≤ s.txLen + (if s.finSent then 1 else 0)
  · rw [if_pos hin] at hleft
    by_cases hpos : 0 < d ∧ 0 < s.txLen
    · refine .inr ⟨by omega, ?_⟩
      by_cases hdata : d ≤ s.txLen
      · left
        rw [hback]
        congr 2
        omega
      · right
        have hfin : s.finSent := by
          by_contra hno
          rw [if_neg hno] at hin
          omega
        rw [if_pos hfin] at hin
        refine ⟨by omega, hfin, ?_⟩
        rw [hback]
        congr 2
        omega
    · refine .inl ⟨by omega, fun n hlo hhi heq => ?_⟩
      have := hnum n hlo hhi heq
      omega
  · rw [if_neg hin] at hleft
    refine .inl ⟨hleft, fun n hlo hhi heq => ?_⟩
    have := hnum n hlo hhi heq
    omega

lemma releases_ack (hq : Queue isn W heard (w.tcpSockets i)) (hl : w.tcpLookup seg = some i)
    (hsyn : (w.tcpSockets i).state ≠ .synSent) (hrst : seg.flags.rst = false)
    (hact : ((w.tcpInput i seg).tcpSockets i).active) :
  Releases id isn W i w (.segment seg)
  := by
  have hlen' := txLen_input hsyn hrst hact
  rw [tcpSockets_inputAck] at hlen'
  have hstep : (Event.segment seg).step id i w = w.tcpInput i seg := by simp only [Event.step, hl, if_true, handleTcp]
  obtain ⟨acked, hh, hphase⟩ := hq
  have hlen := hh.length_eq
  have hle : (w.tcpSockets i).txLen ≤ tcpTxBufSize := by
    obtain ⟨-, -, hle, -⟩ := hh
    exact hle
  rw [Releases, hstep]
  simp only [Event.accepted, append_nil, hlen']
  cases hack : seg.flags.ack with
  | false =>
    refine .inl ⟨by simp, ?_⟩
    rintro seg' ⟨⟩ - - - hflag
    rw [hack] at hflag
    cases hflag
  | true =>
    rw [if_pos rfl, txLen_ackOutcome hle]
    rcases hphase with hs | hd | ⟨hf, -⟩
    · exact absurd hs.state hsyn
    · rcases inData_released hh hd seg.ack rfl with ⟨hsame, hnone⟩ | ⟨hless, hsays⟩
      · rw [hsame]
        refine .inl ⟨rfl, ?_⟩
        rintro seg' ⟨⟩ - - - -
        exact hnone
      · exact .inr ⟨seg, rfl, hack, by omega, hsays⟩
    · refine .inl ⟨?_, ?_⟩
      · rw [hf.len, Nat.zero_sub, ite_self]
      · rintro seg' ⟨⟩ - - - - n hlo hhi
        have := hf.len
        omega

lemma releases_of_txLen (hlen : ((e.step id i w).tcpSockets i).txLen
      = (w.tcpSockets i).txLen + (e.accepted id i w).length) (hle : (w.tcpSockets i).txLen ≤ W.length)
    (hseg : ∀ seg, e = .segment seg → w.tcpLookup seg = some i →
      (w.tcpSockets i).state = .synSent ∨ seg.flags.rst) :
  Releases id isn W i w e
  := by
  refine .inl ⟨?_, ?_⟩
  · rw [hlen, length_append]
    omega
  · intro seg he hl hsyn hrst
    rcases hseg seg he hl with hs | hr
    · exact absurd hs hsyn
    · rw [hrst] at hr
      cases hr

/-- Every event that does not release a connection keeps account of the acknowledged bytes. -/
lemma releases_step (h : Sending isn base heard i W w) (e : Event)
    (hact : ((e.step id i w).tcpSockets i).active) :
  Releases id isn W i w e
  := by
  have hq := h.queue (active_of_step hact)
  have hle : (w.tcpSockets i).txLen ≤ W.length := by
    obtain ⟨acked, hh, -⟩ := hq
    have := hh.length_eq
    omega
  cases e with
  | write data => exact releases_of_txLen (txLen_write data) hle (by simp)
  | read =>
    refine releases_of_txLen ?_ hle (by simp)
    simp only [Event.step, Event.accepted, length_nil, Nat.add_zero]
    rcases tcpWindowUpdate_cases (w := w) (i := i) id with heq | heq <;> rw [heq]
    exact txLen_xmit _ _ _ _
  | shutdown => exact releases_of_txLen txLen_shutdown hle (by simp)
  | close =>
    refine releases_of_txLen ?_ hle (by simp)
    simp only [Event.step, Event.accepted, length_nil, Nat.add_zero, tcpClose] at hact ⊢
    split_ifs at hact ⊢
    · simp at hact
    · rw [txLen_shutdown, tcpSockets_modTcp]
    · rfl
  | segment seg =>
    by_cases hl : w.tcpLookup seg = some i
    · simp only [Event.step, hl, if_true, handleTcp] at hact
      by_cases hother : (w.tcpSockets i).state = .synSent ∨ seg.flags.rst
      · refine releases_of_txLen ?_ hle (by rintro seg' ⟨⟩ -; exact hother)
        simp only [Event.step, hl, if_true, handleTcp]
        exact txLen_input_other hother hact
      · rw [not_or, Bool.not_eq_true] at hother
        exact releases_ack hq hl hother.1 hother.2 hact
    · refine releases_of_txLen ?_ hle (by rintro seg' ⟨⟩ hl'; exact absurd hl' hl)
      simp only [Event.step, if_neg hl]
      rfl
  | timeout now =>
    refine releases_of_txLen ?_ hle (by simp)
    simp only [Event.step, Event.accepted, length_nil, Nat.add_zero] at hact ⊢
    split
    next hopen =>
      rw [if_pos hopen] at hact
      exact txLen_timeout now hact
    · rfl
  | output =>
    refine releases_of_txLen ?_ hle (by simp)
    simp only [Event.step, Event.accepted, length_nil, Nat.add_zero]
    split
    · exact txLen_output
    · rfl
  | tick t => exact releases_of_txLen rfl hle (by simp)

end

/-! ### The stream -/

section

variable {W : List Byte} {buf : ℕ → Byte} {ip : BitVec 32} {port : BitVec 16} {owner : ℕ}

lemma Resolved.run : ∀ (es : List Event) {w : Net}, Resolved i w → Resolved i (runEvents id i w es)
  | [], _, h => h
  | e :: es, _, h => Resolved.run es (h.step e)

/-- The sent stream of a connection is in order: `snd_nxt` lies between `snd_una` and the end of the queue; the
transmit ring holds the bytes of `W` that are not acknowledged; every byte that is sent is the byte of the stream
with its number; a FIN comes behind the last byte, and once it is queued no more bytes are accepted. -/
structure SentStream (isn : BitVec 32) (base : List OutSegment) (i : ℕ) (W : List Byte) (w : Net) : Prop where
  flight : (w.tcpSockets i).active → (w.tcpSockets i).state ≠ .synSent →
    ((w.tcpSockets i).sndNxt - (w.tcpSockets i).sndUna).toNat
      ≤ (w.tcpSockets i).txLen + (if (w.tcpSockets i).finPending then 1 else 0)
  ring : (w.tcpSockets i).active → ∃ buf acked, (w.tcpSockets i).txBuf = some buf
    ∧ W = acked ++ window buf tcpTxBufSize (w.tcpSockets i).txHead (w.tcpSockets i).txLen
    ∧ ((w.tcpSockets i).state = .synSent ∧ acked = []
      ∨ (w.tcpSockets i).state ≠ .synSent ∧ (w.tcpSockets i).sndUna = isn + 1 + BitVec.ofNat 32 acked.length
      ∨ acked = W ∧ (w.tcpSockets i).finPending
        ∧ ((w.tcpSockets i).state = .finWait2 ∨ (w.tcpSockets i).state = .timeWait))
  releases : ∀ e : Event, ((e.step rtl8139Poll i w).tcpSockets i).active → Releases rtl8139Poll isn W i w e
  log : ∃ log, w.sent = base ++ log ∧ ∀ seg ∈ log,
    (∀ k (hk : k < seg.payload.length), ∃ n, ∃ hn : n < W.length,
      seg.seq + BitVec.ofNat 32 k = isn + 1 + BitVec.ofNat 32 n ∧ seg.payload.get ⟨k, hk⟩ = W.get ⟨n, hn⟩)
    ∧ (seg.flags.fin → (w.tcpSockets i).finPending ∧ seg.seq = isn + 1 + BitVec.ofNat 32 W.length)
  fin : (w.tcpSockets i).finPending → ∀ data, (w.tcpWrite rtl8139Poll i data).1 = 0

/-- A byte of a segment that agrees with the stream is the byte of the stream with its number. -/
lemma agrees_byte {isn : BitVec 32} {pending : Bool} {seg : OutSegment} (h : Agrees isn W pending seg) {k : ℕ}
    (hk : k < seg.payload.length) :
  ∃ n, ∃ hn : n < W.length,
    seg.seq + BitVec.ofNat 32 k = isn + 1 + BitVec.ofNat 32 n ∧ seg.payload.get ⟨k, hk⟩ = W.get ⟨n, hn⟩
  := by
  obtain ⟨a, b, hab, hseq⟩ := h.1 (ne_nil_of_length_pos (by omega))
  refine ⟨a.length + k, ?_, ?_, ?_⟩
  · rw [hab]
    simp
    omega
  · rw [hseq]
    change after (after isn (1 + a.length)) k = after (after isn 1) (a.length + k)
    rw [after_after, after_after, Nat.add_assoc]
  · subst hab
    simp [hk]

lemma Sending.sentStream {isn : BitVec 32} {base : List OutSegment} {heard : Prop}
    (h : Sending isn base heard i W w) (hres : Resolved i w) :
  SentStream isn base i W w
  := by
  refine ⟨?_, ?_, ?_, ?_, ?_⟩
  · intro hact hsyn
    obtain ⟨acked, -, hs | hd | ⟨hf, -⟩⟩ := h.queue hact
    · exact absurd hs.state hsyn
    · exact hd.flight
    · rw [hf.nxt, BitVec.sub_self, BitVec.toNat_zero]
      omega
  · intro hact
    obtain ⟨acked, ⟨buf, hbuf, -, hring⟩, hphase⟩ := h.queue hact
    refine ⟨buf, acked, hbuf, hring, ?_⟩
    rcases hphase with hs | hd | ⟨hf, -, hno⟩
    · exact .inl ⟨hs.state, hs.acked⟩
    · refine .inr (.inl ⟨hd.state, ?_⟩)
      rw [hd.una, ← after_after]
      rfl
    · refine .inr (.inr ⟨?_, hf.pending, ?_⟩)
      · rw [hring, hf.len, window_zero, append_nil]
      · have := hf.queued
        cases hst : (w.tcpSockets i).state <;> simp_all [finQueued, canSend]
  · intro e hact
    rw [Event.step_of_resolved rtl8139Poll hres] at hact
    have hstep := releases_step h e hact
    rw [Releases] at hstep ⊢
    rw [Event.step_of_resolved rtl8139Poll hres, Event.accepted_of_resolved rtl8139Poll hres]
    exact hstep
  · obtain ⟨log, hlog, hagree⟩ := h.log
    refine ⟨log, hlog, fun seg hseg => ?_⟩
    have hfin := (hagree seg hseg).2
    refine ⟨fun k hk => agrees_byte (hagree seg hseg) hk, fun hf => ⟨(hfin hf).1, ?_⟩⟩
    rw [(hfin hf).2, ← after_after]
    rfl
  · intro hpend data
    rw [tcpWrite]
    split
    · rfl
    · rw [if_pos (by simp [hpend])]

/-- A run of a connection whose SYN was not answered in the wait and found the address of the next hop. -/
lemma sending_of_connect {w₀ w₁ : Net} (hconn : w₀.tcpConnect rtl8139Poll buf ip port owner = (some i, w₁))
    (hquiet : Unanswered (nextBlock w₀ buf ip port owner) w₀) (hknown : Resolved i w₁) (es : List Event) :
  Sending (nextBlock w₀ buf ip port owner).sndUna w₁.sent
    (Heard (nextBlock w₀ buf ip port owner).sndUna (written rtl8139Poll i w₁ es) (received rtl8139Poll i w₁ es))
    i (written rtl8139Poll i w₁ es) (runEvents rtl8139Poll i w₁ es)
  := by
  obtain ⟨timer, adv, hblock⟩ := tcpConnect_unanswered hquiet hconn
  obtain ⟨hrun, hwritten, hreceived⟩ := run_of_resolved rtl8139Poll es hknown
  rw [hrun, hwritten, hreceived, ← nil_append (received id i w₁ es)]
  have hopened : Sending (nextBlock w₀ buf ip port owner).sndUna w₁.sent
      (Heard (nextBlock w₀ buf ip port owner).sndUna [] []) i [] w₁ := sending_of_opened hblock
  exact hopened.run

/-- The sent stream is in order after every sequence of events on a connection that was opened without an answer
in the wait of its SYN, and whose next hop is known when `tcp_connect` returns. -/
theorem send_stream_invariant {w₀ w₁ : Net} {buf : ℕ → Byte} {ip : BitVec 32} {port : BitVec 16} {owner : ℕ}
    (hconn : w₀.tcpConnect rtl8139Poll buf ip port owner = (some i, w₁))
    (hquiet : Unanswered (nextBlock w₀ buf ip port owner) w₀) (hknown : Resolved i w₁) (es : List Event) :
  SentStream (nextBlock w₀ buf ip port owner).sndUna w₁.sent i (written rtl8139Poll i w₁ es)
    (runEvents rtl8139Poll i w₁ es)
  := by
  refine (sending_of_connect hconn hquiet hknown es).sentStream ?_
  rw [(run_of_resolved rtl8139Poll es hknown).1]
  exact hknown.run es

end

/-- The block of the first connection after the start. -/
def firstBlock : TcpSocket := nextBlock (boot (fun _ => true) []) (fun _ => 0) 7 80 0

/-- A segment from the peer of the first connection. -/
def toFirst (flags : TcpFlags) (ack : BitVec 32) : Segment where
  srcIp := 7
  srcPort := 80
  destPort := firstBlock.localPort
  seq := 99
  ack := ack
  flags := flags
  windowSize := 1000
  options := []
  payload := []
  short := Segment.short_nil

/-- The first connection after the start, with the packets that come while its SYN waits. -/
def connected (rx : List (List Packet)) : Net :=
  ((boot (fun _ => true) rx).tcpConnect rtl8139Poll (fun _ => 0) 7 80 0).2

lemma tcpConnect_boot (rx : List (List Packet))
    (h : ((boot (fun _ => true) rx).tcpConnect rtl8139Poll (fun _ => 0) 7 80 0).1 = some 0) :
  (boot (fun _ => true) rx).tcpConnect rtl8139Poll (fun _ => 0) 7 80 0 = (some 0, connected rx)
  := Prod.ext h rfl

/-- The SYN is answered, six bytes are written, two of them are acknowledged, and the application shuts down. -/
def sixWritten : List Event :=
  [.segment (toFirst { syn := true, ack := true } (firstBlock.sndUna + 1)), .write [1, 2, 3, 4, 5, 6],
    .segment (toFirst { ack := true } (firstBlock.sndUna + 3)), .shutdown]

/-- While the SYN waits only the gateway gives its address. -/
def gatewayReply : List (List Packet) := [[.arp 0x0A000202]]

lemma unanswered_gatewayReply :
  Unanswered (nextBlock (boot (fun _ => true) gatewayReply) (fun _ => 0) 7 80 0) (boot (fun _ => true) gatewayReply)
  := by
  refine .inr ?_
  change ∀ batch ∈ [[Packet.arp 0x0A000202]], _
  simp only [forall_mem_cons, not_mem_nil, false_implies, implies_true, and_true]
  intro seg hseg
  cases hseg

lemma isn_gatewayReply :
  (nextBlock (boot (fun _ => true) gatewayReply) (fun _ => 0) 7 80 0).sndUna = firstBlock.sndUna
  := by decide +kernel

lemma resolved_gatewayReply : Resolved 0 (connected gatewayReply)
  := by
  have hall : (connected gatewayReply).iface.all (fun iface => decide
      (nextHop iface ((connected gatewayReply).tcpSockets 0).remoteIp ∈ (connected gatewayReply).arpCache)) := by
    decide +kernel
  intro iface hi
  rw [hi] at hall
  exact of_decide_eq_true hall

/-- The transmit ring holds four of six bytes, with the FIN behind them. -/
theorem send_stream_invariant_six :
  ((runEvents rtl8139Poll 0 (connected gatewayReply) sixWritten).tcpSockets 0).txLen = 4
    ∧ ((runEvents rtl8139Poll 0 (connected gatewayReply) sixWritten).tcpSockets 0).finPending
    ∧ SentStream firstBlock.sndUna (connected gatewayReply).sent 0 [1, 2, 3, 4, 5, 6]
      (runEvents rtl8139Poll 0 (connected gatewayReply) sixWritten)
  := by
  have hW : written rtl8139Poll 0 (connected gatewayReply) sixWritten = [1, 2, 3, 4, 5, 6] := by decide +kernel
  refine ⟨by decide +kernel, by decide +kernel, ?_⟩
  rw [← hW, ← isn_gatewayReply]
  exact send_stream_invariant (tcpConnect_boot _ (by decide +kernel)) unanswered_gatewayReply resolved_gatewayReply
    sixWritten

/-- A segment that acknowledges the initial sequence number answers the SYN while it waits for the address of the
gateway. -/
def earlyAnswer : List (List Packet) :=
  [[.tcp (toFirst { syn := true, ack := true } firstBlock.sndUna), .arp 0x0A000202]]

/-- The connection is established with a byte in flight that was never written, and the first byte that is written
is not sent. -/
theorem first_byte_skipped :
  ∃ w, w = runEvents rtl8139Poll 0 (connected earlyAnswer) [.write [1, 2, 3]]
    ∧ written rtl8139Poll 0 (connected earlyAnswer) [.write [1, 2, 3]] = [1, 2, 3]
    ∧ (w.sent.drop (connected earlyAnswer).sent.length).map (fun seg => (seg.seq, seg.payload))
      = [(firstBlock.sndUna + 1, [2, 3])]
    ∧ ¬ SentStream firstBlock.sndUna (connected earlyAnswer).sent 0 [1, 2, 3] w
  := by
  refine ⟨_, rfl, by decide +kernel, by decide +kernel, ?_⟩
  intro h
  have hst : ((runEvents rtl8139Poll 0 (connected earlyAnswer) [.write [1, 2, 3]]).tcpSockets 0).state
      = .established := by decide +kernel
  have hlen : ((runEvents rtl8139Poll 0 (connected earlyAnswer) [.write [1, 2, 3]]).tcpSockets 0).txLen = 3 := by
    decide +kernel
  have huna : ((runEvents rtl8139Poll 0 (connected earlyAnswer) [.write [1, 2, 3]]).tcpSockets 0).sndUna
      = firstBlock.sndUna := by decide +kernel
  obtain ⟨buf, acked, -, hW, hphase⟩ := h.ring (by decide +kernel)
  have hacked : acked = [] := by
    have := congrArg length hW
    rw [length_append, length_window, hlen] at this
    exact eq_nil_of_length_eq_zero (by simpa using this)
  rw [hst, huna, hacked] at hphase
  rcases hphase with ⟨hsyn, -⟩ | ⟨-, hmove⟩ | ⟨-, -, hfin⟩
  · cases hsyn
  · exact absurd hmove (by decide +kernel)
  · rcases hfin with hfin | hfin <;> cases hfin

end Net
