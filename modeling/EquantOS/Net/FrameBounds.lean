import EquantOS.Net.Frame
import EquantOS.Net.Input
import EquantOS.Net.Socket

/-!
# The bounds of a frame

The handlers stay inside a frame exactly when the frame is as long as the headers that they
look at, and as its fields say if the payload is handed on.
-/

open Trace List

namespace Memory

variable {packet : Memory} {P : Access → Prop}

@[simp]
lemma value_u8 (k : ℕ) : value (packet.u8 k) = packet k := rfl

@[simp]
lemma value_u16 (k : ℕ) : value (packet.u16 k) = packet.be16 k := rfl

@[simp]
lemma value_u32 (k : ℕ) : value (packet.u32 k) = packet.be32 k := rfl

@[simp]
lemma all_u8 (k : ℕ) : All P (packet.u8 k) ↔ P (.read k)
  := by
  simp [u8]

@[simp]
lemma all_u16 (k : ℕ) : All P (packet.u16 k) ↔ P (.read k) ∧ P (.read (k + 1))
  := by
  simp [u16]

@[simp]
lemma all_u32 (k : ℕ) :
  All P (packet.u32 k) ↔ P (.read k) ∧ P (.read (k + 1)) ∧ P (.read (k + 2)) ∧ P (.read (k + 3))
  := by
  simp [u32]

lemma bytes_succ (start len : ℕ) :
  packet.bytes start (len + 1) = packet start :: packet.bytes (start + 1) len
  := by
  rw [bytes, range_succ_eq_map, map_cons, map_map]
  congr 1
  apply map_congr_left
  intro k _
  exact congrArg packet (by simp; omega)

lemma drop_bytes (start len n : ℕ) :
  (packet.bytes start len).drop n = packet.bytes (start + n) (len - n)
  := by
  apply ext_getElem
  · simp
  · intro k _ _
    simp [bytes, Nat.add_assoc]

lemma getD_bytes {start len k : ℕ} (hk : k < len) :
  (packet.bytes start len).getD k 0 = packet (start + k)
  := by
  simp [bytes, hk]

end Memory

namespace Net

variable {w : Net} {packet : Memory} {length : ℕ} {overclaims : Prop}

/-- An access that stays inside a frame; nothing is handed on if the frame claims to be longer
than it is. -/
def InFrame (length : ℕ) (overclaims : Prop) : Access → Prop
  | .read k => k < length
  | .hand start len => start + len ≤ length ∧ ¬ overclaims

@[simp]
lemma inFrame_read (k : ℕ) : InFrame length overclaims (.read k) ↔ k < length := Iff.rfl

@[simp]
lemma inFrame_hand (start len : ℕ) :
  InFrame length overclaims (.hand start len) ↔ start + len ≤ length ∧ ¬ overclaims
  := Iff.rfl

/-! ### ARP -/

lemma all_handleArp (iface : NetInterface) :
  All (InFrame length overclaims) (w.handleArp iface packet)
    ↔ 32 ≤ length ∧ (packet.be16 20 = 1 → 42 ≤ length)
  := by
  simp only [handleArp, Memory.mac, all_bind, all_ite]
  simp only [Memory.value_u32, Memory.value_u16, Memory.all_u32, Memory.all_u16, all_pure,
    inFrame_read, and_true]
  by_cases hc : w.arpCache.contains (packet.be32 28) ∨ w.arpCache.length < arpCacheSize <;>
    by_cases ho : packet.be16 20 = 1 <;> by_cases ht : packet.be32 38 = iface.ip <;>
    simp only [hc, ho, ht, not_true_eq_false, not_false_eq_true, false_implies, true_implies,
      implies_true, and_true, true_and] <;> omega

/-! ### UDP -/

/-- A datagram socket has room for a datagram. -/
def udpTakes (w : Net) (destPort : BitVec 16) (srcIp : BitVec 32) (srcPort : BitVec 16) : Bool :=
  match (List.range sockMax).find? (w.udpMatches destPort srcIp srcPort) with
  | none => false
  | some j => (w.sockets j).dq.length < sockUdpQueueMax && w.kmalloc.1

lemma all_sockUdpDeliver (destPort : BitVec 16) (srcIp : BitVec 32) (srcPort : BitVec 16)
    (start len : ℕ) {P : Access → Prop} :
  All P (w.sockUdpDeliver packet destPort srcIp srcPort start len)
    ↔ (w.udpTakes destPort srcIp srcPort → P (.hand start len))
  := by
  rw [sockUdpDeliver, udpTakes]
  cases (range sockMax).find? (w.udpMatches destPort srcIp srcPort) with
  | none => simp
  | some j =>
    by_cases hfull : sockUdpQueueMax ≤ (w.sockets j).dq.length
    · simp [hfull]
    · cases hmalloc : w.kmalloc.1 <;> simp [hfull, Nat.not_le.mp hfull, hmalloc]

/-- The frame is as long as the datagram in it says. -/
def Covers (packet : Memory) (length stop : ℕ) : Prop :=
  stop ≤ length ∧ 14 + (packet.be16 16).toNat ≤ length

/-- A frame with a datagram is long enough: for the header and, if somebody takes the datagram,
for its source and its payload. -/
def UdpFits (w : Net) (packet : Memory) (length : ℕ) : Prop :=
  let udp := 14 + ihl (packet 14)
  let len := (packet.be16 (udp + 4)).toNat
  udp + 6 ≤ length ∧ (8 ≤ len →
    match w.udpService (packet.be16 (udp + 2)) with
    | some s => s.callback → 30 ≤ length ∧ Covers packet length (udp + len)
    | none => 30 ≤ length ∧ (w.udpTakes (packet.be16 (udp + 2)) (packet.be32 26) (packet.be16 udp) →
        Covers packet length (udp + len)))

/-- The fields of an IPv4 frame claim more bytes than the frame has. -/
def Overclaims (packet : Memory) (length : ℕ) : Prop :=
  let payload := 14 + ihl (packet 14)
  length < payload ∨ length < 14 + (packet.be16 16).toNat
    ∨ packet 23 = 17 ∧ length < payload + (packet.be16 (payload + 4)).toNat
    ∨ packet 23 = 6 ∧ length < payload + (packet (payload + 12) >>> 4).toNat * 4

variable {hdrLen len skip : ℕ} {seg : Segment}

lemma inFrame_datagram (length : ℕ) (hudp : packet 23 = 17) (hlen : 8 ≤ len)
    (heq : (packet.be16 (14 + ihl (packet 14) + 4)).toNat = len) :
  InFrame length (Overclaims packet length) (.hand (14 + ihl (packet 14) + 8) (len - 8))
    ↔ Covers packet length (14 + ihl (packet 14) + len)
  := by
  have htcp : ¬ (17 : Byte) = 6 := by decide
  simp only [inFrame_hand, Overclaims, Covers, hudp, htcp, false_and, or_false]
  omega

lemma all_handleUdp (hudp : packet 23 = 17) :
  All (InFrame length (Overclaims packet length)) (w.handleUdp packet (ihl (packet 14)))
    ↔ UdpFits w packet length
  := by
  rw [handleUdp, all_bind, all_bind, all_bind, all_ite]
  simp only [Memory.value_u16, Memory.all_u16, inFrame_read, all_pure, implies_true, true_and,
    not_lt]
  rw [← and_assoc, ← and_assoc]
  apply and_congr
  · omega
  apply imp_congr_right
  intro hlen
  have hhand := inFrame_datagram length hudp hlen rfl
  cases w.udpService (packet.be16 (14 + ihl (packet 14) + 2)) with
  | some s =>
    simp only [all_ite, all_bind, Memory.all_u32, inFrame_read, all_pure, and_true, implies_true,
      all_tell, mem_singleton, forall_eq, hhand]
    apply imp_congr_right
    intro _
    exact and_congr_left' (by omega)
  | none =>
    simp only [all_bind, Memory.all_u32, all_sockUdpDeliver, hhand, inFrame_read]
    exact and_congr_left' (by omega)

/-! ### TCP -/

/-- Where the walk over the options from `opt` to `stop` ends: behind the last byte that it looks at,
`0` if there are no options. -/
def optionsEnd (packet : Memory) (stop : ℕ) : ℕ → ℕ → ℕ
  | 0, _ => 0
  | fuel + 1, opt =>
    if opt < stop then
      if packet opt = 0 then opt + 1
      else if packet opt = 1 then max (opt + 1) (optionsEnd packet stop fuel (opt + 1))
      else if stop ≤ opt + 1 then opt + 1
      else if (packet (opt + 1)).toNat < 2 ∨ stop < opt + (packet (opt + 1)).toNat then opt + 2
      else
        max (if packet opt = 2 ∧ packet (opt + 1) = 4 then opt + 4 else opt + 2)
          (optionsEnd packet stop fuel (opt + (packet (opt + 1)).toNat))
    else 0

lemma all_parseOptionsAt (stop : ℕ) :
    ∀ fuel opt mss : ℕ, All (InFrame length overclaims) (parseOptionsAt packet stop fuel opt mss)
      ↔ optionsEnd packet stop fuel opt ≤ length
  | 0, opt, mss => by simp [parseOptionsAt, optionsEnd]
  | fuel + 1, opt, mss => by
    rw [parseOptionsAt, optionsEnd]
    by_cases hopt : opt < stop
    swap
    · simp [hopt]
    rw [if_pos hopt, if_pos hopt, all_bind, Memory.all_u8, Memory.value_u8, inFrame_read]
    by_cases h0 : packet opt = 0
    · rw [if_pos h0, if_pos h0]
      simp only [all_pure, and_true]
      omega
    rw [if_neg h0, if_neg h0]
    by_cases h1 : packet opt = 1
    · rw [if_pos h1, if_pos h1, all_parseOptionsAt stop fuel]
      omega
    rw [if_neg h1, if_neg h1]
    by_cases hend : stop ≤ opt + 1
    · rw [if_pos hend, if_pos hend]
      simp only [all_pure, and_true]
      omega
    rw [if_neg hend, if_neg hend, all_bind, Memory.all_u8, Memory.value_u8, inFrame_read]
    by_cases hbad : (packet (opt + 1)).toNat < 2 ∨ stop < opt + (packet (opt + 1)).toNat
    · rw [if_pos hbad, if_pos hbad]
      simp only [all_pure, and_true]
      omega
    rw [if_neg hbad, if_neg hbad]
    by_cases hmss : packet opt = 2 ∧ packet (opt + 1) = 4
    · rw [if_pos hmss, if_pos hmss, all_bind, all_parseOptionsAt stop fuel]
      simp only [Memory.all_u16, inFrame_read]
      omega
    · rw [if_neg hmss, if_neg hmss, all_parseOptionsAt stop fuel]
      omega

/-- What is handed on is the payload from some byte on. -/
lemma handedData_end {s : TcpSocket}
    (h : w.handedData s seg = some (skip, len)) :
  skip + len = seg.payload.length
  := by
  have hshort := seg.short
  rw [handedData] at h
  split_ifs at h with hrecv heq hlt hgt htakes
  · obtain ⟨rfl, rfl⟩ := Prod.mk.inj (Option.some.inj h)
    omega
  · obtain ⟨rfl, rfl⟩ := Prod.mk.inj (Option.some.inj h)
    have hback := Serial.toNat_sub_le (Serial.le_of_lt hlt)
    rw [← Serial.after, ← Serial.after_sub_toNat seg.seq s.rcvNxt,
      Serial.gt_after_iff (by omega) (by omega)] at hgt
    omega
  · obtain ⟨rfl, rfl⟩ := Prod.mk.inj (Option.some.inj h)
    omega

/-- The acknowledgement of a segment does not matter to what is handed on. -/
lemma handedData_inputAck (i : ℕ) (seg : Segment) :
  (w.inputAck i seg).2.handedData ((w.inputAck i seg).2.tcpSockets i) seg
    = w.handedData (w.tcpSockets i) seg
  := by
  have hmalloc : (w.inputAck i seg).2.kmalloc.1 = w.kmalloc.1 := by
    rw [inputAck]
    split
    · rw [tcpProcessAck]
      split
      · obtain ⟨sockets, heq, -⟩ := tcpNotify_eq (i := i) (w := w.modTcp i
          (ackAdvance w.tcpNowMs seg.ack seg.windowSize.toNat))
        rw [heq]
        rfl
      · split <;> rfl
    · rfl
  obtain ⟨snd, timer, hack⟩ := inputAck_eq (w := w) (i := i) seg
  rw [handedData, reorderTakes, hack, hmalloc]
  rfl

/-- A frame with a segment for connection `i` is long enough for what is read of the segment
behind its header. -/
def SegmentFits (w : Net) (i : ℕ) (packet : Memory) (length tcp hdrLen : ℕ) (seg : Segment) :
    Prop :=
  if (w.tcpSockets i).state = .synSent then
    opens (w.tcpSockets i) seg →
      optionsEnd packet (tcp + hdrLen) (hdrLen - 20) (tcp + 20) ≤ length
  else
    seg.flags.rst = false → (w.handedData (w.tcpSockets i) seg).isSome →
      14 + (packet.be16 16).toNat ≤ length

/-- A payload that ends with the IP packet. -/
lemma inFrame_payload (length : ℕ) (htcp : packet 23 = 6)
    (hhdr : (packet (14 + ihl (packet 14) + 12) >>> 4).toNat * 4 = hdrLen)
    (hip : ihl (packet 14) + hdrLen ≤ (packet.be16 16).toNat)
    (hend : skip + len = (packet.be16 16).toNat - ihl (packet 14) - hdrLen) :
  InFrame length (Overclaims packet length) (.hand (14 + ihl (packet 14) + hdrLen + skip) len)
    ↔ 14 + (packet.be16 16).toNat ≤ length
  := by
  have hudp : ¬ (6 : Byte) = 17 := by decide
  simp only [inFrame_hand, Overclaims, htcp, hudp, false_and, false_or]
  omega

lemma all_tcpAccesses (htcp : packet 23 = 6) (i : ℕ)
    (hhdr : (packet (14 + ihl (packet 14) + 12) >>> 4).toNat * 4 = hdrLen)
    (hip : ihl (packet 14) + hdrLen ≤ (packet.be16 16).toNat)
    (hseg : seg.payload.length = (packet.be16 16).toNat - ihl (packet 14) - hdrLen) :
  All (InFrame length (Overclaims packet length))
      (w.tcpAccesses i packet (14 + ihl (packet 14)) hdrLen seg)
    ↔ SegmentFits w i packet length (14 + ihl (packet 14)) hdrLen seg
  := by
  rw [tcpAccesses, SegmentFits]
  split
  · rw [all_ite]
    simp only [all_bind, all_parseOptionsAt, all_pure, and_true, implies_true]
  rw [all_ite]
  simp only [handedData_inputAck]
  cases hhanded : w.handedData (w.tcpSockets i) seg with
  | none => simp
  | some r =>
    have hend := (handedData_end hhanded).trans hseg
    have hhand := inFrame_payload length htcp hhdr hip hend
    simp [hhand]

/-- The segment at `tcp` with a header of `hdrLen` bytes and `len` bytes of payload. -/
def segmentAt (packet : Memory) (tcp hdrLen len : ℕ) (h : len < 2 ^ 16) : Segment where
  srcIp := packet.be32 26
  srcPort := packet.be16 tcp
  destPort := packet.be16 (tcp + 2)
  seq := packet.be32 (tcp + 4)
  ack := packet.be32 (tcp + 8)
  flags := flagsOf (packet (tcp + 13))
  windowSize := packet.be16 (tcp + 14)
  options := packet.bytes (tcp + 20) (hdrLen - 20)
  payload := packet.bytes (tcp + hdrLen) len
  short := by
    rw [Memory.length_bytes]
    exact h

/-- A frame with a segment is long enough: for the ports and, if there is a connection, for the
header and what is read behind it. -/
def TcpFits (w : Net) (packet : Memory) (length : ℕ) : Prop :=
  let tcp := 14 + ihl (packet 14)
  let hdrLen := (packet (tcp + 12) >>> 4).toNat * 4
  let ipLen := packet.be16 16
  tcp + 4 ≤ length ∧ 30 ≤ length
    ∧ ∀ i, w.tcpLookupAt (packet.be16 (tcp + 2)) (packet.be32 26) (packet.be16 tcp) = some i →
      tcp + 13 ≤ length ∧ (20 ≤ hdrLen → ihl (packet 14) + hdrLen ≤ ipLen.toNat →
        tcp + 16 ≤ length ∧ SegmentFits w i packet length tcp hdrLen
          (segmentAt packet tcp hdrLen (ipLen.toNat - ihl (packet 14) - hdrLen) (payload_short ..)))

lemma all_handleTcpAt (htcp : packet 23 = 6) :
  All (InFrame length (Overclaims packet length)) (w.handleTcpAt packet (ihl (packet 14)))
    ↔ TcpFits w packet length
  := by
  rw [handleTcpAt, all_bind, all_bind, all_bind, TcpFits]
  simp only [Memory.value_u16, Memory.value_u32, Memory.all_u16, Memory.all_u32, inFrame_read]
  simp only [← and_assoc]
  refine Iff.trans (and_congr_left' (b := 14 + ihl (packet 14) + 4 ≤ length ∧ 30 ≤ length)
    (by omega)) (and_congr_right ?_)
  rintro ⟨-, hip⟩
  cases hl : w.tcpLookupAt (packet.be16 (14 + ihl (packet 14) + 2)) (packet.be32 26)
      (packet.be16 (14 + ihl (packet 14))) with
  | none => simp
  | some i =>
    simp only [Option.some.injEq, forall_eq']
    rw [all_bind, all_bind, all_ite]
    simp only [Memory.value_u8, Memory.value_u16, Memory.all_u8, Memory.all_u16, inFrame_read,
      all_pure, implies_true, true_and, not_or, not_lt, and_imp]
    have hfields : (16 < length ∧ 16 + 1 < length) ↔ True := by
      rw [iff_true]
      omega
    rw [hfields, true_and]
    apply and_congr
    · omega
    apply imp_congr_right
    intro hhdr
    apply imp_congr_right
    intro htotal
    rw [all_bind, all_bind, all_bind, all_bind, all_bind,
      all_tcpAccesses htcp i rfl htotal (Memory.length_bytes ..)]
    simp only [Memory.all_u8, Memory.all_u16, Memory.all_u32, inFrame_read, all_pure, and_true,
      ← and_assoc]
    exact and_congr_left' (by omega)

/-! ### Frames -/

/-- A frame is long enough for what the handlers make of it. -/
def FrameFits (w : Net) (packet : Memory) (length : ℕ) : Prop :=
  (packet.be16 12 = 0x0806 → 32 ≤ length ∧ (packet.be16 20 = 1 → 42 ≤ length))
    ∧ (packet.be16 12 = 0x0800 → 24 ≤ length ∧ (packet 23 = 17 → UdpFits w packet length)
      ∧ (packet 23 = 6 → TcpFits w packet length))

lemma all_handleIpv4 :
  All (InFrame length (Overclaims packet length)) (w.handleIpv4 packet)
    ↔ 24 ≤ length ∧ (packet 23 = 17 → UdpFits w packet length)
      ∧ (packet 23 = 6 → TcpFits w packet length)
  := by
  rw [handleIpv4, all_bind, all_bind, all_ite, all_ite]
  simp only [Memory.value_u8, Memory.all_u8, inFrame_read, all_pure, implies_true, and_true]
  rw [← and_assoc]
  apply and_congr
  · omega
  apply and_congr
  · exact imp_congr_right fun hudp => all_handleUdp hudp
  · constructor
    · intro h htcp
      exact (all_handleTcpAt htcp).mp (h (by rw [htcp]; decide) htcp)
    · intro h _ htcp
      exact (all_handleTcpAt htcp).mpr (h htcp)

lemma all_netHandlePacket (iface : NetInterface) :
  All (InFrame length (Overclaims packet length)) (w.netHandlePacket iface packet)
    ↔ FrameFits w packet length
  := by
  rw [netHandlePacket, all_ite, all_ite]
  simp only [all_pure, implies_true, and_true]
  apply and_congr
  · exact imp_congr_right fun _ => all_handleArp iface
  · constructor
    · intro h hip
      exact all_handleIpv4.mp (h (by rw [hip]; decide) hip)
    · intro h _ hip
      exact all_handleIpv4.mpr (h hip)

/-- For every frame and every state of the stack: the handlers read inside the frame only, hand
on ranges inside the frame only and nothing of a frame that claims more than it has, if and
only if the frame is as long as what they look at. -/
theorem frame_bounded_iff (w : Net) (iface : NetInterface) (packet : Memory) (length : ℕ) :
  ((∀ k, Access.read k ∈ log (w.netHandlePacket iface packet) → k < length)
    ∧ (∀ start len, Access.hand start len ∈ log (w.netHandlePacket iface packet) →
      start + len ≤ length)
    ∧ (Overclaims packet length → ∀ start len,
      Access.hand start len ∉ log (w.netHandlePacket iface packet)))
  ↔ FrameFits w packet length
  := by
  rw [← all_netHandlePacket iface]
  constructor
  · rintro ⟨hread, hhand, hnone⟩ access hmem
    cases access with
    | read k => exact hread k hmem
    | hand start len => exact ⟨hhand start len hmem, fun hover => hnone hover start len hmem⟩
  · intro h
    refine ⟨fun k hk => h _ hk, fun start len hr => (h _ hr).1, ?_⟩
    intro hover start len hr
    exact (h _ hr).2 hover

/-- A stack with a service at port 1234. -/
def serving : Net :=
  { boot (fun _ => true) [] with
    udpSockets := fun _ => { localPort := 1234, callback := true, active := true } }

/-- A frame of 42 bytes with an empty datagram for that port; the length in the datagram says
1400. -/
def shortFrame : Memory := fun k =>
  ([0, 0, 0, 0, 0, 0, 0, 0, 0, 0, 0, 0, 0x08, 0x00,
    0x45, 0, 0, 28, 0, 0, 0, 0, 64, 17, 0, 0, 10, 0, 2, 2, 10, 0, 2, 15,
    0, 123, 0x04, 0xD2, 0x05, 0x78, 0, 0] : List Byte).getD k 0

/-- The callback is handed 1392 bytes behind the end of the frame. -/
theorem datagram_past_end :
  ¬ ((∀ k, Access.read k ∈ log (serving.netHandlePacket ⟨0, 0, 0⟩ shortFrame) → k < 42)
    ∧ (∀ start len, Access.hand start len ∈ log (serving.netHandlePacket ⟨0, 0, 0⟩ shortFrame) →
      start + len ≤ 42)
    ∧ (Overclaims shortFrame 42 → ∀ start len,
      Access.hand start len ∉ log (serving.netHandlePacket ⟨0, 0, 0⟩ shortFrame)))
  := by
  rintro ⟨-, hhand, -⟩
  have hmem : Access.hand 42 1392 ∈ log (serving.netHandlePacket ⟨0, 0, 0⟩ shortFrame) := by
    decide
  exact absurd (hhand 42 1392 hmem) (by decide)

/-! ### What a frame does to the stack -/

/-- The packet in a frame, datagrams apart. -/
def packetOf (packet : Memory) : Option Packet :=
  let tcp := 14 + ihl (packet 14)
  let hdrLen := (packet (tcp + 12) >>> 4).toNat * 4
  let ipLen := packet.be16 16
  if packet.be16 12 = 0x0806 then some (.arp (packet.be32 28))
  else if packet.be16 12 = 0x0800 ∧ packet 23 = 6
      ∧ ¬ (hdrLen < 20 ∨ ipLen.toNat < ihl (packet 14) + hdrLen) then
    some (.tcp (segmentAt packet tcp hdrLen (ipLen.toNat - ihl (packet 14) - hdrLen)
      (payload_short ..)))
  else none

lemma value_handleArp (iface : NetInterface) :
  value (w.handleArp iface packet) = w.handlePacket (.arp (packet.be32 28))
  := by
  simp only [handleArp, value_bind, value_ite]
  split_ifs <;> rfl

lemma value_handleTcpAt {ipHdrLen : ℕ}
    (hhdr : (packet (14 + ipHdrLen + 12) >>> 4).toNat * 4 = hdrLen) :
  value (w.handleTcpAt packet ipHdrLen)
    = if hdrLen < 20 ∨ (packet.be16 16).toNat < ipHdrLen + hdrLen then w
      else w.handleTcp (segmentAt packet (14 + ipHdrLen) hdrLen
        ((packet.be16 16).toNat - ipHdrLen - hdrLen) (payload_short ..))
  := by
  subst hhdr
  have hlookup : ∀ len h, w.tcpLookup (segmentAt packet (14 + ipHdrLen)
      ((packet (14 + ipHdrLen + 12) >>> 4).toNat * 4) len h)
      = w.tcpLookupAt (packet.be16 (14 + ipHdrLen + 2)) (packet.be32 26)
        (packet.be16 (14 + ipHdrLen)) := fun _ _ => rfl
  rw [handleTcpAt, value_bind, value_bind, value_bind, handleTcp, hlookup]
  simp only [Memory.value_u16, Memory.value_u32]
  cases w.tcpLookupAt (packet.be16 (14 + ipHdrLen + 2)) (packet.be32 26)
      (packet.be16 (14 + ipHdrLen)) with
  | none => simp
  | some i =>
    rw [value_bind, value_bind, value_ite]
    rfl

/-- The effect of a frame on the stack is that of the packet in it. -/
theorem value_netHandlePacket (iface : NetInterface) {p : Packet} (h : packetOf packet = some p) :
  value (w.netHandlePacket iface packet) = w.handlePacket p
  := by
  rw [packetOf] at h
  rw [netHandlePacket]
  split_ifs at h with harp htcp
  · obtain rfl := Option.some.inj h
    rw [if_pos harp]
    exact value_handleArp iface
  · obtain rfl := Option.some.inj h
    obtain ⟨hip, hproto, hok⟩ := htcp
    have hudp : ¬ packet 23 = 17 := by rw [hproto]; decide
    rw [if_neg harp, if_pos hip, handleIpv4, value_bind, value_bind, Memory.value_u8,
      Memory.value_u8, if_neg hudp, if_pos hproto, value_handleTcpAt rfl, if_neg hok]
    rfl

/-- A frame with a segment that has neither options nor payload. -/
def bareFrame : Memory := fun k => (([12, 14, 17, 23, 46].zip [8, 0x45, 40, 6, 0x50]).lookup k).getD 0

theorem value_netHandlePacket_bareFrame :
  ∃ p, packetOf bareFrame = some p
    ∧ value (serving.netHandlePacket ⟨0, 0, 0⟩ bareFrame) = serving.handlePacket p
  := ⟨_, rfl, value_netHandlePacket _ rfl⟩

lemma be16_toNat (k : ℕ) :
  (packet.be16 k).toNat = ((packet k).setWidth 32 <<< 8 ||| (packet (k + 1)).setWidth 32).toNat
  := by
  rw [Memory.be16, BitVec.toNat_append, BitVec.toNat_or, BitVec.toNat_shiftLeft]
  have ha := (packet k).isLt
  have hb := (packet (k + 1)).isLt
  rw [BitVec.toNat_setWidth, BitVec.toNat_setWidth, Nat.mod_eq_of_lt (by omega),
    Nat.mod_eq_of_lt (by omega), Nat.shiftLeft_eq, Nat.mod_eq_of_lt (by omega)]

/-- The walk over the options of a segment in memory is that over their bytes. -/
theorem value_parseOptionsAt (stop : ℕ) : ∀ fuel opt mss : ℕ,
    value (parseOptionsAt packet stop fuel opt mss)
      = parseOptions fuel (packet.bytes opt (stop - opt)) mss
  | 0, opt, mss => by
    rw [parseOptionsAt, parseOptions]
    · rfl
    · simp
  | fuel + 1, opt, mss => by
    rw [parseOptionsAt]
    by_cases hopt : opt < stop
    swap
    · rw [if_neg hopt, Nat.sub_eq_zero_of_le (Nat.not_lt.mp hopt), value_pure]
      rfl
    obtain ⟨n, rfl⟩ : ∃ n, stop = opt + (n + 1) := ⟨stop - opt - 1, by omega⟩
    rw [if_pos hopt, value_bind, Memory.value_u8, Nat.add_sub_cancel_left, Memory.bytes_succ]
    cases n with
    | zero =>
      have hnil : packet.bytes (opt + 1) 0 = [] := rfl
      rw [value_ite, value_ite, value_ite, if_pos (Nat.le_refl _), hnil, parseOptions.eq_1]
      apply if_congr Iff.rfl rfl
      apply if_congr Iff.rfl _ rfl
      rw [value_parseOptionsAt _ fuel, Nat.sub_self]
      rfl
    | succ n =>
      rw [Memory.bytes_succ, parseOptions.eq_2]
      by_cases h0 : packet opt = 0
      · rw [if_pos h0, if_pos h0, value_pure]
      rw [if_neg h0, if_neg h0, ← Memory.bytes_succ]
      by_cases h1 : packet opt = 1
      · rw [if_pos h1, if_pos h1, value_parseOptionsAt _ fuel]
        congr 2
        omega
      rw [if_neg h1, if_neg h1, if_neg (by omega), value_bind, Memory.value_u8]
      simp only [Memory.length_bytes]
      by_cases hbad : (packet (opt + 1)).toNat < 2 ∨ n + 1 + 1 < (packet (opt + 1)).toNat
      · rw [if_pos hbad, if_pos (by omega), value_pure]
      rw [if_neg hbad, if_neg (by omega), ← Memory.bytes_succ, Memory.drop_bytes]
      by_cases hmss : packet opt = 2 ∧ packet (opt + 1) = 4
      · have hlen : (packet (opt + 1)).toNat = 4 := by
          rw [hmss.2]
          rfl
        rw [if_pos hmss, if_pos hmss, value_bind, value_parseOptionsAt _ fuel, Memory.value_u16,
          Memory.getD_bytes (by omega), Memory.getD_bytes (by omega), be16_toNat]
        congr 2
        omega
      · rw [if_neg hmss, if_neg hmss, value_parseOptionsAt _ fuel]
        congr 2
        omega

end Net
