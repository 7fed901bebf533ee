import EquantOS.Lib.Trace
import EquantOS.Net.Tcp

/-!
# Frames

`net_handle_packet` and the handlers behind it, on the bytes that the card has written.
The memory goes on behind the end of a frame, and the handlers are not told where that is.
What they read of the frame, and the ranges that they hand on as payload, are logged; the
bytes of a payload are read from such a range only.  The handler of ICMP answers with what
it has read and changes nothing else.
-/

open Trace

/-- An access to the memory in which a frame lies, counted from its start: a byte is read, or
a range is handed on as payload. -/
inductive Access where
  | read (k : ℕ)
  | hand (start len : ℕ)
  deriving DecidableEq

/-- A handler of frames. -/
abbrev Handler := Traced Access

/-- The memory from the start of a frame on. -/
abbrev Memory := ℕ → Byte

namespace Memory

/-! ### Fields -/

/-- Two bytes in network order. -/
def be16 (packet : Memory) (k : ℕ) : BitVec 16 := packet k ++ packet (k + 1)

/-- Four bytes in network order. -/
def be32 (packet : Memory) (k : ℕ) : BitVec 32 :=
  packet k ++ packet (k + 1) ++ packet (k + 2) ++ packet (k + 3)

def bytes (packet : Memory) (start len : ℕ) : List Byte :=
  (List.range len).map fun k => packet (start + k)

@[simp]
lemma length_bytes (packet : Memory) (start len : ℕ) : (packet.bytes start len).length = len
  := by
  simp [bytes]

def u8 (packet : Memory) (k : ℕ) : Handler Byte := do
  tell [Access.read k]
  return packet k

/-- Read two bytes in network order. -/
def u16 (packet : Memory) (k : ℕ) : Handler (BitVec 16) := do
  let a ← packet.u8 k
  let b ← packet.u8 (k + 1)
  return a ++ b

/-- Read four bytes in network order. -/
def u32 (packet : Memory) (k : ℕ) : Handler (BitVec 32) := do
  let a ← packet.u8 k
  let b ← packet.u8 (k + 1)
  let c ← packet.u8 (k + 2)
  let d ← packet.u8 (k + 3)
  return a ++ b ++ c ++ d

/-- Copy a hardware address. -/
def mac (packet : Memory) (k : ℕ) : Handler Unit := do
  let _ ← packet.u32 k
  let _ ← packet.u16 (k + 4)

end Memory

namespace Net

/-! ### ARP -/

/-- `handle_arp`; a request for our address is answered. -/
def handleArp (w : Net) (iface : NetInterface) (packet : Memory) : Handler Net := do
  let spa ← packet.u32 28
  -- the hardware address is copied unless the cache is full
  if w.arpCache.contains spa ∨ w.arpCache.length < arpCacheSize then packet.mac 22
  let oper ← packet.u16 20
  if oper = 1 then
    let tpa ← packet.u32 38
    if tpa = iface.ip then packet.mac 22
  return w.arpUpdateCache spa

/-! ### UDP -/

/-- A datagram socket that `sock_udp_deliver` would pick. -/
def udpMatches (w : Net) (destPort : BitVec 16) (srcIp : BitVec 32) (srcPort : BitVec 16) (j : ℕ) :
    Bool :=
  let e := w.sockets j
  e.state != .free && e.type == .dgram && e.localPort == destPort
    && !(e.state == .connected && (e.remoteIp != srcIp || e.remotePort != srcPort))

/-- `sock_udp_deliver`, for the range of a payload. -/
def sockUdpDeliver (w : Net) (packet : Memory) (destPort : BitVec 16) (srcIp : BitVec 32)
    (srcPort : BitVec 16) (start len : ℕ) : Handler Net :=
  match (List.range sockMax).find? (w.udpMatches destPort srcIp srcPort) with
  | none => return w
  | some j =>
    if sockUdpQueueMax ≤ (w.sockets j).dq.length then return w
    else
      let alloc := w.kmalloc
      if alloc.1 then do
        tell [Access.hand start len]
        return alloc.2.modSock j fun e =>
          { e with dq := e.dq ++ [⟨srcIp, srcPort, packet.bytes start len⟩] }
      else return alloc.2

/-- The port of the kernel that a datagram is for. -/
def udpService (w : Net) (destPort : BitVec 16) : Option UdpSocket :=
  ((List.range maxUdpSockets).map w.udpSockets).find? fun s => s.active && s.localPort == destPort

/-- `handle_udp`; what a callback does with the payload is its own affair. -/
def handleUdp (w : Net) (packet : Memory) (ipHdrLen : ℕ) : Handler Net := do
  let udp := 14 + ipHdrLen
  let srcPort ← packet.u16 udp
  let destPort ← packet.u16 (udp + 2)
  let len ← packet.u16 (udp + 4)
  if len.toNat < 8 then return w
  else
    match w.udpService destPort with
    | some s =>
      if s.callback then
        let _ ← packet.u32 26
        tell [Access.hand (udp + 8) (len.toNat - 8)]
      return w
    | none =>
      let srcIp ← packet.u32 26
      w.sockUdpDeliver packet destPort srcIp srcPort (udp + 8) (len.toNat - 8)

/-! ### TCP -/

/-- The flags of a TCP header. -/
def flagsOf (b : Byte) : TcpFlags where
  fin := b.getLsbD 0
  syn := b.getLsbD 1
  rst := b.getLsbD 2
  psh := b.getLsbD 3
  ack := b.getLsbD 4

/-- The loop of `tcp_parse_options` over the bytes from `opt` to `stop`. -/
def parseOptionsAt (packet : Memory) (stop : ℕ) : ℕ → ℕ → ℕ → Handler ℕ
  | 0, _, mss => return mss
  | fuel + 1, opt, mss =>
    if opt < stop then do
      let kind ← packet.u8 opt
      if kind = 0 then return mss
      else if kind = 1 then parseOptionsAt packet stop fuel (opt + 1) mss
      else if stop ≤ opt + 1 then return mss
      else do
        let olen ← packet.u8 (opt + 1)
        if olen.toNat < 2 ∨ stop < opt + olen.toNat then return mss
        else if kind = 2 ∧ olen = 4 then do
          let mss ← packet.u16 (opt + 2)
          parseOptionsAt packet stop fuel (opt + olen.toNat) mss.toNat
        else parseOptionsAt packet stop fuel (opt + olen.toNat) mss
    else return mss

/-- `tcp_reorder_insert` keeps the bytes of the segment. -/
def reorderTakes (w : Net) (s : TcpSocket) (seq : BitVec 32) : Bool :=
  !decide (Serial.Ge seq (s.rcvNxt + 65535))
    && !((List.range tcpReorderBufSize).any fun k => (s.reorder k).any fun e => e.seq == seq)
    && ((List.range tcpReorderBufSize).any fun k => (s.reorder k).isNone) && w.kmalloc.1

/-- The part of a payload that is handed on to the stream: to `tcp_deliver`, from the first new
byte, or to the reorder buffer; an offset and a length. -/
def handedData (w : Net) (s : TcpSocket) (seg : Segment) : Option (ℕ × ℕ) :=
  if seg.payload ≠ [] ∧ canReceive s.state then
    if seg.seq = s.rcvNxt then some (0, seg.payload.length)
    else if Serial.Lt seg.seq s.rcvNxt then
      if Serial.Gt (seg.seq + BitVec.ofNat 32 seg.payload.length) s.rcvNxt then
        let skip := (s.rcvNxt - seg.seq).toNat
        some (skip, seg.payload.length - skip)
      else none
    else if w.reorderTakes s seg.seq then some (0, seg.payload.length) else none
  else none

/-- The segment that answers our SYN. -/
def opens (s : TcpSocket) (seg : Segment) : Bool :=
  !seg.flags.rst && seg.flags.syn && seg.flags.ack && seg.ack == s.sndNxt

/-- What `handle_tcp` reads of a segment behind its header: the options if the segment answers
our SYN, else the payload as far as it is handed on. -/
def tcpAccesses (w : Net) (i : ℕ) (packet : Memory) (tcp hdrLen : ℕ) (seg : Segment) :
    Handler Unit := do
  if (w.tcpSockets i).state = .synSent then
    if opens (w.tcpSockets i) seg then
      let _ ← parseOptionsAt packet (tcp + hdrLen) (hdrLen - 20) (tcp + 20) tcpDefaultMss
  else if !seg.flags.rst then
    let w := (w.inputAck i seg).2
    match w.handedData (w.tcpSockets i) seg with
    | some (skip, len) => tell [Access.hand (tcp + hdrLen + skip) len]
    | none => return

/-- The connection that a segment belongs to. -/
def tcpLookupAt (w : Net) (destPort : BitVec 16) (srcIp : BitVec 32) (srcPort : BitVec 16) :
    Option ℕ :=
  (List.range tcpMaxSockets).find? fun i =>
    let c := w.tcpSockets i
    c.active && c.localPort == destPort && c.remoteIp == srcIp && c.remotePort == srcPort

lemma payload_short (n : BitVec 16) (a b : ℕ) : n.toNat - a - b < 2 ^ 16
  := by
  have := n.isLt
  omega

/-- `handle_tcp`. -/
def handleTcpAt (w : Net) (packet : Memory) (ipHdrLen : ℕ) : Handler Net := do
  let tcp := 14 + ipHdrLen
  let destPort ← packet.u16 (tcp + 2)
  let srcPort ← packet.u16 tcp
  let srcIp ← packet.u32 26
  match w.tcpLookupAt destPort srcIp srcPort with
  | none => return w
  | some i =>
    let dataOffset ← packet.u8 (tcp + 12)
    let ipLen ← packet.u16 16
    let hdrLen := (dataOffset >>> 4).toNat * 4
    if hdrLen < 20 ∨ ipLen.toNat < ipHdrLen + hdrLen then return w
    else
      let seq ← packet.u32 (tcp + 4)
      let ack ← packet.u32 (tcp + 8)
      let wnd ← packet.u16 (tcp + 14)
      let flags ← packet.u8 (tcp + 13)
      let seg : Segment :=
        { srcIp := srcIp, srcPort := srcPort, destPort := destPort, seq := seq, ack := ack
          flags := flagsOf flags, windowSize := wnd
          options := packet.bytes (tcp + 20) (hdrLen - 20)
          payload := packet.bytes (tcp + hdrLen) (ipLen.toNat - ipHdrLen - hdrLen)
          short := by
            rw [Memory.length_bytes]
            exact payload_short .. }
      w.tcpAccesses i packet tcp hdrLen seg
      return w.tcpInput i seg

/-! ### IPv4 and Ethernet -/

/-- The length of the IP header that its first byte gives. -/
def ihl (versionIhl : Byte) : ℕ := (versionIhl &&& 0x0F).toNat * 4

def handleIpv4 (w : Net) (packet : Memory) : Handler Net := do
  let versionIhl ← packet.u8 14
  let proto ← packet.u8 23
  if proto = 17 then w.handleUdp packet (ihl versionIhl)
  else if proto = 6 then w.handleTcpAt packet (ihl versionIhl)
  else return w

/-- `net_handle_packet`; it makes nothing of the length of the frame. -/
def netHandlePacket (w : Net) (iface : NetInterface) (packet : Memory) : Handler Net :=
  if packet.be16 12 = 0x0806 then w.handleArp iface packet
  else if packet.be16 12 = 0x0800 then w.handleIpv4 packet
  else return w

end Net
