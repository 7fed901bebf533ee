import EquantOS.Lib.Ring
import EquantOS.Lib.Serial

/-!
# The state of the network stack

The connection blocks of `net/tcp.c`, the socket table of `net/socket.c` and what both use
of the rest of the kernel: the tick counter, the interface, the address cache of
`net/arp.c` and the outcomes of the coming heap allocations.  Pointers between connection
blocks and sockets are slot numbers.  Sequence numbers, times and the free-running
indices of the receive ring are 32-bit words; lengths, windows and counters that stay
small are naturals.  Function pointers to the socket layer are flags that say whether
the pointer is set.
-/

abbrev Byte := BitVec 8

/-! ### Segments -/

/-- The control bits of a TCP header. -/
structure TcpFlags where
  fin : Bool := false
  syn : Bool := false
  rst : Bool := false
  psh : Bool := false
  ack : Bool := false
  deriving DecidableEq, Repr

/-- A received TCP segment.  The IP total length bounds its payload. -/
structure Segment where
  srcIp : BitVec 32
  srcPort : BitVec 16
  destPort : BitVec 16
  seq : BitVec 32
  ack : BitVec 32
  flags : TcpFlags
  windowSize : BitVec 16
  options : List Byte
  payload : List Byte
  short : payload.length < 2 ^ 16

/-- A segment without a payload. -/
lemma Segment.short_nil : ([] : List Byte).length < 2 ^ 16 := by decide

/-- A segment as `tcp_xmit` builds it; `mss` is the option that a SYN carries. -/
structure OutSegment where
  srcPort : BitVec 16
  destPort : BitVec 16
  seq : BitVec 32
  ack : BitVec 32
  flags : TcpFlags
  windowSize : BitVec 16
  mss : Option ℕ
  checksum : BitVec 16
  payload : List Byte
  deriving DecidableEq, Repr

/-- What a received frame can do to the state: an ARP packet names its sender, a TCP
segment goes to its connection. -/
inductive Packet where
  | arp (spa : BitVec 32)
  | tcp (seg : Segment)

/-- The bytes `data` are the piece of the stream `S` at the sequence number `seq`; the first
byte of the stream comes right after the initial sequence number. -/
def Piece (S : List Byte) (isn seq : BitVec 32) (data : List Byte) : Prop :=
  ∃ a b, S = a ++ data ++ b ∧ seq = Serial.after isn (1 + a.length)

/-! ### Connections -/

inductive TcpState where
  | closed | listen | synSent | synReceived | established | finWait1 | finWait2 | closeWait
  | closing | lastAck | timeWait
  deriving DecidableEq, Repr

inductive TcpError where
  | none | refused | reset | timeout
  deriving DecidableEq, Repr

def tcpMaxSockets : ℕ := 128

def tcpReorderBufSize : ℕ := 16

def tcpTxBufSize : ℕ := 65536

def tcpDefaultMss : ℕ := 536

def tcpLocalMss : ℕ := 1460

def tcpMaxSegPayload : ℕ := 1460

def tcpInitialRtoMs : ℕ := 400

def tcpMaxRtoMs : ℕ := 8000

def tcpMaxRetries : ℕ := 8

def tcpSynMaxRetries : ℕ := 5

def tcpTimeWaitMs : ℕ := 2000

def tcpFinWait2Ms : ℕ := 15000

/-- An occupied slot of the reorder buffer. -/
structure ReorderEntry where
  seq : BitVec 32
  data : List Byte

/-- The send side of a connection: `txBuf` holds the bytes from `sndUna` onwards, `txLen`
of them. -/
structure TcpSend where
  sndUna : BitVec 32
  sndNxt : BitVec 32
  sndWnd : ℕ
  peerMss : ℕ
  txBuf : Option (ℕ → Byte)
  txHead : ℕ
  txLen : ℕ
  finPending : Bool
  finSent : Bool

/-- The retransmission timer of a connection. -/
structure TcpTimer where
  rtoMs : ℕ
  rtxDeadlineMs : BitVec 32
  rtxArmed : Bool
  retries : ℕ

/-- The receive side of a connection. -/
structure TcpReceive where
  rcvNxt : BitVec 32
  lastAdvWnd : ℕ
  peerFin : Bool
  reorder : ℕ → Option ReorderEntry

structure TcpSocket extends TcpSend, TcpTimer, TcpReceive where
  active : Bool
  remoteIp : BitVec 32
  localPort : BitVec 16
  remotePort : BitVec 16
  state : TcpState
  error : TcpError
  deadlineMs : BitVec 32
  onData : Bool
  rxSpace : Bool
  onEvent : Bool
  owner : Option ℕ

/-! ### Sockets -/

inductive SockState where
  | free | idle | connecting | connected | closed
  deriving DecidableEq, Repr

/-- The type of a socket: `SOCK_TYPE_STREAM` or `SOCK_TYPE_DGRAM`. -/
inductive SockType where
  | stream | dgram
  deriving DecidableEq, Repr

def sockMax : ℕ := 128

def sockRxRingSize : ℕ := 262144

def sockUdpQueueMax : ℕ := 64

/-- `udp_dgram_t`. -/
structure Dgram where
  srcIp : BitVec 32
  srcPort : BitVec 16
  data : List Byte

/-- `socket_entry_t`; `dq` is the queue of datagrams. -/
structure SocketEntry where
  state : SockState
  type : SockType
  tcb : Option ℕ
  rxRing : Option (ℕ → Byte)
  rxHead : BitVec 32
  rxTail : BitVec 32
  peerClosed : Bool
  shutRd : Bool
  shutWr : Bool
  err : ℕ
  localPort : BitVec 16
  remoteIp : BitVec 32
  remotePort : BitVec 16
  dq : List Dgram

def maxUdpSockets : ℕ := 64

/-- `udp_socket_t`, a port of the kernel itself. -/
structure UdpSocket where
  localPort : BitVec 16
  callback : Bool
  active : Bool

/-! ### The stack -/

structure NetInterface where
  ip : BitVec 32
  subnetMask : BitVec 32
  gatewayIp : BitVec 32

/-- The state of the stack.  `mallocs` are the outcomes of the coming calls of `kmalloc`,
`rx` the packets that the coming polls of the card find, and `sent` the segments handed
to `ipv4_send_packet`, the latest last. -/
structure Net where
  tcpSockets : ℕ → TcpSocket
  sockets : ℕ → SocketEntry
  udpSockets : ℕ → UdpSocket
  tick : BitVec 32
  iface : Option NetInterface
  arpCache : List (BitVec 32)
  seed : BitVec 32
  nextEphemeral : BitVec 16
  nextUdpPort : BitVec 16
  mallocs : ℕ → Bool
  rx : List (List Packet)
  sent : List OutSegment

namespace Net

def modTcp (w : Net) (i : ℕ) (f : TcpSocket → TcpSocket) : Net :=
  { w with tcpSockets := Function.update w.tcpSockets i (f (w.tcpSockets i)) }

def modSock (w : Net) (j : ℕ) (f : SocketEntry → SocketEntry) : Net :=
  { w with sockets := Function.update w.sockets j (f (w.sockets j)) }

/-- The outcome of a heap allocation. -/
def kmalloc (w : Net) : Bool × Net :=
  (w.mallocs 0, { w with mallocs := fun n => w.mallocs (n + 1) })

section
variable {w : Net} {i j : ℕ} {f : TcpSocket → TcpSocket} {g : SocketEntry → SocketEntry}

@[simp]
lemma tcpSockets_modTcp : (w.modTcp i f).tcpSockets i = f (w.tcpSockets i)
  := by
  simp [modTcp]

lemma tcpSockets_modTcp_of_ne {k : ℕ} (h : k ≠ i) :
  (w.modTcp i f).tcpSockets k = w.tcpSockets k
  := by
  simp [modTcp, h]

@[simp]
lemma sockets_modTcp : (w.modTcp i f).sockets = w.sockets := rfl

@[simp]
lemma sent_modTcp : (w.modTcp i f).sent = w.sent := rfl

@[simp]
lemma tcpSockets_modSock : (w.modSock j g).tcpSockets = w.tcpSockets := rfl

@[simp]
lemma sockets_modSock : (w.modSock j g).sockets j = g (w.sockets j)
  := by
  simp [modSock]

lemma sockets_modSock_of_ne {k : ℕ} (h : k ≠ j) :
  (w.modSock j g).sockets k = w.sockets k
  := by
  simp [modSock, h]

end

end Net
