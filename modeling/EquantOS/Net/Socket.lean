import EquantOS.Net.Tcp

/-!
# Sockets

The calls of `net/socket.c` on stream sockets, and what datagram sockets do to the ports
and to the card.  A call fails with a Linux error number.  A blocking call is its
non-blocking part, repeated with waits in between: `sockConnect` stops where the call
starts to wait for the connection, and `connectResult` is what follows the wait;
`sendRound` is one round of a blocking send.
-/

namespace Net

/-- `sock_get`: the slot is in use. -/
def sockGet (w : Net) (id : ℕ) : Bool := id < sockMax && (w.sockets id).state != .free

def sockCleared (state : SockState) (type : SockType) : SocketEntry where
  state := state
  type := type
  tcb := none
  rxRing := none
  rxHead := 0
  rxTail := 0
  peerClosed := false
  shutRd := false
  shutWr := false
  err := 0
  localPort := 0
  remoteIp := 0
  remotePort := 0
  dq := []

def sockCreate (w : Net) (type : SockType) : Except ℕ ℕ × Net :=
  match (List.range sockMax).find? fun j => (w.sockets j).state == .free with
  | some j => (.ok j, w.modSock j fun _ => sockCleared .idle type)
  | none => (.error 105, w)

/-! ### Datagram ports -/

def udpPortInUse (w : Net) (port : BitVec 16) : Bool :=
  (List.range sockMax).any fun j =>
    (w.sockets j).state != .free && (w.sockets j).type == .dgram && (w.sockets j).localPort == port

/-- The loop of `udp_alloc_port`; the first argument counts the tries. -/
def udpAllocPortLoop : ℕ → Net → BitVec 16 × Net
  | 0, w => (0, w)
  | tries + 1, w =>
    let port := w.nextUdpPort
    let w := { w with nextUdpPort := if 48999 ≤ port.toNat then 32768 else port + 1 }
    if w.udpPortInUse port then udpAllocPortLoop tries w else (port, w)

def udpAllocPort (w : Net) : BitVec 16 × Net := udpAllocPortLoop (48999 - 32768 + 1) w

/-- Give a datagram socket a port if it has none. -/
def udpEnsurePort (w : Net) (id : ℕ) : Bool × Net :=
  if (w.sockets id).localPort = 0 then
    let port := w.udpAllocPort
    (port.1 ≠ 0, port.2.modSock id fun e => { e with localPort := port.1 })
  else (true, w)

/-- `udp_sendto`; the datagram itself is not part of the state. -/
def udpSendto (poll : Net → Net) (w : Net) (id len : ℕ) (dest : Option (BitVec 32 × BitVec 16)) :
    Except ℕ ℕ × Net :=
  let e := w.sockets id
  let target := dest.getD (e.remoteIp, e.remotePort)
  if dest.isNone ∧ e.state ≠ .connected then (.error 89, w)
  else if 1472 < len then (.error 90, w)
  else
    let bound := w.udpEnsurePort id
    if !bound.1 then (.error 98, bound.2)
    else
      match bound.2.iface with
      | none => (.error 100, bound.2)
      | some iface =>
        let alloc := bound.2.kmalloc
        (.ok len, if alloc.1 then alloc.2.ipv4SendPacket poll iface target.1 else alloc.2)

/-! ### Connecting -/

/-- The receive ring that `sock_connect` gives a socket without one. -/
def connectRing (ring : ℕ → Byte) (w : Net) (id : ℕ) : Bool × Net :=
  if (w.sockets id).rxRing.isNone then
    let alloc := w.kmalloc
    (alloc.1,
      if alloc.1 then
        alloc.2.modSock id fun e => { e with rxRing := some ring, rxHead := 0, rxTail := 0 }
      else alloc.2)
  else (true, w)

/-- The part of `sock_connect` that opens the connection. -/
def connectOpen (poll : Net → Net) (buf : ℕ → Byte) (w : Net) (id : ℕ) (ip : BitVec 32)
    (port : BitVec 16) : Except ℕ ℕ × Net :=
  let w := w.modSock id fun e => { e with
    remoteIp := ip, remotePort := port, err := 0, peerClosed := false, state := .connecting }
  let conn := w.tcpConnect poll buf ip port id
  match conn.1 with
  | none => (.error 105, conn.2.modSock id fun e => { e with tcb := none, state := .idle })
  | some i => (.error 115, conn.2.modSock id fun e => { e with
      tcb := some i, localPort := (conn.2.tcpSockets i).localPort })

/-- `sock_connect` without its wait for the connection; the contents of fresh buffers are
arbitrary. -/
def sockConnect (poll : Net → Net) (ring buf : ℕ → Byte) (w : Net) (id : ℕ) (ip : BitVec 32)
    (port : BitVec 16) : Except ℕ ℕ × Net :=
  if !w.sockGet id then (.error 9, w)
  else
    match (w.sockets id).type, (w.sockets id).state with
    | .dgram, _ =>
      let bound := w.udpEnsurePort id
      if !bound.1 then (.error 98, bound.2)
      else (.ok 0, bound.2.modSock id fun e => { e with
        remoteIp := ip
        remotePort := port
        state := if ip ≠ 0 ∨ port ≠ 0 then .connected else .idle })
    | .stream, .connecting => (.error 114, w)
    | .stream, .connected => (.error 106, w)
    | .stream, .closed =>
      (.error (if (w.sockets id).err = 0 then 106 else (w.sockets id).err),
        w.modSock id fun e => { e with err := 0 })
    | .stream, _ =>
      if w.iface.isNone then (.error 100, w)
      else
        let ring := w.connectRing ring id
        if ring.1 then ring.2.connectOpen poll buf id ip port else (.error 12, ring.2)

/-- What `sock_connect` returns after its wait. -/
def connectResult (w : Net) (id : ℕ) : Except ℕ ℕ × Net :=
  let e := w.sockets id
  if e.state = .connected then (.ok 0, w)
  else (.error (if e.err = 0 then 111 else e.err), w.modSock id fun e => { e with err := 0 })

/-! ### Sending and receiving -/

/-- One round of the loop of `sock_sendto`: what is left of the data is queued, as far as
it fits. -/
def sendRound (poll : Net → Net) (w : Net) (id : ℕ) (data : List Byte) : Except ℕ ℕ × Net :=
  let e := w.sockets id
  match e.tcb with
  | some i =>
    if e.state = .connected then
      let sent := w.tcpWrite poll i data
      (if sent.1 = 0 then .error 11 else .ok sent.1, sent.2)
    else (.error (if e.err = 0 then 32 else e.err), w.modSock id fun e => { e with err := 0 })
  | none => (.error (if e.err = 0 then 32 else e.err), w.modSock id fun e => { e with err := 0 })

/-- `sock_sendto` on a stream socket, not blocking. -/
def sockSendto (poll : Net → Net) (w : Net) (id : ℕ) (data : List Byte) : Except ℕ ℕ × Net :=
  let e := w.sockets id
  if !w.sockGet id then (.error 9, w)
  else if e.err ≠ 0 then (.error e.err, w.modSock id fun e => { e with err := 0 })
  else if e.shutWr then (.error 32, w)
  else if e.state = .connecting then (.error 11, w)
  else if e.state ≠ .connected ∨ e.tcb = none then
    (.error (if e.state = .idle then 107 else 32), w)
  else if data = [] then (.ok 0, w)
  else w.sendRound poll id data

/-- `udp_recvfrom`, not blocking: the first bytes of the oldest datagram and its source. -/
def udpRecvfrom (w : Net) (id len : ℕ) (peek : Bool) :
    Except ℕ (List Byte × BitVec 32 × BitVec 16) × Net :=
  match (w.sockets id).dq with
  | [] => (.error 11, w)
  | d :: rest =>
    (.ok (d.data.take len, d.srcIp, d.srcPort),
      if peek then w else w.modSock id fun e => { e with dq := rest })

/-- The part of `sock_recvfrom` that takes bytes from the ring. -/
def recvBytes (poll : Net → Net) (w : Net) (id len : ℕ) (peek : Bool) : List Byte × Net :=
  let pop := (w.sockets id).ringPop len peek
  let w := w.modSock id fun _ => pop.2
  (pop.1,
    match (w.sockets id).tcb with
    | some i => if peek then w else w.tcpWindowUpdate poll i
    | none => w)

/-- `sock_recvfrom` on a stream socket, not blocking. -/
def sockRecvfrom (poll : Net → Net) (w : Net) (id len : ℕ) (peek : Bool) :
    Except ℕ (List Byte) × Net :=
  let e := w.sockets id
  if !w.sockGet id then (.error 9, w)
  else if e.rxRing.isSome ∧ e.ringUsed ≠ 0 then
    let recv := w.recvBytes poll id len peek
    (.ok recv.1, recv.2)
  else if e.err ≠ 0 then (.error e.err, w.modSock id fun e => { e with err := 0 })
  else if e.peerClosed || e.shutRd then (.ok [], w)
  else if e.state = .idle then (.error 107, w)
  else if e.state = .closed then (.ok [], w)
  else (.error 11, w)

/-! ### Closing -/

/-- `sock_shutdown`; `rd` and `wr` are the directions that `how` names. -/
def sockShutdown (poll : Net → Net) (w : Net) (id : ℕ) (rd wr : Bool) : Except ℕ ℕ × Net :=
  let e := w.sockets id
  if !w.sockGet id then (.error 9, w)
  else if e.type = .stream ∧ e.state ≠ .connected ∧ e.state ≠ .closed then (.error 107, w)
  else
    let w := if rd then w.modSock id fun e => { e with shutRd := true } else w
    if wr ∧ !e.shutWr then
      let w := w.modSock id fun e => { e with shutWr := true }
      (.ok 0,
        match (w.sockets id).tcb with
        | some i => w.tcpShutdown poll i
        | none => w)
    else (.ok 0, w)

/-- The part of `sock_close` that lets go of the connection. -/
def closeTcb (poll : Net → Net) (w : Net) (id : ℕ) : Net :=
  match (w.sockets id).tcb with
  | some i =>
    let w := w.modSock id fun e => { e with tcb := none }
    if (w.sockets id).rxRing.isSome ∧ (w.sockets id).ringUsed ≠ 0 then w.tcpAbort poll i
    else w.tcpClose poll i
  | none => w

def sockClose (poll : Net → Net) (w : Net) (id : ℕ) : Except ℕ ℕ × Net :=
  if !w.sockGet id then (.error 9, w)
  else (.ok 0, (w.closeTcb poll id).modSock id fun _ => sockCleared .free .stream)

/-! ### Start-up -/

/-- The stack when the card has been found; the allocations and the packets to come are
arbitrary. -/
def boot (mallocs : ℕ → Bool) (rx : List (List Packet)) : Net where
  tcpSockets _ := tcpCleared
  sockets _ := sockCleared .free .stream
  udpSockets _ := { localPort := 0, callback := false, active := false }
  tick := 0
  iface := some { ip := 0x0A00020F, subnetMask := 0xFFFFFF00, gatewayIp := 0x0A000202 }
  arpCache := []
  seed := 0x12345678
  nextEphemeral := 0
  nextUdpPort := 32768
  mallocs := mallocs
  rx := rx
  sent := []

end Net
