import EquantOS.Net.Callbacks

/-!
# Connections

The functions of `net/tcp.c`.  A transmission may have to wait for an address, and the wait
polls the card; the poll is a parameter of every function that transmits, since it does
nothing while a poll is under way already.  The packets that a poll finds are handled by
`handleTcp` below, whose own transmissions never poll.
-/

namespace Net

open List

def tcpNowMs (w : Net) : BitVec 32 := w.tick * 4

/-! ### Port numbers and initial sequence numbers -/

def getRandomIsn (w : Net) : BitVec 32 × Net :=
  let seed := w.seed ^^^ ((w.seed <<< 13) ^^^ (w.tick * 1103515245 + 12345))
  let seed := seed ^^^ (seed >>> 17)
  let seed := seed ^^^ (seed <<< 5)
  (seed, { w with seed := seed })

def tcpEphemeralFirst : ℕ := 49152

def tcpEphemeralLast : ℕ := 65535

/-- Some connection uses the port. -/
def portUsed (w : Net) (port : BitVec 16) : Bool :=
  (range tcpMaxSockets).any fun i =>
    (w.tcpSockets i).active && (w.tcpSockets i).localPort == port

/-- The loop of `tcp_alloc_port`; the first argument counts the tries. -/
def allocPortLoop : ℕ → Net → BitVec 16 × Net
  | 0, w => (0, w)
  | tries + 1, w =>
    let port := w.nextEphemeral
    let w := { w with nextEphemeral :=
      if tcpEphemeralLast ≤ port.toNat then BitVec.ofNat 16 tcpEphemeralFirst else port + 1 }
    if w.portUsed port then allocPortLoop tries w else (port, w)

def tcpAllocPort (w : Net) : BitVec 16 × Net :=
  let range := tcpEphemeralLast - tcpEphemeralFirst + 1
  let w :=
    if w.nextEphemeral = 0 then
      let isn := w.getRandomIsn
      { isn.2 with nextEphemeral := BitVec.ofNat 16 (tcpEphemeralFirst + isn.1.toNat % range) }
    else w
  allocPortLoop range w

/-! ### Transmission -/

def htons (n : BitVec 16) : BitVec 16 := ((n &&& 0xFF00) >>> 8) ||| ((n &&& 0x00FF) <<< 8)

/-- The bytes of a word in network order. -/
def be16 (n : BitVec 16) : List Byte := [n.extractLsb' 8 8, n.extractLsb' 0 8]

/-- The bytes of a double word in network order. -/
def be32 (n : BitVec 32) : List Byte :=
  [n.extractLsb' 24 8, n.extractLsb' 16 8, n.extractLsb' 8 8, n.extractLsb' 0 8]

/-- The flags byte of a TCP header. -/
def flagsByte (f : TcpFlags) : Byte :=
  (if f.fin then 1 else 0) ||| (if f.syn then 2 else 0) ||| (if f.rst then 4 else 0) |||
    (if f.psh then 8 else 0) ||| (if f.ack then 16 else 0)

/-- The bytes of a segment: the header, the option and the payload. -/
def segmentBytes (seg : OutSegment) : List Byte :=
  let hdrLen := 20 + if seg.mss.isSome then 4 else 0
  be16 seg.srcPort ++ be16 seg.destPort ++ be32 seg.seq ++ be32 seg.ack
    ++ [BitVec.ofNat 8 (hdrLen / 4) <<< 4, flagsByte seg.flags] ++ be16 seg.windowSize
    ++ be16 seg.checksum ++ be16 0
    ++ (match seg.mss with
        | some mss => [2, 4] ++ be16 (BitVec.ofNat 16 mss)
        | none => [])
    ++ seg.payload

/-- The sum of the words of a segment, an odd last byte being the high half of a word. -/
def sumWords : List Byte → BitVec 32
  | a :: b :: rest => ((a.setWidth 32 <<< 8) ||| b.setWidth 32) + sumWords rest
  | [a] => a.setWidth 32 <<< 8
  | [] => 0

/-- The loop that adds the carries of a checksum back in, at most so often. -/
def foldCarries : ℕ → BitVec 32 → BitVec 32
  | 0, sum => sum
  | n + 1, sum =>
    if sum >>> 16 = 0 then sum else foldCarries n ((sum &&& 0xFFFF) + (sum >>> 16))

def tcpChecksum (srcIp destIp : BitVec 32) (seg : List Byte) : BitVec 16 :=
  let sum := (srcIp >>> 16) + (srcIp &&& 0xFFFF) + (destIp >>> 16) + (destIp &&& 0xFFFF) + 6
    + BitVec.ofNat 32 seg.length + sumWords seg
  htons (~~~ (foldCarries 4 sum).setWidth 16)

def tcpRcvWindow (w : Net) (i : ℕ) : ℕ × Net :=
  let wnd := min (if (w.tcpSockets i).rxSpace then w.sockTcpRxSpace i else 65535) 65535
  (wnd, w.modTcp i fun s => { s with lastAdvWnd := wnd })

/-- The loop of `ipv4_send_packet` that polls until the address of the next hop is known,
at most so often. -/
def arpWait (poll : Net → Net) (target : BitVec 32) : ℕ → Net → Net
  | 0, w => w
  | retry + 1, w =>
    let w := poll w
    if target ∈ w.arpCache then w else arpWait poll target retry w

/-- The next hop on the way to an address. -/
def nextHop (iface : NetInterface) (destIp : BitVec 32) : BitVec 32 :=
  if destIp &&& iface.subnetMask ≠ iface.ip &&& iface.subnetMask then iface.gatewayIp else destIp

/-- What `ipv4_send_packet` does to the state: it waits for the address of the next hop. -/
def ipv4SendPacket (poll : Net → Net) (w : Net) (iface : NetInterface) (destIp : BitVec 32) :
    Net :=
  if nextHop iface destIp ∈ w.arpCache then w else arpWait poll (nextHop iface destIp) 50 w

/-- The segment that `tcp_xmit` builds. -/
def buildSegment (s : TcpSocket) (iface : NetInterface) (wnd : ℕ) (seq : BitVec 32)
    (flags : TcpFlags) (txOffset len : ℕ) : OutSegment :=
  let seg : OutSegment :=
    { srcPort := s.localPort
      destPort := s.remotePort
      seq := seq
      ack := if flags.ack then s.rcvNxt else 0
      flags := flags
      windowSize := BitVec.ofNat 16 wnd
      mss := if flags.syn then some tcpLocalMss else none
      checksum := 0
      payload := Ring.window (s.txBuf.getD fun _ => 0) tcpTxBufSize (s.txHead + txOffset)
        (min len tcpMaxSegPayload) }
  { seg with checksum := htons (tcpChecksum iface.ip s.remoteIp (segmentBytes seg)) }

def tcpXmit (poll : Net → Net) (w : Net) (i : ℕ) (seq : BitVec 32) (flags : TcpFlags)
    (txOffset len : ℕ) : Net :=
  match w.iface with
  | none => w
  | some iface =>
    let seg := buildSegment (w.tcpSockets i) iface (w.tcpRcvWindow i).1 seq flags txOffset len
    let w := (w.tcpRcvWindow i).2
    ipv4SendPacket poll { w with sent := w.sent ++ [seg] } iface (w.tcpSockets i).remoteIp

def tcpSendAck (poll : Net → Net) (w : Net) (i : ℕ) : Net :=
  w.tcpXmit poll i (w.tcpSockets i).sndNxt { ack := true } 0 0

def tcpArmRtx (w : Net) (i : ℕ) : Net :=
  w.modTcp i fun s => { s with
    rtxArmed := true
    rtxDeadlineMs := w.tcpNowMs + BitVec.ofNat 32 s.rtoMs }

/-- `tcp_arm_rtx`, if the timer is not armed. -/
def tcpEnsureRtx (w : Net) (i : ℕ) : Net :=
  if (w.tcpSockets i).rtxArmed then w else w.tcpArmRtx i

def tcpNotify (w : Net) (i : ℕ) : Net :=
  if (w.tcpSockets i).owner.isSome && (w.tcpSockets i).onEvent then w.sockTcpOnEvent i else w

def tcpFree (w : Net) (i : ℕ) : Net :=
  let w := w.modTcp i fun s => { s with reorder := fun _ => none, txBuf := none, state := .closed }
  let w := w.tcpNotify i
  w.modTcp i fun s => { s with active := false, owner := none }

def tcpFail (w : Net) (i : ℕ) (err : TcpError) : Net :=
  (w.modTcp i fun s => { s with error := err }).tcpFree i

/-! ### Output -/

/-- The states in which `tcp_output` sends. -/
def canSend : TcpState → Bool
  | .established | .closeWait | .finWait1 | .closing | .lastAck => true
  | _ => false

/-- The size of the segments that `tcp_output` cuts. -/
def outputMss (s : TcpSocket) : ℕ :=
  min (if s.peerMss = 0 then tcpDefaultMss else s.peerMss) tcpMaxSegPayload

/-- The number of sequence numbers that are on their way, `sent` in `tcp_output`. -/
def inFlight (s : TcpSocket) : ℕ := (s.sndNxt - s.sndUna).toNat

/-- The size of the next segment: what is queued, what the window allows and at most `mss`. -/
def outputSize (s : TcpSocket) (mss : ℕ) : ℕ :=
  min (min (s.txLen - inFlight s) (s.sndWnd - inFlight s)) mss

/-- The body of the loop of `tcp_output`: one segment is sent. -/
def outputRound (poll : Net → Net) (w : Net) (i mss : ℕ) : Net :=
  let s := w.tcpSockets i
  let n := outputSize s mss
  let flags : TcpFlags := { ack := true, psh := inFlight s + n == s.txLen }
  let w := w.tcpXmit poll i s.sndNxt flags (inFlight s) n
  let w := w.modTcp i fun s => { s with sndNxt := s.sndNxt + BitVec.ofNat 32 n }
  w.tcpEnsureRtx i

/-- The loop of `tcp_output` over the segments that the window allows.  Each round sends at
least one queued byte, so that the first argument may be the number of queued bytes. -/
def outputLoop (poll : Net → Net) (i mss : ℕ) : ℕ → Net → Net
  | 0, w => w
  | fuel + 1, w =>
    let s := w.tcpSockets i
    if s.txLen ≤ inFlight s ∨ s.sndWnd ≤ inFlight s then w
    else outputLoop poll i mss fuel (w.outputRound poll i mss)

/-- The part of `tcp_output` that sends the FIN after the queued bytes. -/
def outputFin (poll : Net → Net) (w : Net) (i : ℕ) : Net :=
  let s := w.tcpSockets i
  let finSeq := s.sndUna + BitVec.ofNat 32 s.txLen
  if s.finPending ∧ s.sndNxt = finSeq then
    let w := w.tcpXmit poll i finSeq { fin := true, ack := true } 0 0
    let w := w.modTcp i fun s => { s with sndNxt := finSeq + 1, finSent := true }
    w.tcpEnsureRtx i
  else w

/-- The part of `tcp_output` that has the persist timer probe a closed window. -/
def outputPersist (w : Net) (i : ℕ) : Net :=
  let s := w.tcpSockets i
  if !s.rtxArmed ∧ s.sndWnd = 0 ∧ inFlight s < s.txLen then w.tcpArmRtx i else w

def tcpOutput (poll : Net → Net) (w : Net) (i : ℕ) : Net :=
  if canSend (w.tcpSockets i).state then
    let w := outputLoop poll i (outputMss (w.tcpSockets i)) (w.tcpSockets i).txLen w
    (w.outputFin poll i).outputPersist i
  else w

/-- `tcp_write`, with the number of bytes queued. -/
def tcpWrite (poll : Net → Net) (w : Net) (i : ℕ) (data : List Byte) : ℕ × Net :=
  let s := w.tcpSockets i
  match s.txBuf with
  | none => (0, w)
  | some buf =>
    if !s.active || s.finPending then (0, w)
    else
      let len := min data.length (tcpTxBufSize - s.txLen)
      let w := w.modTcp i fun s => { s with
        txBuf := some (Ring.write buf tcpTxBufSize (s.txHead + s.txLen) (data.take len))
        txLen := s.txLen + len }
      (len, w.tcpOutput poll i)

/-- The states in which a connection takes data. -/
def canReceive : TcpState → Bool
  | .established | .finWait1 | .finWait2 => true
  | _ => false

def tcpWindowUpdate (poll : Net → Net) (w : Net) (i : ℕ) : Net :=
  let s := w.tcpSockets i
  if s.active && canReceive s.state then
    let now := min (if s.rxSpace then w.sockTcpRxSpace i else 65535) 65535
    if s.lastAdvWnd + tcpLocalMss ≤ now ∨ s.lastAdvWnd < tcpLocalMss ∧ tcpLocalMss ≤ now then
      w.tcpSendAck poll i
    else w
  else w

/-! ### Receiving data -/

/-- `tcp_deliver`, with the number of bytes accepted. -/
def tcpDeliver (w : Net) (i : ℕ) (data : List Byte) : ℕ × Net :=
  let s := w.tcpSockets i
  let r := if s.owner.isSome && s.onData then w.sockTcpOnData i data else (data.length, w)
  let accepted := min r.1 data.length
  (accepted, r.2.modTcp i fun s => { s with rcvNxt := s.rcvNxt + BitVec.ofNat 32 accepted })

def tcpReorderInsert (w : Net) (i : ℕ) (seq : BitVec 32) (data : List Byte) : Net :=
  let s := w.tcpSockets i
  let slots := range tcpReorderBufSize
  if Serial.Ge seq (s.rcvNxt + 65535) then w
  else if slots.any fun k => (s.reorder k).any fun e => e.seq == seq then w
  else
    match slots.find? fun k => (s.reorder k).isNone with
    | none => w
    | some k =>
      let alloc := w.kmalloc
      if alloc.1 then
        alloc.2.modTcp i fun s => { s with
          reorder := Function.update s.reorder k (some ⟨seq, data⟩) }
      else alloc.2

/-- Release one slot of the reorder buffer. -/
def dropSlot (w : Net) (i k : ℕ) : Net :=
  w.modTcp i fun s => { s with reorder := Function.update s.reorder k none }

/-- The body of the loop of `tcp_reorder_drain` for one slot; the flag is `progress`. -/
def drainSlot (i : ℕ) (r : Bool × Net) (k : ℕ) : Bool × Net :=
  let s := r.2.tcpSockets i
  match s.reorder k with
  | none => r
  | some e =>
    if Serial.Le (e.seq + BitVec.ofNat 32 e.data.length) s.rcvNxt then (r.1, r.2.dropSlot i k)
    else if Serial.Le e.seq s.rcvNxt then
      let skip := (s.rcvNxt - e.seq).toNat
      let want := e.data.length - skip
      let got := r.2.tcpDeliver i (e.data.drop skip)
      (got.1 == want, got.2.dropSlot i k)
    else r

/-- One pass of `tcp_reorder_drain` over the slots. -/
def drainPass (w : Net) (i : ℕ) : Bool × Net :=
  (range tcpReorderBufSize).foldl (drainSlot i) (false, w)

/-- The loop of `tcp_reorder_drain`.  A pass with progress empties a slot, so that the first
argument may be one more than the number of slots. -/
def drainLoop (i : ℕ) : ℕ → Net → Net
  | 0, w => w
  | n + 1, w =>
    let pass := w.drainPass i
    if pass.1 then drainLoop i n pass.2 else pass.2

def tcpReorderDrain (w : Net) (i : ℕ) : Net := drainLoop i (tcpReorderBufSize + 1) w

/-- The loop of `tcp_parse_options` over the bytes of the options; the result is the
maximal segment size of the peer, `mss` if there is no such option. -/
def parseOptions : ℕ → List Byte → ℕ → ℕ
  | fuel + 1, kind :: rest, mss =>
    if kind = 0 then mss
    else if kind = 1 then parseOptions fuel rest mss
    else
      match rest with
      | [] => mss
      | olen :: _ =>
        if olen.toNat < 2 ∨ rest.length + 1 < olen.toNat then mss
        else
          let mss :=
            if kind = 2 ∧ olen = 4 then
              ((rest.getD 1 0).setWidth 32 <<< 8 ||| (rest.getD 2 0).setWidth 32 : BitVec 32).toNat
            else mss
          parseOptions fuel ((kind :: rest).drop olen.toNat) mss
  | _, _, mss => mss

def tcpParseOptions (options : List Byte) (mss : ℕ) : ℕ := parseOptions options.length options mss

/-! ### Acknowledgements -/

/-- What an acknowledgement of new bytes does to the connection; `now` is the time. -/
def ackAdvance (now : BitVec 32) (ack : BitVec 32) (wnd : ℕ) (s : TcpSocket) : TcpSocket :=
  let acked := (ack - s.sndUna).toNat
  let dataAcked := min acked s.txLen
  let sndNxt := if Serial.Lt s.sndNxt ack then ack else s.sndNxt
  let txLen := s.txLen - dataAcked
  { s with
    txHead := (s.txHead + dataAcked) % tcpTxBufSize
    txLen := txLen
    sndUna := ack
    sndNxt := sndNxt
    retries := 0
    rtoMs := tcpInitialRtoMs
    rtxArmed := !(ack == sndNxt && txLen == 0)
    rtxDeadlineMs :=
      if ack = sndNxt ∧ txLen = 0 then s.rtxDeadlineMs else now + BitVec.ofNat 32 tcpInitialRtoMs
    sndWnd := wnd }

/-- The acknowledgements that `tcp_process_ack` takes for new ones. -/
def ackIsNew (s : TcpSocket) (ack : BitVec 32) : Prop :=
  Serial.Gt ack s.sndUna
    ∧ Serial.Le ack (s.sndUna + BitVec.ofNat 32 s.txLen + if s.finSent then 1 else 0)

instance (s : TcpSocket) (ack : BitVec 32) : Decidable (ackIsNew s ack) :=
  inferInstanceAs (Decidable (_ ∧ _))

/-- The value that `tcp_process_ack` returns: the FIN counts as acknowledged. -/
def finAcked (s : TcpSocket) : Bool := s.finSent && s.txLen == 0 && s.sndUna == s.sndNxt

def tcpProcessAck (w : Net) (i : ℕ) (ack : BitVec 32) (wnd : ℕ) : Bool × Net :=
  let w :=
    if ackIsNew (w.tcpSockets i) ack then (w.modTcp i (ackAdvance w.tcpNowMs ack wnd)).tcpNotify i
    else if ack = (w.tcpSockets i).sndUna then w.modTcp i fun s => { s with sndWnd := wnd }
    else w
  (finAcked (w.tcpSockets i), w)

/-! ### Segments -/

/-- The part of `handle_tcp` for a connection that has sent its SYN. -/
def inputSynSent (w : Net) (i : ℕ) (seg : Segment) : Net :=
  let ackOk := seg.flags.ack && seg.ack == (w.tcpSockets i).sndNxt
  if seg.flags.rst then
    if ackOk then w.tcpFail i .refused else w
  else if seg.flags.syn && ackOk then
    let w := w.modTcp i fun s => { s with
      rcvNxt := seg.seq + 1
      sndUna := seg.ack
      sndWnd := seg.windowSize.toNat
      peerMss := tcpParseOptions seg.options tcpDefaultMss
      state := .established
      rtxArmed := false
      retries := 0
      rtoMs := tcpInitialRtoMs }
    ((w.tcpSendAck id i).tcpNotify i).tcpOutput id i
  else w

/-- The part of `handle_tcp` for a reset. -/
def inputRst (w : Net) (i : ℕ) (seg : Segment) : Net :=
  let s := w.tcpSockets i
  if Serial.Ge seg.seq s.rcvNxt ∧ Serial.Lt seg.seq (s.rcvNxt + 65536) then
    match s.state with
    | .timeWait | .lastAck | .closing => w.tcpFree i
    | _ => w.tcpFail i .reset
  else w

/-- The part of `handle_tcp` for the acknowledgement of a segment. -/
def inputAck (w : Net) (i : ℕ) (seg : Segment) : Bool × Net :=
  if seg.flags.ack then w.tcpProcessAck i seg.ack seg.windowSize.toNat else (false, w)

/-- Deliver bytes that are in order and, if all were taken, those that wait behind them. -/
def deliverInOrder (w : Net) (i : ℕ) (data : List Byte) : Net :=
  let got := w.tcpDeliver i data
  if got.1 = data.length then got.2.tcpReorderDrain i else got.2

/-- The part of `handle_tcp` for the payload of a segment. -/
def inputData (w : Net) (i : ℕ) (seg : Segment) : Net :=
  let s := w.tcpSockets i
  if seg.payload ≠ [] ∧ canReceive s.state then
    if seg.seq = s.rcvNxt then w.deliverInOrder i seg.payload
    else if Serial.Lt seg.seq s.rcvNxt then
      if Serial.Gt (seg.seq + BitVec.ofNat 32 seg.payload.length) s.rcvNxt then
        w.deliverInOrder i (seg.payload.drop (s.rcvNxt - seg.seq).toNat)
      else w
    else w.tcpReorderInsert i seg.seq seg.payload
  else w

/-- The peer's FIN is accepted: every byte before it has been. -/
def finInOrder (s : TcpSocket) (seg : Segment) : Bool :=
  seg.flags.fin && seg.seq + BitVec.ofNat 32 seg.payload.length == s.rcvNxt && !s.peerFin

/-- The state after the peer's FIN. -/
def stateAfterFin (finAcked : Bool) : TcpState → TcpState
  | .established => .closeWait
  | .finWait1 => if finAcked then .timeWait else .closing
  | .finWait2 => .timeWait
  | state => state

/-- The part of `handle_tcp` for the FIN of a segment. -/
def inputFin (w : Net) (i : ℕ) (seg : Segment) (finAcked : Bool) : Net :=
  if finInOrder (w.tcpSockets i) seg then
    let w := w.modTcp i fun s => { s with
      rcvNxt := s.rcvNxt + 1
      peerFin := true
      state := stateAfterFin finAcked s.state
      deadlineMs :=
        if stateAfterFin finAcked s.state = .timeWait ∧ s.state ≠ .timeWait then
          w.tcpNowMs + BitVec.ofNat 32 tcpTimeWaitMs
        else s.deadlineMs }
    w.tcpNotify i
  else w

/-- A segment is answered by an ACK if it carries data, a FIN that is accepted or a FIN
after the accepted one. -/
def needAck (s : TcpSocket) (seg : Segment) : Bool :=
  seg.payload ≠ [] || finInOrder s seg || (seg.flags.fin && s.peerFin)

/-- The part of `handle_tcp` for the acknowledgement of our FIN. -/
def inputFinAcked (w : Net) (i : ℕ) : Net :=
  match (w.tcpSockets i).state with
  | .finWait1 => w.modTcp i fun s => { s with
      state := .finWait2, deadlineMs := w.tcpNowMs + BitVec.ofNat 32 tcpFinWait2Ms }
  | .closing => w.modTcp i fun s => { s with
      state := .timeWait, deadlineMs := w.tcpNowMs + BitVec.ofNat 32 tcpTimeWaitMs }
  | _ => w

/-- The end of `handle_tcp`: the transitions on the acknowledgement of our FIN and the
answer to the segment. -/
def inputFinish (w : Net) (i : ℕ) (needAck finAcked : Bool) : Net :=
  if finAcked ∧ (w.tcpSockets i).state = .lastAck then w.tcpFree i
  else
    let w := if finAcked then w.inputFinAcked i else w
    (if needAck then w.tcpSendAck id i else w).tcpOutput id i

/-- `handle_tcp` on a connection, past its lookup. -/
def tcpInput (w : Net) (i : ℕ) (seg : Segment) : Net :=
  if (w.tcpSockets i).state = .synSent then w.inputSynSent i seg
  else if seg.flags.rst then w.inputRst i seg
  else
    let acked := w.inputAck i seg
    let w := acked.2.inputData i seg
    (w.inputFin i seg acked.1).inputFinish i (needAck (w.tcpSockets i) seg) acked.1

/-- The connection that a segment belongs to. -/
def tcpLookup (w : Net) (seg : Segment) : Option ℕ :=
  (range tcpMaxSockets).find? fun i =>
    let c := w.tcpSockets i
    c.active && c.localPort == seg.destPort && c.remoteIp == seg.srcIp
      && c.remotePort == seg.srcPort

def handleTcp (w : Net) (seg : Segment) : Net :=
  match w.tcpLookup seg with
  | some i => w.tcpInput i seg
  | none => w

/-! ### Frames -/

def arpCacheSize : ℕ := 32

def arpUpdateCache (w : Net) (ip : BitVec 32) : Net :=
  if ip ∈ w.arpCache ∨ arpCacheSize ≤ w.arpCache.length then w
  else { w with arpCache := w.arpCache ++ [ip] }

/-- What `net_handle_packet` does with a packet. -/
def handlePacket (w : Net) : Packet → Net
  | .arp spa => w.arpUpdateCache spa
  | .tcp seg => w.handleTcp seg

def rtl8139Poll (w : Net) : Net :=
  match w.rx with
  | [] => w
  | packets :: rest => packets.foldl handlePacket { w with rx := rest }

/-! ### The life of a connection -/

def tcpShutdown (poll : Net → Net) (w : Net) (i : ℕ) : Net :=
  let s := w.tcpSockets i
  if !s.active || s.finPending then w
  else
    match s.state with
    | .established =>
      (w.modTcp i fun s => { s with state := .finWait1, finPending := true }).tcpOutput poll i
    | .closeWait =>
      (w.modTcp i fun s => { s with state := .lastAck, finPending := true }).tcpOutput poll i
    | _ => w

def tcpClose (poll : Net → Net) (w : Net) (i : ℕ) : Net :=
  if (w.tcpSockets i).active then
    let w := w.modTcp i fun s => { s with
      owner := none, onData := false, rxSpace := false, onEvent := false }
    if (w.tcpSockets i).state = .synSent then w.tcpFree i else w.tcpShutdown poll i
  else w

def tcpAbort (poll : Net → Net) (w : Net) (i : ℕ) : Net :=
  let s := w.tcpSockets i
  if s.active then
    let w :=
      if s.state ≠ .synSent ∧ s.state ≠ .timeWait then
        w.tcpXmit poll i s.sndNxt { rst := true, ack := true } 0 0
      else w
    (w.modTcp i fun s => { s with owner := none }).tcpFree i
  else w

def tcpCleared : TcpSocket where
  sndUna := 0
  sndNxt := 0
  sndWnd := 0
  peerMss := 0
  txBuf := none
  txHead := 0
  txLen := 0
  finPending := false
  finSent := false
  rtoMs := 0
  rtxDeadlineMs := 0
  rtxArmed := false
  retries := 0
  rcvNxt := 0
  lastAdvWnd := 0
  peerFin := false
  reorder _ := none
  active := false
  remoteIp := 0
  localPort := 0
  remotePort := 0
  state := .closed
  error := .none
  deadlineMs := 0
  onData := false
  rxSpace := false
  onEvent := false
  owner := none

/-- The connection block that `tcp_connect` fills in, before it sends the SYN. -/
def tcpOpened (destIp : BitVec 32) (lport port : BitVec 16) (isn : BitVec 32) (buf : ℕ → Byte)
    (owner : ℕ) : TcpSocket :=
  { tcpCleared with
    txBuf := some buf
    remoteIp := destIp
    remotePort := port
    localPort := lport
    sndUna := isn
    sndNxt := isn
    peerMss := tcpDefaultMss
    rtoMs := tcpInitialRtoMs
    state := .synSent
    onData := true
    rxSpace := true
    onEvent := true
    owner := some owner
    active := true }

/-- `tcp_connect` for a socket; the contents of the fresh send buffer are arbitrary. -/
def tcpConnect (poll : Net → Net) (buf : ℕ → Byte) (w : Net) (destIp : BitVec 32)
    (port : BitVec 16) (owner : ℕ) : Option ℕ × Net :=
  match (range tcpMaxSockets).find? fun i => !(w.tcpSockets i).active with
  | none => (none, w)
  | some i =>
    let lport := w.tcpAllocPort
    if lport.1 = 0 then (none, lport.2)
    else
      let alloc := (lport.2.modTcp i fun _ => tcpCleared).kmalloc
      if alloc.1 then
        let isn := alloc.2.getRandomIsn
        let w := isn.2.modTcp i fun _ => tcpOpened destIp lport.1 port isn.1 buf owner
        let w := w.tcpXmit poll i isn.1 { syn := true } 0 0
        let w := w.modTcp i fun s => { s with sndNxt := s.sndNxt + 1 }
        (some i, w.tcpArmRtx i)
      else (none, alloc.2)

/-! ### Timers -/

/-- The doubled retransmission timeout. -/
def backoff (rtoMs : ℕ) : ℕ := if tcpMaxRtoMs < rtoMs * 2 then tcpMaxRtoMs else rtoMs * 2

/-- The common end of `tcp_timeout`. -/
def timeoutRetry (w : Net) (i : ℕ) (nowMs : BitVec 32) : Net :=
  w.modTcp i fun s => { s with
    retries := s.retries + 1
    rtoMs := backoff s.rtoMs
    rtxArmed := true
    rtxDeadlineMs := nowMs + BitVec.ofNat 32 (backoff s.rtoMs) }

/-- The persist timer has fired: one byte is sent past the closed window. -/
def timeoutPersist (poll : Net → Net) (w : Net) (i : ℕ) (nowMs : BitVec 32) : Net :=
  let w := w.tcpXmit poll i (w.tcpSockets i).sndNxt { ack := true } 0 1
  w.modTcp i fun s => { s with
    sndNxt := s.sndNxt + 1
    rtoMs := backoff s.rtoMs
    rtxDeadlineMs := nowMs + BitVec.ofNat 32 (backoff s.rtoMs) }

def tcpTimeout (poll : Net → Net) (w : Net) (i : ℕ) (nowMs : BitVec 32) : Net :=
  let s := w.tcpSockets i
  if s.state = .synSent then
    if tcpSynMaxRetries ≤ s.retries then w.tcpFail i .timeout
    else (w.tcpXmit poll i s.sndUna { syn := true } 0 0).timeoutRetry i nowMs
  else if s.sndNxt = s.sndUna ∧ s.sndWnd = 0 ∧ 0 < s.txLen then w.timeoutPersist poll i nowMs
  else if tcpMaxRetries ≤ s.retries then
    (w.tcpXmit poll i s.sndNxt { rst := true, ack := true } 0 0).tcpFail i .timeout
  else
    let w := w.modTcp i fun s => { s with sndNxt := s.sndUna, rtxArmed := false }
    (w.tcpOutput poll i).timeoutRetry i nowMs

/-- The time has come, as a difference that is not negative. -/
def timeReached (nowMs deadlineMs : BitVec 32) : Bool := 0 ≤ (nowMs - deadlineMs).toInt

/-- The body of the loop of `tcp_tick_with_iface`. -/
def tickSocket (poll : Net → Net) (nowMs : BitVec 32) (w : Net) (i : ℕ) : Net :=
  let s := w.tcpSockets i
  if !s.active then w
  else if (s.state = .timeWait ∨ s.state = .finWait2 ∧ s.owner = none)
      ∧ timeReached nowMs s.deadlineMs then w.tcpFree i
  else if s.rtxArmed ∧ timeReached nowMs s.rtxDeadlineMs then w.tcpTimeout poll i nowMs
  else w

def tcpTickWithIface (poll : Net → Net) (w : Net) (nowMs : BitVec 32) : Net :=
  if w.iface.isNone then w
  else (range tcpMaxSockets).foldl (tickSocket poll nowMs) w

end Net
