import EquantOS.Net.Input
import EquantOS.Net.Socket

/-!
# The received stream

The peer of a connection sends a stream of fewer than `2 ^ 31` bytes.  Whatever pieces of
it arrive, in whatever order, the bytes that the application reads, followed by those in
the receive ring, are the stream up to `rcv_nxt`.
-/

open List hiding after
open Serial

namespace Net

open SocketEntry

/-- The part of a piece behind what has been delivered continues the delivered bytes. -/
lemma append_drop_isPrefix {S D a data b : List Byte}
    (hD : D <+: S) (hS : S = a ++ data ++ b) (hle : a.length ≤ D.length)
    (hlt : D.length ≤ a.length + data.length) :
  D ++ data.drop (D.length - a.length) <+: S
  := by
  obtain ⟨rest, hrest⟩ := hD
  have hcut : D = a ++ data.take (D.length - a.length) := by
    have htake : D = S.take D.length := by rw [← hrest, take_left]
    have hmin : D.length - a.length ≤ data.length := by omega
    conv_lhs => rw [htake, hS, append_assoc, take_append, take_of_length_le hle,
      take_append_of_le_length hmin]
  refine ⟨b, ?_⟩
  conv_lhs => rw [hcut]
  rw [append_assoc a, ← hcut, take_append_drop, hS]

/-- The state of the receive side of connection `i` with owner `j`, after the application
has read the bytes `R`. -/
structure Receiving (S : List Byte) (irs : BitVec 32) (i j : ℕ) (R : List Byte) (w : Net) :
    Prop where
  ring : (w.sockets j).rxRing.isSome
  used : (w.sockets j).ringUsed.toNat ≤ sockRxRingSize
  stream : R ++ (w.sockets j).contents <+: S
  nxt : (w.tcpSockets i).rcvNxt = after irs (1 + (R ++ (w.sockets j).contents).length
    + if (w.tcpSockets i).peerFin then 1 else 0)
  fin : (w.tcpSockets i).peerFin → R ++ (w.sockets j).contents = S
  pieces : ∀ k e, (w.tcpSockets i).reorder k = some e → Piece S irs e.seq e.data
  live : (w.tcpSockets i).active → (w.tcpSockets i).owner = some j ∧ (w.tcpSockets i).onData
    ∧ (w.sockets j).shutRd = false
    ∧ ((w.tcpSockets i).state = .established ∧ (w.tcpSockets i).peerFin = false
      ∨ (w.tcpSockets i).state = .closeWait)

/-- What the received stream depends on in a connection. -/
def recvSide (s : TcpSocket) :=
  (s.rcvNxt, s.peerFin, s.reorder, s.active, s.owner, s.onData, s.state)

/-- What the received stream depends on in a socket. -/
def ringSide (e : SocketEntry) := (e.rxRing, e.rxHead, e.rxTail, e.shutRd)

/-- Delivery to a socket whose reader is there. -/
lemma tcpDeliver_owned {w : Net} {i j : ℕ} {data : List Byte}
    (howner : (w.tcpSockets i).owner = some j) (hdata : (w.tcpSockets i).onData)
    (hring : (w.sockets j).rxRing.isSome) (hshut : (w.sockets j).shutRd = false) :
  w.tcpDeliver i data = (((w.sockets j).ringPush data).1,
    (w.modSock j fun _ => ((w.sockets j).ringPush data).2).modTcp i fun s =>
      { s with rcvNxt := s.rcvNxt + BitVec.ofNat 32 ((w.sockets j).ringPush data).1 })
  := by
  have hnone : (w.sockets j).rxRing.isNone = false := by
    rw [Option.isNone_eq_false_iff]
    exact hring
  have hmin : min ((w.sockets j).ringPush data).1 data.length = ((w.sockets j).ringPush data).1 := by
    rw [ringPush_fst]
    omega
  simp [tcpDeliver, sockTcpOnData, howner, hdata, hnone, hshut, hmin]

namespace Receiving

variable {S R : List Byte} {irs : BitVec 32} {i j : ℕ} {w w' : Net}

/-! ### What leaves the receive side alone -/

section

variable (h : Receiving S irs i j R w)

include h

/-- Nothing that the stream depends on has changed. -/
lemma congr (hs : recvSide (w'.tcpSockets i) = recvSide (w.tcpSockets i))
    (he : ringSide (w'.sockets j) = ringSide (w.sockets j)) :
  Receiving S irs i j R w'
  := by
  simp only [recvSide, ringSide, Prod.mk.injEq] at hs he
  obtain ⟨hnxt, hfin, hreorder, hactive, howner, hdata, hstate⟩ := hs
  obtain ⟨hring, hhead, htail, hshut⟩ := he
  have hused : (w'.sockets j).ringUsed = (w.sockets j).ringUsed := by
    rw [ringUsed, hhead, htail]
    rfl
  have hcont : (w'.sockets j).contents = (w.sockets j).contents := by
    rw [contents, hring, htail, hused]
    rfl
  constructor
  · rw [hring]
    exact h.ring
  · rw [hused]
    exact h.used
  · rw [hcont]
    exact h.stream
  · rw [hnxt, hcont, hfin]
    exact h.nxt
  · rw [hfin, hcont]
    exact h.fin
  · rw [hreorder]
    exact h.pieces
  · rw [hactive, howner, hdata, hshut, hstate, hfin]
    exact h.live

lemma status (ht : w'.tcpSockets = w.tcpSockets)
    (he : SameButStatus (w.sockets j) (w'.sockets j)) :
  Receiving S irs i j R w'
  := by
  apply h.congr
  · rw [ht]
  · rw [he.1]
    rfl

lemma notify (k : ℕ) : Receiving S irs i j R (w.tcpNotify k)
  := h.status tcpSockets_tcpNotify (sameButStatus_tcpNotify j)

/-- Transmissions, of whatever connection. -/
lemma sends {k : ℕ} {nxt : BitVec 32} {fin : Bool} {timer : TcpTimer} {adv : ℕ} {log : List OutSegment} :
  Receiving S irs i j R (w.sends k nxt fin timer adv log)
  := by
  apply h.congr
  · by_cases hk : i = k
    · subst hk
      rw [tcpSockets_sends]
      rfl
    · simp [Net.sends, modTcp, hk]
  · rfl

lemma output (k : ℕ) : Receiving S irs i j R (w.tcpOutput id k)
  := by
  obtain ⟨nxt, fin, timer, adv, log, heq, -⟩ := tcpOutput_id (w := w) (i := k)
  rw [heq]
  exact h.sends

lemma sendAck (k : ℕ) : Receiving S irs i j R (w.tcpSendAck id k)
  := by
  rw [tcpSendAck_id]
  exact h.sends

/-! ### Bytes in order -/

/-- Bytes that continue the stream are put behind it, as far as there is room. -/
lemma deliver (hact : (w.tcpSockets i).active)
    (hfin : (w.tcpSockets i).peerFin = false) {data : List Byte}
    (hnext : R ++ (w.sockets j).contents ++ data <+: S) :
  Receiving S irs i j R (w.tcpDeliver i data).2
  := by
  obtain ⟨howner, hdata, hshut, hstate⟩ := h.live hact
  rw [tcpDeliver_owned howner hdata h.ring hshut]
  obtain ⟨hcont, hused⟩ := contents_ringPush h.ring h.used data
  obtain ⟨hsame, hsome⟩ := sameButRing_ringPush (w.sockets j) data
  set n := ((w.sockets j).ringPush data).1 with hn
  have hlen : (data.take n).length = n := by
    rw [length_take, hn, ringPush_fst]
    omega
  constructor
  · simpa [hsome] using h.ring
  · simpa using hused
  · simp only [sockets_modTcp, sockets_modSock, hcont]
    refine List.IsPrefix.trans ?_ hnext
    rw [← append_assoc, prefix_append_right_inj]
    exact take_prefix n data
  · simp only [tcpSockets_modTcp, tcpSockets_modSock, sockets_modTcp, sockets_modSock, hcont]
    rw [h.nxt, ← after, after_after]
    simp only [length_append]
    congr 1
    omega
  · simp [hfin]
  · simpa using h.pieces
  · intro _
    simp only [tcpSockets_modTcp, sockets_modTcp, sockets_modSock]
    refine ⟨howner, hdata, ?_, hstate⟩
    rw [hsame]
    exact hshut

/-- The distances of the delivered bytes from the start of the stream. -/
lemma length_le :
  (R ++ (w.sockets j).contents).length ≤ S.length
  := h.stream.length_le

lemma nxt_open (hfin : (w.tcpSockets i).peerFin = false) :
  (w.tcpSockets i).rcvNxt = after irs (1 + (R ++ (w.sockets j).contents).length)
  := by
  rw [h.nxt, hfin]
  rfl

end

variable {seq : BitVec 32} {data : List Byte} {seg : Segment}

/-- A piece that starts at or before `rcv_nxt` and ends behind it continues the stream. -/
lemma deliver_piece (hS : S.length < 2 ^ 31) (h : Receiving S irs i j R w)
    (hact : (w.tcpSockets i).active) (hfin : (w.tcpSockets i).peerFin = false) (hp : Piece S irs seq data)
    (hle : Le seq (w.tcpSockets i).rcvNxt)
    (hlt : Le (w.tcpSockets i).rcvNxt (after seq data.length)) :
  Receiving S irs i j R
    (w.tcpDeliver i (data.drop ((w.tcpSockets i).rcvNxt - seq).toNat)).2
  := by
  obtain ⟨a, b, hab, rfl⟩ := hp
  have hlen := congrArg length hab
  simp only [length_append] at hlen
  have hD := h.length_le
  rw [h.nxt_open hfin] at hle hlt ⊢
  rw [after_after, le_after_iff (by omega) (by omega)] at hlt
  rw [le_after_iff (by omega) (by omega)] at hle
  rw [toNat_after_sub_after _ hle (by omega), Nat.add_sub_add_left]
  apply h.deliver hact hfin
  exact append_drop_isPrefix h.stream hab (by omega) (by omega)

lemma dropSlot (h : Receiving S irs i j R w) (k : ℕ) : Receiving S irs i j R (w.dropSlot i k)
  := by
  refine ⟨h.ring, h.used, h.stream, ?_, ?_, ?_, ?_⟩
  · simpa [Net.dropSlot] using h.nxt
  · simpa [Net.dropSlot] using h.fin
  · intro k' e he
    simp only [Net.dropSlot, tcpSockets_modTcp, Function.update_apply] at he
    split at he
    · cases he
    · exact h.pieces k' e he
  · simpa [Net.dropSlot] using h.live

/-- The payload does not touch the connection's place in the world. -/
lemma open_of_receives (hr : Receives i w w') :
  (w'.tcpSockets i).active = (w.tcpSockets i).active
    ∧ (w'.tcpSockets i).peerFin = (w.tcpSockets i).peerFin
    ∧ (w'.tcpSockets i).state = (w.tcpSockets i).state
  := by
  obtain ⟨nxt, reorder, sockets, mallocs, rfl, -⟩ := hr
  simp [receives]

section

variable (hS : S.length < 2 ^ 31) (h : Receiving S irs i j R w) (hact : (w.tcpSockets i).active)

include hS h hact

lemma drain (hfin : (w.tcpSockets i).peerFin = false) :
  Receiving S irs i j R (w.tcpReorderDrain i)
  := by
  have hall : Receiving S irs i j R (w.tcpReorderDrain i)
      ∧ ((w.tcpReorderDrain i).tcpSockets i).active
      ∧ ((w.tcpReorderDrain i).tcpSockets i).peerFin = false := by
    apply tcpReorderDrain_induction (P := fun w => Receiving S irs i j R w
      ∧ (w.tcpSockets i).active ∧ (w.tcpSockets i).peerFin = false)
    · rintro w k e ⟨hw, ha, hf⟩ - he hlt hle
      have hkeep := open_of_receives ((receives_tcpDeliver (w := w) (i := i)
        (e.data.drop ((w.tcpSockets i).rcvNxt - e.seq).toNat)).trans (receives_dropSlot k))
      refine ⟨dropSlot (deliver_piece hS hw ha hf (hw.pieces k e he) hle ?_) k,
        hkeep.1.trans ha, hkeep.2.1.trans hf⟩
      exact le_of_not_le hlt
    · rintro w k ⟨hw, ha, hf⟩
      have hkeep := open_of_receives (receives_dropSlot (w := w) (i := i) k)
      exact ⟨hw.dropSlot k, hkeep.1.trans ha, hkeep.2.1.trans hf⟩
    · exact ⟨h, hact, hfin⟩
  exact hall.1

lemma deliverInOrder (hfin : (w.tcpSockets i).peerFin = false) (hp : Piece S irs seq data)
    (hle : Le seq (w.tcpSockets i).rcvNxt)
    (hlt : Le (w.tcpSockets i).rcvNxt (after seq data.length)) :
  Receiving S irs i j R
    (w.deliverInOrder i (data.drop ((w.tcpSockets i).rcvNxt - seq).toNat))
  := by
  have hdel := h.deliver_piece hS hact hfin hp hle hlt
  have hkeep := open_of_receives (receives_tcpDeliver (w := w) (i := i)
    (data.drop ((w.tcpSockets i).rcvNxt - seq).toNat))
  rw [Net.deliverInOrder]
  split
  · exact hdel.drain hS (hkeep.1.trans hact) (hkeep.2.1.trans hfin)
  · exact hdel

end

lemma insert (h : Receiving S irs i j R w) (hp : Piece S irs seq data) :
  Receiving S irs i j R (w.tcpReorderInsert i seq data)
  := by
  rw [tcpReorderInsert]
  simp only
  split
  · exact h
  split
  · exact h
  split
  · exact h
  split
  next k _ _ =>
    refine ⟨h.ring, h.used, h.stream, ?_, ?_, ?_, ?_⟩
    · simpa [kmalloc] using h.nxt
    · simpa [kmalloc] using h.fin
    · intro k' e he
      simp only [tcpSockets_modTcp, Function.update_apply] at he
      split at he
      · obtain rfl := Option.some.inj he
        exact hp
      · exact h.pieces k' e he
    · simpa [kmalloc] using h.live
  · exact h.congr rfl rfl

/-! ### A segment -/

/-- What the peer sends: pieces of the stream, and the FIN at its end. -/
def Carries (S : List Byte) (irs : BitVec 32) (seg : Segment) : Prop :=
  ∃ a b, S = a ++ seg.payload ++ b ∧ seg.seq = after irs (1 + a.length) ∧ (seg.flags.fin → b = [])

lemma Carries.piece (hc : Carries S irs seg) : Piece S irs seg.seq seg.payload
  := by
  obtain ⟨a, b, hab, hseq, -⟩ := hc
  exact ⟨a, b, hab, hseq⟩

section

variable (hS : S.length < 2 ^ 31) (h : Receiving S irs i j R w) (hact : (w.tcpSockets i).active)

include hS h hact

lemma inputData (hc : Carries S irs seg) :
  Receiving S irs i j R (w.inputData i seg)
  := by
  rw [Net.inputData]
  split
  next hcan =>
    have hfin : (w.tcpSockets i).peerFin = false := by
      rcases (h.live hact).2.2.2 with ⟨-, hfin⟩ | hstate
      · exact hfin
      · simp [hstate, canReceive] at hcan
    split
    next heq =>
      -- in order: nothing of the payload is skipped
      have hself : Le seg.seq seg.seq := by simp [Le]
      have hend : Le seg.seq (after seg.seq seg.payload.length) := by
        have := seg.short
        nth_rewrite 1 [← after_zero seg.seq]
        rw [le_after_iff (by omega) (by omega)]
        omega
      have := h.deliverInOrder hS hact hfin hc.piece (heq ▸ hself) (heq ▸ hend)
      rwa [← heq, BitVec.sub_self, BitVec.toNat_zero, drop_zero] at this
    next hne =>
      split
      next hlt =>
        split
        next hgt =>
          apply h.deliverInOrder hS hact hfin hc.piece
          · simp only [Lt, Le] at hlt ⊢
            omega
          · simp only [Gt, Le, after, BitVec.toInt_eq_toNat_cond] at hgt ⊢
            bv_omega
        · exact h
      · exact h.insert hc.piece
  · exact h

/-- The FIN is accepted only behind the last byte of the stream. -/
lemma inputFin (hc : Carries S irs seg) (acked : Bool) :
  Receiving S irs i j R (w.inputFin i seg acked)
  := by
  rw [Net.inputFin]
  split
  next hin =>
    simp only [finInOrder, Bool.and_eq_true, beq_iff_eq, Bool.not_eq_true'] at hin
    obtain ⟨⟨hflag, hseq⟩, hfin⟩ := hin
    obtain ⟨a, b, hab, hstart, hb⟩ := hc
    obtain rfl := hb hflag
    rw [append_nil] at hab
    have hlen := congrArg length hab
    rw [length_append] at hlen
    have hD := h.length_le
    have hall : R ++ (w.sockets j).contents = S := by
      apply h.stream.eq_of_length
      rw [hstart, h.nxt_open hfin, ← after, after_after, after_inj (by omega) (by omega)] at hseq
      omega
    apply notify
    obtain ⟨howner, hdata, hshut, hstate⟩ := h.live hact
    refine ⟨h.ring, h.used, h.stream, ?_, ?_, ?_, ?_⟩
    · simp only [tcpSockets_modTcp, sockets_modTcp, if_true]
      rw [h.nxt_open hfin, add_one_eq_after, after_after]
    · intro _
      exact hall
    · simpa using h.pieces
    · intro _
      simp only [tcpSockets_modTcp]
      refine ⟨howner, hdata, hshut, Or.inr ?_⟩
      rcases hstate with ⟨hstate, -⟩ | hstate
      · simp [hstate, stateAfterFin]
      · simp [hstate, stateAfterFin]
  · exact h

end

section

variable (h : Receiving S irs i j R w)

include h

lemma inputAck (seg : Segment) :
  Receiving S irs i j R (w.inputAck i seg).2
  := by
  rw [Net.inputAck]
  split
  · rw [tcpProcessAck]
    split
    · apply notify
      apply h.congr
      · rw [tcpSockets_modTcp]
        rfl
      · rfl
    · split
      · apply h.congr
        · rw [tcpSockets_modTcp]
          rfl
        · rfl
      · exact h
  · exact h

lemma inputFinish (hact : (w.tcpSockets i).active)
    (need acked : Bool) :
  Receiving S irs i j R (w.inputFinish i need acked)
  := by
  have hstay : w.inputFinAcked i = w := by
    rw [inputFinAcked]
    rcases (h.live hact).2.2.2 with ⟨hstate, -⟩ | hstate <;> rw [hstate]
  have hlast : (w.tcpSockets i).state ≠ .lastAck := by
    rcases (h.live hact).2.2.2 with ⟨hstate, -⟩ | hstate <;> rw [hstate] <;> decide
  rw [Net.inputFinish, if_neg fun hc => hlast hc.2, hstay, ite_self]
  apply output
  split
  · exact h.sendAck i
  · exact h

/-- A released connection keeps what was received. -/
lemma closed (hs : ∃ err, w'.tcpSockets i = { w.tcpSockets i with
      error := err, reorder := fun _ => none, txBuf := none, state := .closed, active := false,
      owner := none })
    (he : SameButStatus (w.sockets j) (w'.sockets j)) :
  Receiving S irs i j R w'
  := by
  obtain ⟨err, hs⟩ := hs
  have hkeep : Receiving S irs i j R { w with sockets := w'.sockets } := h.status rfl he
  refine ⟨hkeep.ring, hkeep.used, hkeep.stream, ?_, ?_, ?_, ?_⟩
  · rw [hs]
    exact hkeep.nxt
  · rw [hs]
    exact hkeep.fin
  · rw [hs]
    intro k e he
    cases he
  · rw [hs]
    intro ha
    cases ha

lemma inputRst (seg : Segment) :
  Receiving S irs i j R (w.inputRst i seg)
  := by
  rw [Net.inputRst]
  split
  · split
    · exact h.closed ⟨_, tcpSockets_tcpFree⟩ (sameButStatus_tcpFree j)
    · exact h.closed ⟨_, tcpSockets_tcpFree⟩ (sameButStatus_tcpFree j)
    · exact h.closed ⟨_, tcpSockets_tcpFree⟩ (sameButStatus_tcpFree j)
    · exact h.closed ⟨_, tcpSockets_tcpFail _⟩ (sameButStatus_tcpFail _ j)
  · exact h

end

/-- A segment of the peer. -/
lemma tcpInput (hS : S.length < 2 ^ 31) (h : Receiving S irs i j R w)
    (hact : (w.tcpSockets i).active) (hc : Carries S irs seg) :
  Receiving S irs i j R (w.tcpInput i seg)
  := by
  have hsyn : (w.tcpSockets i).state ≠ .synSent := by
    rcases (h.live hact).2.2.2 with ⟨hstate, -⟩ | hstate <;> rw [hstate] <;> decide
  rw [Net.tcpInput, if_neg hsyn]
  split
  · exact h.inputRst seg
  have hack := h.inputAck seg
  have hactAck : ((w.inputAck i seg).2.tcpSockets i).active := by
    obtain ⟨snd, timer, heq⟩ := inputAck_eq (w := w) (i := i) seg
    rw [heq]
    exact hact
  have hdata := hack.inputData hS hactAck hc
  have hactData := (open_of_receives (receives_inputData (w := (w.inputAck i seg).2)
    (i := i) seg)).1.trans hactAck
  have hfin := hdata.inputFin hS hactData hc (w.inputAck i seg).1
  apply hfin.inputFinish
  obtain ⟨nxt, fin, deadline, heq⟩ := inputFin_eq (i := i) (w := (w.inputAck i seg).2.inputData i seg)
    seg (w.inputAck i seg).1
  rw [heq]
  exact hactData

/-! ### A read -/

/-- What a read takes from the stream. -/
def readBytes (peek : Bool) : Except ℕ (List Byte) → List Byte
  | .ok bytes => if peek then [] else bytes
  | .error _ => []

section

variable (h : Receiving S irs i j R w)

include h

lemma windowUpdate (k : ℕ) :
  Receiving S irs i j R (w.tcpWindowUpdate id k)
  := by
  rcases tcpWindowUpdate_cases (w := w) (i := k) id with heq | heq <;> rw [heq]
  · exact h
  · exact h.sendAck k

lemma clearErr :
  Receiving S irs i j R (w.modSock j fun e => { e with err := 0 })
  := by
  apply h.congr
  · rfl
  · rw [sockets_modSock]
    rfl

lemma ringPop (len : ℕ) :
  Receiving S irs i j (R ++ ((w.sockets j).ringPop len false).1)
    (w.modSock j fun _ => ((w.sockets j).ringPop len false).2)
  := by
  obtain ⟨hcont, hused⟩ := contents_ringPop h.used len
  have hsplit : R ++ ((w.sockets j).ringPop len false).1
      ++ ((w.sockets j).ringPop len false).2.contents = R ++ (w.sockets j).contents := by
    rw [append_assoc, ← hcont]
  constructor
  · simpa [SocketEntry.ringPop] using h.ring
  · simpa using hused
  · rw [sockets_modSock, hsplit]
    exact h.stream
  · rw [sockets_modSock, hsplit]
    exact h.nxt
  · rw [sockets_modSock, hsplit]
    exact h.fin
  · exact h.pieces
  · simpa [SocketEntry.ringPop] using h.live

lemma recvBytes (len : ℕ) (peek : Bool) :
  Receiving S irs i j (R ++ if peek then [] else (w.recvBytes id j len peek).1)
    (w.recvBytes id j len peek).2
  := by
  cases peek with
  | true =>
    have hsame : (w.recvBytes id j len true).2 = w.modSock j fun e => e := by
      simp only [Net.recvBytes]
      split <;> rfl
    rw [if_pos rfl, append_nil, hsame]
    apply h.congr
    · rfl
    · rw [sockets_modSock]
  | false =>
    have hpop := h.ringPop len
    rw [Net.recvBytes]
    simp only [Bool.false_eq_true, if_false]
    split
    · exact hpop.windowUpdate _
    · exact hpop

lemma recvfrom (len : ℕ) (peek : Bool) :
  Receiving S irs i j (R ++ readBytes peek (w.sockRecvfrom id j len peek).1)
    (w.sockRecvfrom id j len peek).2
  := by
  rw [sockRecvfrom]
  split
  · simpa [readBytes] using h
  split
  · exact h.recvBytes len peek
  split
  · simpa [readBytes] using h.clearErr
  split
  · simpa [readBytes] using h
  split
  · simpa [readBytes] using h
  split
  · simpa [readBytes] using h
  · simpa [readBytes] using h

end

end Receiving

variable {S : List Byte} {irs : BitVec 32} {i j : ℕ} {w : Net}

/-! ### The start of a connection -/

/-- A connection with owner `j` that is established and has received nothing. -/
structure Fresh (irs : BitVec 32) (i j : ℕ) (w : Net) : Prop where
  active : (w.tcpSockets i).active
  state : (w.tcpSockets i).state = .established
  owner : (w.tcpSockets i).owner = some j
  onData : (w.tcpSockets i).onData
  rcvNxt : (w.tcpSockets i).rcvNxt = irs + 1
  peerFin : (w.tcpSockets i).peerFin = false
  reorder : ∀ k, (w.tcpSockets i).reorder k = none
  ring : (w.sockets j).rxRing.isSome
  empty : (w.sockets j).rxHead = (w.sockets j).rxTail
  shutRd : (w.sockets j).shutRd = false

/-- The answer to the SYN brings a connection there. -/
theorem fresh_of_synAck {seg : Segment}
    (hactive : (w.tcpSockets i).active) (hstate : (w.tcpSockets i).state = .synSent)
    (howner : (w.tcpSockets i).owner = some j) (hdata : (w.tcpSockets i).onData)
    (hfin : (w.tcpSockets i).peerFin = false) (hreorder : ∀ k, (w.tcpSockets i).reorder k = none)
    (hring : (w.sockets j).rxRing.isSome) (hempty : (w.sockets j).rxHead = (w.sockets j).rxTail)
    (hshut : (w.sockets j).shutRd = false)
    (hsyn : seg.flags.syn) (hack : seg.flags.ack) (hrst : seg.flags.rst = false)
    (hnum : seg.ack = (w.tcpSockets i).sndNxt) :
  Fresh seg.seq i j (w.tcpInput i seg)
  := by
  rw [tcpInput, if_pos hstate, inputSynSent]
  simp only [hrst, hsyn, hack, hnum, Bool.false_eq_true, if_false, Bool.true_and, beq_self_eq_true,
    if_true]
  rw [tcpSendAck_id]
  set w₁ := sends _ i _ _ _ _ _ with hw₁
  obtain ⟨nxt, fin, timer, adv, log, hout, -⟩ := tcpOutput_id (w := w₁.tcpNotify i) (i := i)
  have hsock : ringSide (((w₁.tcpNotify i).tcpOutput id i).sockets j) = ringSide (w.sockets j) := by
    rw [hout, sockets_sends, (sameButStatus_tcpNotify j).1]
    rfl
  have htcp : recvSide (((w₁.tcpNotify i).tcpOutput id i).tcpSockets i)
      = (seg.seq + 1, false, (w.tcpSockets i).reorder, true, some j, true, .established) := by
    rw [hout, tcpSockets_sends, tcpSockets_tcpNotify, tcpSockets_sends, tcpSockets_modTcp]
    simp only [recvSide, hactive, howner, hdata, hfin]
  simp only [recvSide, ringSide, Prod.mk.injEq] at htcp hsock
  obtain ⟨h1, h2, h3, h4, h5, h6, h7⟩ := htcp
  obtain ⟨e1, e2, e3, e4⟩ := hsock
  exact ⟨h4, h7, h5, h6, h1, h2, h3 ▸ hreorder, e1 ▸ hring, (e2.trans hempty).trans e3.symm,
    e4.trans hshut⟩

lemma Fresh.receiving (h : Fresh irs i j w) : Receiving S irs i j [] w
  := by
  have hused : (w.sockets j).ringUsed = 0 := by
    rw [ringUsed, h.empty, BitVec.sub_self]
    rfl
  have hcont : (w.sockets j).contents = [] := by
    rw [contents, hused]
    rfl
  constructor
  · exact h.ring
  · simp [hused]
  · simp [hcont]
  · rw [hcont, h.rcvNxt, h.peerFin]
    rfl
  · simp [h.peerFin]
  · simp [h.reorder]
  · intro _
    exact ⟨h.owner, h.onData, h.shutRd, Or.inl ⟨h.state, h.peerFin⟩⟩

/-! ### Runs -/

/-- What happens to a connection whose peer sends the stream `S`: segments arrive, the
application reads, time passes.  The state comes with the bytes read so far. -/
inductive RxStep (S : List Byte) (irs : BitVec 32) (i j : ℕ) :
    Net × List Byte → Net × List Byte → Prop where
  | segment {w : Net} {R : List Byte} {seg : Segment} :
      w.tcpLookup seg = some i → Receiving.Carries S irs seg →
      RxStep S irs i j (w, R) (w.handleTcp seg, R)
  | read {w : Net} {R : List Byte} {len : ℕ} {peek : Bool} :
      RxStep S irs i j (w, R) ((w.sockRecvfrom id j len peek).2,
        R ++ Receiving.readBytes peek (w.sockRecvfrom id j len peek).1)
  | tick {w : Net} {R : List Byte} {t : BitVec 32} :
      RxStep S irs i j (w, R) ({ w with tick := t }, R)

lemma RxStep.receiving (hS : S.length < 2 ^ 31) {st st' : Net × List Byte}
    (hs : RxStep S irs i j st st') (h : Receiving S irs i j st.2 st.1) :
  Receiving S irs i j st'.2 st'.1
  := by
  cases hs with
  | segment hl hc =>
    simp only [handleTcp, hl]
    exact h.tcpInput hS (active_of_tcpLookup hl) hc
  | read => exact h.recvfrom _ _
  | tick => exact h.congr rfl rfl

/-- In every run of received segments and reads, the bytes put in the receive ring are the
stream in order, `rcv_nxt` counts them, and the FIN is accepted only behind the last. -/
theorem received_stream_exact
    (hS : S.length < 2 ^ 31) {w₀ : Net} {R : List Byte} (h₀ : Fresh irs i j w₀)
    (hrun : Relation.ReflTransGen (RxStep S irs i j) (w₀, []) (w, R)) :
  R ++ (w.sockets j).contents <+: S
    ∧ (w.tcpSockets i).rcvNxt = irs + 1 + BitVec.ofNat 32 (R ++ (w.sockets j).contents).length
      + (if (w.tcpSockets i).peerFin then 1 else 0)
    ∧ ((w.tcpSockets i).peerFin → R ++ (w.sockets j).contents = S)
  := by
  have hall : ∀ {st : Net × List Byte}, Relation.ReflTransGen (RxStep S irs i j) (w₀, []) st →
      Receiving S irs i j st.2 st.1 := by
    intro st hr
    induction hr with
    | refl => exact h₀.receiving
    | tail _ hs ih => exact hs.receiving hS ih
  have h := hall hrun
  refine ⟨h.stream, ?_, h.fin⟩
  rw [h.nxt, ← after_after, ← after_after]
  cases (w.tcpSockets i).peerFin <;> rfl

/-- A stack with one established connection, of socket `0`. -/
def oneConnection : Net :=
  ((boot (fun _ => true) []).modTcp 0 fun _ =>
    { tcpOpened 7 49152 80 0 (fun _ => 0) 0 with state := .established, rcvNxt := 1 }).modSock 0
    fun _ => { sockCleared .connected .stream with rxRing := some fun _ => 0, tcb := some 0 }

def pieceAt (seq : BitVec 32) (fin : Bool) (payload : List Byte) (h : payload.length < 2 ^ 16) :
    Segment where
  srcIp := 7
  srcPort := 80
  destPort := 49152
  seq := seq
  ack := 0
  flags := { fin := fin }
  windowSize := 0
  options := []
  payload := payload
  short := h

/-- The end of a stream of three bytes arrives before its start. -/
theorem received_stream_exact_reordered :
  ∃ w R, Relation.ReflTransGen (RxStep [1, 2, 3] 0 0 0) (oneConnection, []) (w, R)
    ∧ R = [1, 2, 3] ∧ R ++ (w.sockets 0).contents <+: [1, 2, 3]
  := by
  have hfresh : Fresh 0 0 0 oneConnection :=
    ⟨rfl, rfl, rfl, rfl, rfl, rfl, fun _ => rfl, rfl, rfl, rfl⟩
  have hend := @RxStep.segment [1, 2, 3] 0 0 0 oneConnection []
    (pieceAt 2 true [2, 3] (by decide)) rfl ⟨[1], [], rfl, rfl, fun _ => rfl⟩
  have hstart := @RxStep.segment [1, 2, 3] 0 0 0
    (oneConnection.handleTcp (pieceAt 2 true [2, 3] (by decide))) []
    (pieceAt 1 false [1] (by decide)) rfl ⟨[], [2, 3], rfl, rfl, nofun⟩
  have hread := @RxStep.read [1, 2, 3] 0 0 0
    ((oneConnection.handleTcp (pieceAt 2 true [2, 3] (by decide))).handleTcp
      (pieceAt 1 false [1] (by decide))) [] 100 false
  have hrun := ((Relation.ReflTransGen.single hend).tail hstart).tail hread
  exact ⟨_, _, hrun, rfl, (received_stream_exact (by decide) hfresh hrun).1⟩

end Net
