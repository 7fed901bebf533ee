import EquantOS.Net.Receive
import EquantOS.Net.Polling

/-!
# A writer and a reader

The segments of one connection reach another, late, in any order, some of them not at all and some more than
once, and the writer gets any acknowledgements.  What has been read is a beginning of what has been written.
-/

open List hiding after
open Serial

namespace Net

variable {S R : List Byte} {isn : BitVec 32} {i i' j : ℕ} {w r : Net} {seg : Segment} {log : List OutSegment}

/-- A segment without payload and FIN leaves the received stream alone. -/
lemma Receiving.bare (h : Receiving S isn i j R w) (hact : (w.tcpSockets i).active) (hpay : seg.payload = [])
    (hfin : seg.flags.fin = false) :
  Receiving S isn i j R (w.tcpInput i seg)
  := by
  have hsyn : (w.tcpSockets i).state ≠ .synSent := by
    rcases (h.live hact).2.2.2 with ⟨hstate, -⟩ | hstate <;> rw [hstate] <;> decide
  have hdata : ∀ w, Net.inputData w i seg = w := fun _ => if_neg fun hc => hc.1 hpay
  have hstay : ∀ w acked, Net.inputFin w i seg acked = w := fun _ _ => if_neg (by simp [finInOrder, hfin])
  rw [Net.tcpInput, if_neg hsyn]
  split
  · exact h.inputRst seg
  simp only [hdata, hstay]
  apply (h.inputAck seg).inputFinish
  obtain ⟨snd, timer, heq⟩ := inputAck_eq (w := w) (i := i) seg
  rw [heq]
  exact hact

/-- A segment that agrees with the stream carries a part of it, or nothing. -/
lemma Agrees.carries {pending : Bool} {o : OutSegment} (h : Agrees isn S pending o) (hS : S.length < 2 ^ 31)
    (hseq : seg.seq = o.seq) (hflags : seg.flags = o.flags) (hpay : seg.payload = o.payload) :
  Receiving.Carries S isn seg ∨ seg.payload = [] ∧ seg.flags.fin = false
  := by
  rw [Receiving.Carries, hseq, hflags, hpay]
  by_cases hnil : o.payload = []
  · rw [hnil]
    cases hfin : o.flags.fin with
    | false => exact .inr ⟨rfl, rfl⟩
    | true => exact .inl ⟨S, [], by simp, (h.2 hfin).2, fun _ => rfl⟩
  · obtain ⟨a, b, hab, hstart⟩ := h.1 hnil
    refine .inl ⟨a, b, hab, hstart, fun hfin => ?_⟩
    have hlen := congrArg length hab
    simp only [length_append] at hlen
    have hend := hstart.symm.trans (h.2 hfin).2
    rw [after_inj (by omega) (by omega)] at hend
    exact eq_nil_of_length_eq_zero (by omega)

/-- What happens to the reader, with the bytes read so far: one of the segments that are sent arrives, the
application reads, time passes. -/
inductive ReaderStep (log : List OutSegment) (i j : ℕ) : Net × List Byte → Net × List Byte → Prop where
  | segment {w : Net} {R : List Byte} {o : OutSegment} {seg : Segment} :
      o ∈ log → seg.seq = o.seq → seg.flags = o.flags → seg.payload = o.payload → w.tcpLookup seg = some i →
      ReaderStep log i j (w, R) (w.handleTcp seg, R)
  | read {w : Net} {R : List Byte} (len : ℕ) (peek : Bool) :
      ReaderStep log i j (w, R) ((w.sockRecvfrom id j len peek).2,
        R ++ Receiving.readBytes peek (w.sockRecvfrom id j len peek).1)
  | tick {w : Net} {R : List Byte} (t : BitVec 32) : ReaderStep log i j (w, R) ({ w with tick := t }, R)

lemma ReaderStep.receiving {pending : Bool} {st st' : Net × List Byte} (hS : S.length < 2 ^ 31)
    (hlog : ∀ o ∈ log, Agrees isn S pending o) (hs : ReaderStep log i j st st')
    (h : Receiving S isn i j st.2 st.1) :
  Receiving S isn i j st'.2 st'.1
  := by
  cases hs with
  | segment ho hseq hflags hpay hl =>
    have hact := active_of_tcpLookup hl
    simp only [handleTcp, hl]
    rcases (hlog _ ho).carries hS hseq hflags hpay with hc | ⟨hnil, hfin⟩
    · exact h.tcpInput hS hact hc
    · exact h.bare hact hnil hfin
  | read len peek => exact h.recvfrom len peek
  | tick t => exact h.congr rfl rfl

/-- Whatever the writer does, and whichever of its segments reach the reader, in whatever order: what the reader
has got is a beginning of what was written, and all of it once the FIN is there.  The SYN of the writer must not be
answered in its wait, which must end with the address of the next hop. -/
theorem read_isPrefix_written {v w₁ r₀ : Net} {buf : ℕ → Byte} {ip : BitVec 32} {port : BitVec 16} {owner : ℕ}
    (hconn : v.tcpConnect rtl8139Poll buf ip port owner = (some i, w₁))
    (hquiet : Unanswered (nextBlock v buf ip port owner) v) (hknown : Resolved i w₁) (es : List Event)
    (hlen : (written rtl8139Poll i w₁ es).length < 2 ^ 31)
    (hsent : (runEvents rtl8139Poll i w₁ es).sent = w₁.sent ++ log)
    (hfresh : Fresh (nextBlock v buf ip port owner).sndUna i' j r₀)
    (hrun : Relation.ReflTransGen (ReaderStep log i' j) (r₀, []) (r, R)) :
  R ++ (r.sockets j).contents <+: written rtl8139Poll i w₁ es
    ∧ ((r.tcpSockets i').peerFin → R ++ (r.sockets j).contents = written rtl8139Poll i w₁ es)
  := by
  obtain ⟨log', hlog', hagree⟩ := (sending_of_connect hconn hquiet hknown es).log
  obtain rfl := append_cancel_left (hlog'.symm.trans hsent)
  have hall : ∀ {st}, Relation.ReflTransGen (ReaderStep log' i' j) (r₀, []) st →
      Receiving (written rtl8139Poll i w₁ es) (nextBlock v buf ip port owner).sndUna i' j st.2 st.1 := by
    intro st hr
    induction hr with
    | refl => exact hfresh.receiving
    | tail _ hs ih => exact hs.receiving hlen hagree ih
  exact ⟨(hall hrun).stream, (hall hrun).fin⟩

/-- A connection that is to get what the first one sends. -/
def otherEnd : Net :=
  oneConnection.modTcp 0 fun s => { s with rcvNxt := firstBlock.sndUna + 1 }

/-- Six bytes are sent in one segment, which arrives and is read. -/
theorem read_isPrefix_written_six :
  ∃ (r : Net) (R : List Byte), R = [1, 2, 3, 4, 5, 6] ∧ R ++ (r.sockets 0).contents
    <+: written rtl8139Poll 0 (connected gatewayReply) sixWritten
  := by
  have hfresh : Fresh (nextBlock (boot (fun _ => true) gatewayReply) (fun _ => 0) 7 80 0).sndUna 0 0 otherEnd := by
    rw [isn_gatewayReply]
    exact ⟨rfl, rfl, rfl, rfl, rfl, rfl, fun _ => rfl, rfl, rfl, rfl⟩
  have hsent : (runEvents rtl8139Poll 0 (connected gatewayReply) sixWritten).sent
      = (connected gatewayReply).sent
        ++ (runEvents rtl8139Poll 0 (connected gatewayReply) sixWritten).sent.drop 1 := by decide +kernel
  have harrive := @ReaderStep.segment
    ((runEvents rtl8139Poll 0 (connected gatewayReply) sixWritten).sent.drop 1) 0 0 otherEnd [] _
    { pieceAt (firstBlock.sndUna + 1) false [1, 2, 3, 4, 5, 6] (by decide) with flags := { psh := true, ack := true } }
    (.tail _ (.head _)) rfl rfl rfl rfl
  have hrun := (Relation.ReflTransGen.single harrive).tail (.read 100 false)
  exact ⟨_, _, rfl, (read_isPrefix_written (tcpConnect_boot gatewayReply (by decide +kernel)) unanswered_gatewayReply
    resolved_gatewayReply sixWritten (by decide +kernel) hsent hfresh hrun).1⟩

end Net
