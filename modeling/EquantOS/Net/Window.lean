import EquantOS.Net.Receive
import EquantOS.Net.SendStream
import Mathlib.Algebra.Order.BigOperators.Group.Finset

/-!
# The advertised window

Every segment with an ACK promises the peer to take what lies before the right edge
`ack + window`.  The window is the free space of the receive ring, so that delivery moves
`rcv_nxt` by as much as it shrinks the window; a read makes it grow, and the window of a
connection without an owner is the largest there is.
-/

open Serial Function

/-- The right edge that a segment advertises. -/
def OutSegment.edge (seg : OutSegment) : BitVec 32 := seg.ack + seg.windowSize.setWidth 32

namespace Net

open SocketEntry Finset BitVec Option

variable {i j m n : ℕ} {w w' : Net} {base : List OutSegment} {seg : OutSegment} {data : List Byte} {seq : BitVec 32}
  {flags : TcpFlags}

/-- The segments that acknowledge something. -/
def acks (log : List OutSegment) : List OutSegment := log.filter fun seg => seg.flags.ack

/-! ### Delivery -/

/-- The receive side of connection `i`, whose owner is socket `j` as long as it has one. -/
structure Backed (i j : ℕ) (w : Net) : Prop where
  owned : ∀ k, (w.tcpSockets i).owner = some k → k = j ∧ (w.tcpSockets i).onData
    ∧ (w.tcpSockets i).rxSpace ∧ (w.sockets j).rxRing.isSome
  used : (w.sockets j).ringUsed.toNat ≤ sockRxRingSize
  slots : ∀ k e, (w.tcpSockets i).reorder k = some e → e.data.length < 2 ^ 16

/-- The number of bytes in the reorder buffer. -/
def stored (s : TcpSocket) : ℕ :=
  ∑ k ∈ range tcpReorderBufSize, ((s.reorder k).map fun e => e.data.length).getD 0

lemma stored_le (h : Backed i j w) : stored (w.tcpSockets i) ≤ 16 * 2 ^ 16
  := by
  have hle : ∀ k ∈ range tcpReorderBufSize,
      (((w.tcpSockets i).reorder k).map fun e => e.data.length).getD 0 ≤ 2 ^ 16 := by
    intro k _
    cases hk : (w.tcpSockets i).reorder k with
    | none => simp
    | some e => exact (h.slots k e hk).le
  exact sum_le_card_nsmul _ _ _ hle

/-- A slot that is released. -/
lemma stored_dropSlot {k : ℕ} {e : ReorderEntry} (hk : k < tcpReorderBufSize)
    (he : (w.tcpSockets i).reorder k = some e) :
  stored ((w.dropSlot i k).tcpSockets i) + e.data.length = stored (w.tcpSockets i)
  := by
  have hmem : k ∈ range tcpReorderBufSize := mem_range.mpr hk
  rw [stored, stored, ← sum_erase_add _ _ hmem, ← sum_erase_add _ _ hmem]
  simp only [dropSlot, tcpSockets_modTcp, update_self, he, map_none,
    getD_none, Nat.add_zero, map_some, getD_some]
  congr 1
  apply sum_congr rfl
  intro l hl
  rw [update_of_ne (ne_of_mem_erase hl)]

lemma stored_dropSlot_le (k : ℕ) :
  stored ((w.dropSlot i k).tcpSockets i) ≤ stored (w.tcpSockets i)
  := by
  apply sum_le_sum
  intro l _
  by_cases hl : l = k
  · subst hl
    simp [dropSlot]
  · simp [dropSlot, update_of_ne hl]

/-- What `tcp_deliver` accepts moves `rcv_nxt` by as much as it takes from the window, and
what the window has room for is accepted. -/
structure Delivered (i j : ℕ) (data : List Byte) (w : Net) (accepted : ℕ) (w' : Net) : Prop where
  backed : Backed i j w'
  le : accepted ≤ data.length
  nxt : (w'.tcpSockets i).rcvNxt = after (w.tcpSockets i).rcvNxt accepted
  reorder : (w'.tcpSockets i).reorder = (w.tcpSockets i).reorder
  space : w.advertised i ≤ w'.advertised i + accepted
  room : min data.length (w.advertised i) ≤ accepted

/-- All bytes are taken, and the window stays as it is. -/
lemma delivered_all (h : Backed i j w) (data : List Byte) :
  Delivered i j data w data.length
    (w.modTcp i fun s => { s with rcvNxt := s.rcvNxt + BitVec.ofNat 32 data.length })
  := by
  have hadv : (w.modTcp i fun s => { s with
      rcvNxt := s.rcvNxt + BitVec.ofNat 32 data.length }).advertised i = w.advertised i := by
    simp [advertised, sockTcpRxSpace]
  refine ⟨⟨?_, h.used, ?_⟩, le_rfl, ?_, ?_, ?_, ?_⟩
  · simpa using h.owned
  · simpa using h.slots
  · simp [after]
  · simp
  · rw [hadv]
    exact Nat.le_add_right _ _
  · exact Nat.min_le_left _ _

/-- The bytes go to the ring of the owner. -/
lemma delivered_push (h : Backed i j w) (howner : (w.tcpSockets i).owner = some j)
    (data : List Byte) :
  Delivered i j data w ((w.sockets j).ringPush data).1
    ((w.modSock j fun _ => ((w.sockets j).ringPush data).2).modTcp i fun s =>
      { s with rcvNxt := s.rcvNxt + BitVec.ofNat 32 ((w.sockets j).ringPush data).1 })
  := by
  obtain ⟨-, hdata, hspace, hring⟩ := h.owned j howner
  obtain ⟨hcont, hused⟩ := contents_ringPush hring h.used data
  have hring' : ((w.sockets j).ringPush data).2.rxRing.isSome := by
    rw [(sameButRing_ringPush (w.sockets j) data).2]
    exact hring
  have hfst := ringPush_fst (e := w.sockets j) data
  have hlen := congrArg List.length hcont
  rw [List.length_append, length_contents, length_contents, List.length_take] at hlen
  have hfree := toNat_ringFree hring h.used
  have hfree' := toNat_ringFree hring' hused
  have hadv : w.advertised i = min (w.sockets j).ringFree.toNat 65535 := by
    simp [advertised, hspace, sockTcpRxSpace, howner]
  refine ⟨⟨?_, ?_, ?_⟩, ?_, ?_, ?_, ?_, ?_⟩
  · intro k hk
    simp only [tcpSockets_modTcp, tcpSockets_modSock] at hk ⊢
    obtain ⟨rfl, -⟩ := h.owned k hk
    refine ⟨rfl, hdata, hspace, ?_⟩
    simpa using hring'
  · simpa using hused
  · simpa using h.slots
  · omega
  · simp [after]
  · simp
  · have hadv' : ((w.modSock j fun _ => ((w.sockets j).ringPush data).2).modTcp i fun s =>
        { s with rcvNxt := s.rcvNxt
          + BitVec.ofNat 32 ((w.sockets j).ringPush data).1 }).advertised i
        = min ((w.sockets j).ringPush data).2.ringFree.toNat 65535 := by
      simp [advertised, hspace, sockTcpRxSpace, howner]
    rw [hadv, hadv', hfree, hfree']
    omega
  · rw [hadv, hfst]
    omega

lemma delivered_tcpDeliver (h : Backed i j w) (data : List Byte) :
  Delivered i j data w (w.tcpDeliver i data).1 (w.tcpDeliver i data).2
  := by
  cases howner : (w.tcpSockets i).owner with
  | none =>
    have heq : w.tcpDeliver i data = (data.length, w.modTcp i fun s => { s with
        rcvNxt := s.rcvNxt + BitVec.ofNat 32 data.length }) := by
      simp [tcpDeliver, howner]
    rw [heq]
    exact delivered_all h data
  | some k =>
    obtain ⟨rfl, hdata, hspace, hring⟩ := h.owned k howner
    cases hshut : (w.sockets k).shutRd with
    | true =>
      -- the reader has gone: the bytes are taken and dropped
      have heq : w.tcpDeliver i data = (data.length, w.modTcp i fun s => { s with
          rcvNxt := s.rcvNxt + BitVec.ofNat 32 data.length }) := by
        simp [tcpDeliver, sockTcpOnData, howner, hshut]
      rw [heq]
      exact delivered_all h data
    | false =>
      rw [tcpDeliver_owned howner hdata hring hshut]
      exact delivered_push h howner data

/-- `rcv_nxt` has moved by `n`, and the window has shrunk by no more than that. -/
structure Grown (i j : ℕ) (w : Net) (n : ℕ) (w' : Net) : Prop where
  backed : Backed i j w'
  nxt : (w'.tcpSockets i).rcvNxt = after (w.tcpSockets i).rcvNxt n
  space : w.advertised i ≤ w'.advertised i + n

lemma Grown.refl (h : Backed i j w) : Grown i j w 0 w := ⟨h, (after_zero _).symm, le_rfl⟩

lemma Grown.trans {m : ℕ} {w'' : Net} (h : Grown i j w n w') (h' : Grown i j w' m w'') :
  Grown i j w (n + m) w''
  := by
  refine ⟨h'.backed, ?_, ?_⟩
  · rw [h'.nxt, h.nxt, after_after]
  · have := h.space
    have := h'.space
    omega

lemma Delivered.grown (h : Delivered i j data w n w') : Grown i j w n w' :=
  ⟨h.backed, h.nxt, h.space⟩

section

variable (h : Backed i j w)

include h

lemma grown_dropSlot (k : ℕ) : Grown i j w 0 (w.dropSlot i k)
  := by
  refine ⟨⟨?_, h.used, ?_⟩, ?_, ?_⟩
  · simpa [dropSlot] using h.owned
  · intro l e hl
    simp only [dropSlot, tcpSockets_modTcp] at hl
    by_cases hlk : l = k
    · simp [hlk] at hl
    · rw [update_of_ne hlk] at hl
      exact h.slots l e hl
  · simp [dropSlot]
  · simp [advertised, sockTcpRxSpace, dropSlot]

/-- The bytes that leave the reorder buffer bound those that are delivered from it. -/
lemma grown_drain :
  ∃ n, Grown i j w n (w.tcpReorderDrain i) ∧ n ≤ stored (w.tcpSockets i)
  := by
  have hall : ∃ n, Grown i j w n (w.tcpReorderDrain i)
      ∧ n + stored ((w.tcpReorderDrain i).tcpSockets i) ≤ stored (w.tcpSockets i) := by
    apply tcpReorderDrain_induction (P := fun v => ∃ n, Grown i j w n v
      ∧ n + stored (v.tcpSockets i) ≤ stored (w.tcpSockets i))
    · rintro v k e ⟨n, hgrown, hle⟩ hk he - -
      have hdel := delivered_tcpDeliver hgrown.backed
        (e.data.drop ((v.tcpSockets i).rcvNxt - e.seq).toNat)
      refine ⟨_, (hgrown.trans hdel.grown).trans (grown_dropSlot hdel.backed k), ?_⟩
      rw [← hdel.reorder] at he
      have hdrop := stored_dropSlot hk he
      have hsame : stored ((v.tcpDeliver i (e.data.drop
          ((v.tcpSockets i).rcvNxt - e.seq).toNat)).2.tcpSockets i) = stored (v.tcpSockets i) := by
        rw [stored, hdel.reorder, stored]
      have hacc := hdel.le
      rw [List.length_drop] at hacc
      omega
    · rintro v k ⟨n, hgrown, hle⟩
      refine ⟨_, hgrown.trans (grown_dropSlot hgrown.backed k), ?_⟩
      have := stored_dropSlot_le (w := v) (i := i) k
      omega
    · exact ⟨0, Grown.refl h, by omega⟩
  obtain ⟨n, hgrown, hle⟩ := hall
  exact ⟨n, hgrown, by omega⟩

lemma grown_deliverInOrder (data : List Byte) :
  ∃ n, Grown i j w n (w.deliverInOrder i data) ∧ n ≤ data.length + stored (w.tcpSockets i)
    ∧ min data.length (w.advertised i) ≤ n
  := by
  have hdel := delivered_tcpDeliver h data
  rw [deliverInOrder]
  have hle := hdel.le
  have hroom := hdel.room
  split
  · obtain ⟨n, hgrown, hn⟩ := grown_drain hdel.backed
    refine ⟨_, hdel.grown.trans hgrown, ?_, by omega⟩
    rw [stored, hdel.reorder, ← stored] at hn
    omega
  · exact ⟨_, hdel.grown, by omega, hroom⟩

lemma grown_reorderInsert
    (hdata : data.length < 2 ^ 16) :
  Grown i j w 0 (w.tcpReorderInsert i seq data)
  := by
  have hsame : ∀ m : ℕ → Bool, Grown i j w 0 { w with mallocs := m } := by
    intro m
    refine ⟨⟨h.owned, h.used, h.slots⟩, (after_zero _).symm, ?_⟩
    exact Nat.le_add_right _ _
  rw [tcpReorderInsert]
  simp only
  split
  · exact Grown.refl h
  split
  · exact Grown.refl h
  split
  · exact Grown.refl h
  next k _ =>
    split
    · refine ⟨⟨?_, h.used, ?_⟩, ?_, ?_⟩
      · simpa [kmalloc] using h.owned
      · intro l e hl
        simp only [tcpSockets_modTcp] at hl
        by_cases hlk : l = k
        · subst hlk
          rw [update_self] at hl
          obtain rfl := some.inj hl
          exact hdata
        · rw [update_of_ne hlk] at hl
          exact h.slots l e hl
      · simp [kmalloc]
      · simp [advertised, sockTcpRxSpace, kmalloc]
    · exact hsame _

/-- The payload of a segment: `rcv_nxt` moves by less than `2 ^ 21`, and by all of the payload
that is in order and has room in the window. -/
lemma grown_inputData (seg : Segment) :
  ∃ n, Grown i j w n (w.inputData i seg) ∧ n < 2 ^ 21 ∧ (seg.payload = [] → n = 0)
    ∧ (canReceive (w.tcpSockets i).state → Le seg.seq (w.tcpSockets i).rcvNxt →
      min (seg.payload.length - ((w.tcpSockets i).rcvNxt - seg.seq).toNat) (w.advertised i) ≤ n)
  := by
  have hstored := stored_le h
  have hshort := seg.short
  rw [inputData]
  split
  next hrecv =>
    split
    next heq =>
      obtain ⟨n, hgrown, hle, hroom⟩ := grown_deliverInOrder h seg.payload
      refine ⟨n, hgrown, by omega, fun hnil => absurd hnil hrecv.1, fun _ _ => ?_⟩
      rw [heq, sub_self]
      exact hroom
    next hne =>
      split
      next hlt =>
        split
        next hover =>
          obtain ⟨n, hgrown, hle, hroom⟩ := grown_deliverInOrder h
            (seg.payload.drop ((w.tcpSockets i).rcvNxt - seg.seq).toNat)
          rw [List.length_drop] at hle hroom
          exact ⟨n, hgrown, by omega, fun hnil => absurd hnil hrecv.1, fun _ _ => hroom⟩
        next hover =>
          refine ⟨0, Grown.refl h, by omega, fun _ => rfl, fun _ hle => ?_⟩
          have hold : seg.payload.length ≤ ((w.tcpSockets i).rcvNxt - seg.seq).toNat := by
            have hback := toNat_sub_le hle
            rw [← after, ← after_sub_toNat seg.seq (w.tcpSockets i).rcvNxt,
              gt_after_iff (by omega) (by omega)] at hover
            exact Nat.le_of_not_lt hover
          omega
      next hlt =>
        refine ⟨0, grown_reorderInsert h hshort, by omega, fun _ => rfl, fun _ hle => ?_⟩
        exact absurd (lt_of_le_of_ne hle hne) hlt
  next hrecv =>
    refine ⟨0, Grown.refl h, by omega, fun _ => rfl, fun hst _ => ?_⟩
    have hnil : seg.payload = [] := by
      by_contra hne
      exact hrecv ⟨hne, hst⟩
    simp [hnil]

end

/-! ### Transmission -/

lemma edge_eq (seg : OutSegment) : seg.edge = after seg.ack seg.windowSize.toNat
  := by
  simp only [OutSegment.edge, after]
  bv_omega

lemma advertised_le : w.advertised i ≤ 65535 := Nat.min_le_right _ _

/-- A segment that advertises the window as it is. -/
def Announces (w : Net) (i : ℕ) (seg : OutSegment) : Prop :=
  seg.flags.ack → (w.tcpSockets i).state ≠ .synSent ∧ seg.ack = (w.tcpSockets i).rcvNxt
    ∧ seg.windowSize.toNat = w.advertised i

lemma announces_segments {seq : BitVec 32} {flags : TcpFlags} {off len : ℕ} {seg : OutSegment}
    (hst : flags.ack → (w.tcpSockets i).state ≠ .synSent)
    (h : seg ∈ w.segments i seq flags off len) :
  Announces w i seg
  := by
  obtain ⟨-, hflags, -, hack, hwnd⟩ := mem_segments h
  intro hf
  rw [hflags] at hf
  rw [if_pos hf] at hack
  refine ⟨hst hf, hack, ?_⟩
  rw [hwnd, toNat_ofNat]
  have := advertised_le (w := w) (i := i)
  omega

/-- The promise of a segment is kept so far: `rcv_nxt` has moved by `n` since, and there is
room for the rest. -/
def Kept (n : ℕ) (w : Net) (i : ℕ) (seg : OutSegment) : Prop :=
  (w.tcpSockets i).rcvNxt = after seg.ack n ∧ seg.windowSize.toNat ≤ w.advertised i + n

/-- What the window depends on in a connection. -/
def windowSide (s : TcpSocket) := (s.rcvNxt, s.reorder, s.owner, s.onData, s.rxSpace)

/-- What the window depends on in a socket. -/
def spaceSide (e : SocketEntry) := (e.rxRing, e.rxHead, e.rxTail)

lemma Backed.congr (h : Backed i j w)
    (hs : windowSide (w'.tcpSockets i) = windowSide (w.tcpSockets i))
    (he : spaceSide (w'.sockets j) = spaceSide (w.sockets j)) :
  Backed i j w' ∧ w'.advertised i = w.advertised i
  := by
  simp only [windowSide, spaceSide, Prod.mk.injEq] at hs he
  obtain ⟨-, hreorder, howner, hdata, hspace⟩ := hs
  obtain ⟨hring, hhead, htail⟩ := he
  have hused : (w'.sockets j).ringUsed = (w.sockets j).ringUsed := by
    rw [ringUsed, hhead, htail]
    rfl
  refine ⟨⟨?_, ?_, ?_⟩, ?_⟩
  · rw [howner, hdata, hspace, hring]
    exact h.owned
  · rw [hused]
    exact h.used
  · rw [hreorder]
    exact h.slots
  · rw [advertised, advertised, hspace, sockTcpRxSpace, sockTcpRxSpace, howner]
    cases hk : (w.tcpSockets i).owner with
    | none => rfl
    | some k =>
      obtain ⟨rfl, -⟩ := h.owned k hk
      simp only [ringFree, hring, hused]

/-- The promises of connection `i` with owner `j`: no acknowledgement has moved the right edge
to the left, and the last one is kept. -/
structure Promised (base : List OutSegment) (i j n : ℕ) (w : Net) : Prop where
  backed : Backed i j w
  link : ∀ k, (w.sockets j).tcb = some k → k = i
  log : ∃ log, w.sent = base ++ log ∧ (acks log).IsChain (fun a b => Le a.edge b.edge)
    ∧ (w.iface = none → log = [])
    ∧ ((w.tcpSockets i).active → ∀ last ∈ (acks log).getLast?,
      (w.tcpSockets i).state ≠ .synSent ∧ Kept n w i last)

lemma le_edge_of_kept {last : OutSegment} (hlast : Kept n w i last) (hn : n < 2 ^ 30)
    (hack : seg.ack = (w.tcpSockets i).rcvNxt) (hwnd : seg.windowSize.toNat = w.advertised i) :
  Le last.edge seg.edge
  := by
  obtain ⟨hnxt, hroom⟩ := hlast
  rw [edge_eq, edge_eq, hack, hnxt, after_after, le_after_iff (by omega) (by omega)]
  omega

lemma mem_acks {log : List OutSegment} (h : seg ∈ acks log) :
  seg ∈ log ∧ seg.flags.ack
  := by
  simpa [acks] using h

namespace Promised

section

variable (h : Promised base i j n w)

include h

/-- Transmissions that advertise the window as it is; if `rcv_nxt` has moved, there is an
acknowledgement among them. -/
lemma sends (hn : n < 2 ^ 30)
    {nxt : BitVec 32} {fin : Bool} {timer : TcpTimer} {adv : ℕ} {log' : List OutSegment}
    (hnew : ∀ seg ∈ log', Announces w i seg) (hiface : w.iface = none → log' = [])
    (hsome : acks log' = [] → n = 0 ∨ w.iface = none) (hact : (w.tcpSockets i).active) :
  Promised base i j 0 (w.sends i nxt fin timer adv log')
  := by
  obtain ⟨log, hlog, hchain, hnone, hlast⟩ := h.log
  have hadv := @advertised_sends w i nxt fin timer adv log'
  refine ⟨⟨?_, h.backed.used, ?_⟩, h.link, log ++ log', ?_, ?_, ?_, ?_⟩
  · simpa using h.backed.owned
  · simpa using h.backed.slots
  · rw [sent_sends, hlog, List.append_assoc]
  · rw [acks, List.filter_append, List.isChain_append]
    refine ⟨hchain, ?_, ?_⟩
    · apply List.Pairwise.isChain
      apply List.pairwise_of_forall_mem_list
      intro a ha b hb
      obtain ⟨ha, hfa⟩ := mem_acks ha
      obtain ⟨hb, hfb⟩ := mem_acks hb
      obtain ⟨-, hacka, hwnda⟩ := hnew a ha hfa
      obtain ⟨-, hackb, hwndb⟩ := hnew b hb hfb
      rw [edge_eq, edge_eq, hacka, hwnda, hackb, hwndb, le_after_iff (by omega) (by omega)]
    · intro last hl seg hs
      obtain ⟨hs, hf⟩ := mem_acks (List.mem_of_mem_head? hs)
      obtain ⟨-, hack, hwnd⟩ := hnew seg hs hf
      exact le_edge_of_kept (hlast hact last hl).2 hn hack hwnd
  · intro hi
    rw [hnone hi, hiface hi]
    rfl
  · intro _ last hl
    rw [acks, List.filter_append] at hl
    simp only [Kept, tcpSockets_sends, hadv]
    by_cases hemp : acks log' = []
    · rw [← acks, ← acks, hemp, List.append_nil] at hl
      obtain ⟨hst, hkept⟩ := hlast hact last hl
      rcases hsome hemp with rfl | hi
      · exact ⟨hst, hkept⟩
      · rw [hnone hi] at hl
        cases hl
    · rw [← acks, ← acks, List.getLast?_append_of_ne_nil _ hemp] at hl
      obtain ⟨hl, hf⟩ := mem_acks (List.mem_of_getLast? hl)
      obtain ⟨hst, hack, hwnd⟩ := hnew last hl hf
      refine ⟨hst, ?_, ?_⟩
      · rw [hack, after_zero]
      · omega

/-- Nothing that the window depends on has changed. -/
lemma congr (hs : windowSide (w'.tcpSockets i) = windowSide (w.tcpSockets i))
    (he : spaceSide (w'.sockets j) = spaceSide (w.sockets j))
    (hlink : ∀ k, (w'.sockets j).tcb = some k → (w.sockets j).tcb = some k)
    (hact : (w'.tcpSockets i).active → (w.tcpSockets i).active)
    (hst : (w'.tcpSockets i).state = .synSent → (w.tcpSockets i).state = .synSent)
    (hlog : w'.sent = w.sent) (hiface : w'.iface = w.iface) :
  Promised base i j n w'
  := by
  obtain ⟨hbacked, hadv⟩ := h.backed.congr hs he
  refine ⟨hbacked, fun k hk => h.link k (hlink k hk), ?_⟩
  obtain ⟨log, hsent, hchain, hnone, hlast⟩ := h.log
  refine ⟨log, hlog.trans hsent, hchain, ?_, ?_⟩
  · rw [hiface]
    exact hnone
  intro ha last hl
  obtain ⟨hne, hkept⟩ := hlast (hact ha) last hl
  refine ⟨fun hsyn => hne (hst hsyn), ?_⟩
  have hnxt : (w'.tcpSockets i).rcvNxt = (w.tcpSockets i).rcvNxt := congrArg Prod.fst hs
  rw [Kept, hnxt, hadv]
  exact hkept

/-- The connection has been released. -/
lemma closed (hact : (w'.tcpSockets i).active = false)
    (howner : (w'.tcpSockets i).owner = none) (hreorder : (w'.tcpSockets i).reorder = fun _ => none)
    (he : spaceSide (w'.sockets j) = spaceSide (w.sockets j))
    (hlink : ∀ k, (w'.sockets j).tcb = some k → (w.sockets j).tcb = some k)
    (hlog : w'.sent = w.sent) (hiface : w'.iface = w.iface) :
  Promised base i j m w'
  := by
  have hused : (w'.sockets j).ringUsed = (w.sockets j).ringUsed := by
    simp only [spaceSide, Prod.mk.injEq] at he
    rw [ringUsed, he.2.1, he.2.2]
    rfl
  refine ⟨⟨?_, ?_, ?_⟩, fun k hk => h.link k (hlink k hk), ?_⟩
  · simp [howner]
  · rw [hused]
    exact h.backed.used
  · simp [hreorder]
  · obtain ⟨log, hsent, hchain, hnone, -⟩ := h.log
    refine ⟨log, hlog.trans hsent, hchain, ?_, by simp [hact]⟩
    rw [hiface]
    exact hnone

/-- An event changes the status of the socket only. -/
lemma notify : Promised base i j n (w.tcpNotify i)
  := by
  obtain ⟨sockets, heq, hs⟩ := tcpNotify_eq (w := w) (i := i)
  rw [heq]
  refine h.congr rfl ?_ (hs j).2 id id rfl rfl
  change spaceSide (sockets j) = _
  rw [(hs j).1]
  rfl

lemma free : Promised base i j m (w.tcpFree i)
  := by
  have he := sameButStatus_tcpFree (w := w) (i := i) j
  refine h.closed (by simp) (by simp) (by simp) ?_ he.2 (by simp) (by simp)
  rw [he.1]
  rfl

lemma fail (err : TcpError) :
  Promised base i j m (w.tcpFail i err)
  := by
  have hset : Promised base i j n (w.modTcp i fun s => { s with error := err }) := by
    apply h.congr <;> simp [windowSide, modTcp]
  exact hset.free

end

lemma xmit (h : Promised base i j 0 w) (hact : (w.tcpSockets i).active) (seq : BitVec 32)
    (hst : flags.ack → (w.tcpSockets i).state ≠ .synSent) (off len : ℕ) :
  Promised base i j 0 (w.tcpXmit id i seq flags off len)
  := by
  rw [tcpXmit_id]
  apply h.sends (by omega) (fun seg => announces_segments hst) _ (fun _ => Or.inl rfl) hact
  intro hi
  simp [segments, hi]

/-- The acknowledgement that is sent after `rcv_nxt` has moved. -/
lemma sendAck (h : Promised base i j n w) (hn : n < 2 ^ 30) (hact : (w.tcpSockets i).active)
    (hst : (w.tcpSockets i).state ≠ .synSent) :
  Promised base i j 0 (w.tcpSendAck id i)
  := by
  rw [tcpSendAck_id]
  apply h.sends hn (fun seg => announces_segments fun _ => hst) _ _ hact
  · intro hi
    simp [segments, hi]
  · intro hnil
    right
    cases hi : w.iface with
    | none => rfl
    | some iface => simp [segments, hi, acks, buildSegment] at hnil

section

variable (h : Promised base i j 0 w)

include h

lemma output (hact : (w.tcpSockets i).active) :
  Promised base i j 0 (w.tcpOutput id i)
  := by
  by_cases hc : canSend (w.tcpSockets i).state
  · have hst : (w.tcpSockets i).state ≠ .synSent := by
      intro hsyn
      simp [hsyn, canSend] at hc
    obtain ⟨nxt, fin, timer, adv, log, heq, hlog, -⟩ := tcpOutput_id (w := w) (i := i)
    rw [heq]
    refine h.sends (by omega) ?_ ?_ (fun _ => Or.inl rfl) hact
    · intro seg hseg
      rcases hlog seg hseg with ⟨off, len, psh, -, hmem⟩ | ⟨-, hmem⟩
      · exact announces_segments (fun _ => hst) hmem
      · exact announces_segments (fun _ => hst) hmem
    · intro hi
      rw [List.eq_nil_iff_forall_not_mem]
      intro seg hseg
      rcases hlog seg hseg with ⟨off, len, psh, -, hmem⟩ | ⟨-, hmem⟩
      · simp [segments, hi] at hmem
      · simp [segments, hi] at hmem
  · rw [tcpOutput, if_neg hc]
    exact h

/-! ### The application and the timer -/

lemma write (data : List Byte) :
  Promised base i j 0 (w.tcpWrite id i data).2
  := by
  rw [tcpWrite]
  split
  · exact h
  split
  · exact h
  next hopen =>
    apply output
    · apply h.congr <;> simp [windowSide, modTcp]
    · simpa using (open_of_guard hopen).1

lemma shutdown : Promised base i j 0 (w.tcpShutdown id i)
  := by
  have hfin : ∀ st : TcpState, st ≠ .synSent → (w.tcpSockets i).active →
      Promised base i j 0 ((w.modTcp i fun s => { s with
        state := st, finPending := true }).tcpOutput id i) := by
    intro st hst hact
    apply output
    · apply h.congr <;> simp [windowSide, modTcp, hst]
    · simpa using hact
  rw [tcpShutdown]
  split
  · exact h
  next hopen =>
    obtain ⟨hact, -⟩ := open_of_guard hopen
    split
    · exact hfin _ (by decide) hact
    · exact hfin _ (by decide) hact
    · exact h

/-- Without an owner the window is the largest there is. -/
lemma disown :
  Promised base i j 0 (w.modTcp i fun s => { s with
    owner := none, onData := false, rxSpace := false, onEvent := false })
  := by
  refine ⟨⟨by simp, h.backed.used, by simpa using h.backed.slots⟩, h.link, ?_⟩
  obtain ⟨log, hlog, hchain, hnone, hlast⟩ := h.log
  refine ⟨log, hlog, hchain, hnone, ?_⟩
  intro hact last hl
  rw [tcpSockets_modTcp] at hact ⊢
  obtain ⟨hst, hnxt, hroom⟩ := hlast hact last hl
  refine ⟨hst, ?_, ?_⟩
  · rw [tcpSockets_modTcp]
    exact hnxt
  · simp only [advertised, tcpSockets_modTcp]
    simp only [Bool.false_eq_true, if_false]
    omega

lemma close : Promised base i j 0 (w.tcpClose id i)
  := by
  rw [tcpClose]
  split
  · simp only
    split
    · exact h.disown.free
    · exact h.disown.shutdown
  · exact h

lemma abort : Promised base i j 0 (w.tcpAbort id i)
  := by
  have hfree : ∀ v : Net, Promised base i j 0 v →
      Promised base i j 0 ((v.modTcp i fun s => { s with owner := none }).tcpFree i) := by
    intro v hv
    have he := sameButStatus_tcpFree (i := i) (w := v.modTcp i fun s => { s with owner := none }) j
    refine hv.closed (by simp) (by simp) (by simp) ?_ he.2 (by simp) (by simp [modTcp])
    rw [he.1]
    rfl
  rw [tcpAbort]
  split
  next hact =>
    split
    next hst => exact hfree _ (h.xmit hact _ (fun _ => hst.1) _ _)
    · exact hfree _ h
  · exact h

end

lemma retry (h : Promised base i j n w) (now : BitVec 32) :
  Promised base i j n (w.timeoutRetry i now)
  := by
  apply h.congr <;> simp [windowSide, timeoutRetry, modTcp]

lemma timeout (h : Promised base i j 0 w) (hact : (w.tcpSockets i).active) (now : BitVec 32) :
  Promised base i j 0 (w.tcpTimeout id i now)
  := by
  rw [tcpTimeout]
  split
  · split
    · exact h.fail _
    · exact (h.xmit hact _ (by simp) _ _).retry now
  next hsyn =>
    split
    · refine (h.xmit hact _ (fun _ => hsyn) 0 1).congr ?_ rfl (fun _ => id) ?_ ?_ rfl rfl <;>
        simp [windowSide, timeoutPersist]
    split
    · exact (h.xmit hact _ (fun _ => hsyn) _ _).fail _
    · apply retry
      apply output
      · apply h.congr <;> simp [windowSide, modTcp]
      · simpa using hact

lemma windowUpdate (h : Promised base i j 0 w) : Promised base i j 0 (w.tcpWindowUpdate id i)
  := by
  rw [tcpWindowUpdate]
  simp only
  split
  next hopen =>
    rw [Bool.and_eq_true] at hopen
    have hst : (w.tcpSockets i).state ≠ .synSent := by
      intro hsyn
      rw [hsyn] at hopen
      exact absurd hopen.2 (by decide)
    have hack := h.sendAck (by omega) hopen.1 hst
    split_ifs
    · exact hack
    · exact h
    · exact hack
    · exact h
  · exact h

end Promised

end Net
