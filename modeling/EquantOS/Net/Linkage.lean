import EquantOS.Net.Invariant

/-!
# Sockets and their connections

A socket and its connection block point to each other.  The link is cut from three sides:
by the socket that closes, by a segment and by the timer; `tcp_free` tells the owner before
it releases the block.  While a connection is opened or aborted, the link is there on the
side of the block only.  What opens links is in `EquantOS.Net.Calls`.
-/

open Option

namespace Net

variable {pend : Option (ℕ × ℕ)} {w : Net} {i j k : ℕ}

/-- Sockets and connection blocks point to each other; the link `pend` of a block to its owner
may be there on the side of the block only. -/
structure Linkage (pend : Option (ℕ × ℕ)) (w : Net) : Prop where
  fwd : ∀ j i, (w.sockets j).tcb = some i →
    (w.tcpSockets i).active ∧ (w.tcpSockets i).owner = some j
  bwd : ∀ i j, (w.tcpSockets i).active → (w.tcpSockets i).owner = some j →
    ((w.sockets j).tcb = some i ∨ pend = some (i, j)) ∧ w.sockGet j
  gone : ∀ i, (w.tcpSockets i).active = false → (w.tcpSockets i).owner = none
  live : ∀ i, (w.tcpSockets i).active → (w.tcpSockets i).state ≠ .closed
  notified : ∀ i j, (w.tcpSockets i).owner = some j → (w.tcpSockets i).onEvent
  idle : ∀ j, (w.sockets j).state = .idle → (w.sockets j).tcb = none
  dgram : ∀ j, (w.sockets j).type = .dgram → (w.sockets j).tcb = none
  pending : ∀ i j, pend = some (i, j) → (w.sockets j).tcb = none

/-- The link of a block to its owner determines the block. -/
lemma Linkage.unique (h : Linkage pend w) {i' : ℕ} (ha : (w.tcpSockets i).active)
    (ho : (w.tcpSockets i).owner = some j) (ha' : (w.tcpSockets i').active)
    (ho' : (w.tcpSockets i').owner = some j) :
  i' = i
  := by
  rcases (h.bwd i j ha ho).1 with ht | hp
  · rcases (h.bwd i' j ha' ho').1 with ht' | hp'
    · exact some.inj (ht'.symm.trans ht)
    · rw [h.pending i' j hp'] at ht
      cases ht
  · rcases (h.bwd i' j ha' ho').1 with ht' | hp'
    · rw [h.pending i j hp] at ht'
      cases ht'
    · rw [hp] at hp'
      simp only [some.injEq, Prod.mk.injEq] at hp'
      exact hp'.1.symm

variable {w' : Net} {f : TcpSocket → TcpSocket} {g : SocketEntry → SocketEntry}

section

variable (h : Linkage pend w)

include h

/-- The links of a state with the same blocks and sockets. -/
lemma Linkage.same (ht : w'.tcpSockets = w.tcpSockets)
    (hs : w'.sockets = w.sockets) :
  Linkage pend w'
  := by
  constructor <;> simp only [sockGet, ht, hs]
  exacts [h.fwd, h.bwd, h.gone, h.live, h.notified, h.idle, h.dgram, h.pending]

/-! ### Changes that keep the links -/

lemma Linkage.tcp (hf : SameLink (w.tcpSockets k) (f (w.tcpSockets k))) :
  Linkage pend (w.modTcp k f)
  := by
  have hsame : ∀ i, SameLink (w.tcpSockets i) ((w.modTcp k f).tcpSockets i) := by
    intro i
    by_cases hi : i = k
    · subst hi
      rw [tcpSockets_modTcp]
      exact hf
    · rw [tcpSockets_modTcp_of_ne hi]
      exact ⟨rfl, rfl, rfl, rfl, id⟩
  refine ⟨?_, ?_, ?_, ?_, ?_, h.idle, h.dgram, h.pending⟩
  · intro j i hj
    rw [(hsame i).active, (hsame i).owner]
    exact h.fwd j i hj
  · intro i j
    rw [(hsame i).active, (hsame i).owner]
    exact h.bwd i j
  · intro i
    rw [(hsame i).active, (hsame i).owner]
    exact h.gone i
  · intro i ha hc
    rw [(hsame i).active] at ha
    exact h.live i ha ((hsame i).closed hc)
  · intro i j
    rw [(hsame i).owner, (hsame i).onEvent]
    exact h.notified i j

/-- Sockets that keep their connection, stay in use and do not become idle. -/
lemma Linkage.sockets (ht : w'.tcpSockets = w.tcpSockets)
    (hs : ∀ j, (w'.sockets j).tcb = (w.sockets j).tcb ∧ (w'.sockets j).type = (w.sockets j).type
      ∧ ((w'.sockets j).state = .free → (w.sockets j).state = .free)
      ∧ ((w'.sockets j).state = .idle → (w.sockets j).state = .idle)) :
  Linkage pend w'
  := by
  have hget : ∀ j, w.sockGet j → w'.sockGet j := by
    intro j hj
    simp only [sockGet, Bool.and_eq_true, bne_iff_ne] at hj ⊢
    exact ⟨hj.1, fun hfree => hj.2 ((hs j).2.2.1 hfree)⟩
  refine ⟨?_, ?_, ?_, ?_, ?_, ?_, ?_, ?_⟩
  · intro j i
    rw [ht, (hs j).1]
    exact h.fwd j i
  · intro i j
    rw [ht, (hs j).1]
    intro ha ho
    exact ⟨(h.bwd i j ha ho).1, hget j (h.bwd i j ha ho).2⟩
  · rw [ht]
    exact h.gone
  · rw [ht]
    exact h.live
  · rw [ht]
    exact h.notified
  · intro j hj
    rw [(hs j).1]
    exact h.idle j ((hs j).2.2.2 hj)
  · intro j
    rw [(hs j).1, (hs j).2.1]
    exact h.dgram j
  · intro i j hp
    rw [(hs j).1]
    exact h.pending i j hp

lemma Linkage.sock (hg : SameEntry (w.sockets j) (g (w.sockets j))) :
  Linkage pend (w.modSock j g)
  := by
  have hblocks : (w.modSock j g).tcpSockets = w.tcpSockets := rfl
  refine h.sockets hblocks fun l => ?_
  by_cases hl : l = j
  · subst hl
    rw [sockets_modSock, hg.tcb, hg.type, hg.state]
    exact ⟨rfl, rfl, id, id⟩
  · rw [sockets_modSock_of_ne hl]
    exact ⟨rfl, rfl, id, id⟩

/-- An event of a connection that is not closed. -/
lemma Linkage.notify (ha : (w.tcpSockets k).active) :
  Linkage pend (w.tcpNotify k)
  := by
  have hlive := h.live k ha
  apply h.sockets tcpSockets_tcpNotify
  intro l
  rw [tcpNotify]
  split
  · rw [sockTcpOnEvent]
    split
    · exact ⟨rfl, rfl, id, id⟩
    next j _ =>
      by_cases hl : l = j
      · subst hl
        rw [sockets_modSock, onEvent]
        cases hst : (w.tcpSockets k).state <;> cases (w.tcpSockets k).peerFin <;>
          simp [hst] at hlive ⊢
        all_goals
          split <;> simp
      · rw [sockets_modSock_of_ne hl]
        exact ⟨rfl, rfl, id, id⟩
  · exact ⟨rfl, rfl, id, id⟩

end

/-! ### Releasing a connection -/

/-- The owner drops its pointer. -/
lemma sockets_tcpFree_owner (ho : (w.tcpSockets k).owner = some j)
    (hn : (w.tcpSockets k).onEvent) :
  ((w.tcpFree k).sockets j).tcb = none ∧ ((w.tcpFree k).sockets j).state = .closed
    ∧ ((w.tcpFree k).sockets j).type = (w.sockets j).type
  := by
  simp [tcpFree, tcpNotify, sockTcpOnEvent, ho, hn, onEvent]

lemma sockets_tcpFree_of_ne (ho : (w.tcpSockets k).owner ≠ some j) :
  (w.tcpFree k).sockets j = w.sockets j
  := by
  simp only [tcpFree, sockets_modTcp, tcpNotify, sockTcpOnEvent, tcpSockets_modTcp]
  split
  · split
    · rfl
    next l hl =>
      have hne : j ≠ l := by
        rintro rfl
        exact ho hl
      rw [sockets_modSock_of_ne hne]
      rfl
  · rfl

lemma Linkage.free (h : Linkage pend w) (k : ℕ) : Linkage pend (w.tcpFree k)
  := by
  -- the owner has been told
  have howner : ∀ j, (w.tcpSockets k).owner = some j → ((w.tcpFree k).sockets j).tcb = none
      ∧ ((w.tcpFree k).sockets j).state = .closed
      ∧ ((w.tcpFree k).sockets j).type = (w.sockets j).type :=
    fun j ho => sockets_tcpFree_owner ho (h.notified k j ho)
  have htcb : ∀ j i, ((w.tcpFree k).sockets j).tcb = some i →
      (w.sockets j).tcb = some i ∧ (w.tcpSockets k).owner ≠ some j := by
    intro j i hj
    by_cases ho : (w.tcpSockets k).owner = some j
    · rw [(howner j ho).1] at hj
      cases hj
    · rw [sockets_tcpFree_of_ne ho] at hj
      exact ⟨hj, ho⟩
  have hnone : ∀ j, (w.sockets j).tcb = none → ((w.tcpFree k).sockets j).tcb = none := by
    intro j hj
    by_cases ho : (w.tcpSockets k).owner = some j
    · exact (howner j ho).1
    · rw [sockets_tcpFree_of_ne ho]
      exact hj
  refine ⟨?_, ?_, ?_, ?_, ?_, ?_, ?_, fun i j hp => hnone j (h.pending i j hp)⟩
  · intro j i hj
    obtain ⟨hlink, ho⟩ := htcb j i hj
    have hi : i ≠ k := by
      rintro rfl
      exact ho (h.fwd j i hlink).2
    rw [tcpSockets_tcpFree_of_ne hi]
    exact h.fwd j i hlink
  · intro i j
    by_cases hi : i = k
    · subst hi
      simp
    rw [tcpSockets_tcpFree_of_ne hi]
    intro ha ho
    have hk : (w.tcpSockets k).owner ≠ some j := by
      intro hk
      cases hact : (w.tcpSockets k).active with
      | true => exact hi (h.unique hact hk ha ho)
      | false =>
        rw [h.gone k hact] at hk
        cases hk
    rw [sockGet, sockets_tcpFree_of_ne hk]
    exact h.bwd i j ha ho
  · intro i
    by_cases hi : i = k
    · subst hi
      simp
    · rw [tcpSockets_tcpFree_of_ne hi]
      exact h.gone i
  · intro i
    by_cases hi : i = k
    · subst hi
      simp
    · rw [tcpSockets_tcpFree_of_ne hi]
      exact h.live i
  · intro i j
    by_cases hi : i = k
    · subst hi
      simp
    · rw [tcpSockets_tcpFree_of_ne hi]
      exact h.notified i j
  · intro j hj
    by_cases ho : (w.tcpSockets k).owner = some j
    · exact (howner j ho).1
    · rw [sockets_tcpFree_of_ne ho] at hj ⊢
      exact h.idle j hj
  · intro j hj
    by_cases ho : (w.tcpSockets k).owner = some j
    · exact (howner j ho).1
    · rw [sockets_tcpFree_of_ne ho] at hj ⊢
      exact h.dgram j hj

/-- Links survive what a segment does. -/
lemma handles_linkage (pend : Option (ℕ × ℕ)) (k : ℕ) : Handles k (Linkage pend) where
  tcp := fun h hf => h.tcp hf
  sock := fun h hg => h.sock hg
  rest := fun h ht hs _ _ => h.same ht hs
  poll := id
  notify := fun h ha => h.notify ha
  free := fun h => h.free k

lemma quiet_linkage (pend : Option (ℕ × ℕ)) (k : ℕ) : Quiet rtl8139Poll k (Linkage pend) :=
  quiet_poll (handles_linkage pend) (fun _ h => h.same rfl rfl) k

/-- Pointers from sockets to connections are only cut. -/
lemma handles_cut (R : ℕ → ℕ → Prop) (k : ℕ) :
    Handles k fun w => ∀ l m, R l m → (w.sockets l).tcb ≠ some m
  where
  tcp := fun h _ => h
  sock := by
    intro w j g h hg l m hR
    by_cases hl : l = j
    · subst hl
      rw [sockets_modSock, hg.tcb]
      exact h l m hR
    · rw [sockets_modSock_of_ne hl]
      exact h l m hR
  rest := by
    intro w w' h _ hs _ _
    rw [hs]
    exact h
  poll := id
  notify := fun h _ l m hR ht => h l m hR ((sameButStatus_tcpNotify l).2 m ht)
  free := fun h l m hR ht => h l m hR ((sameButStatus_tcpFree l).2 m ht)

lemma quiet_cut (R : ℕ → ℕ → Prop) (k : ℕ) :
    Quiet rtl8139Poll k fun w => ∀ l m, R l m → (w.sockets l).tcb ≠ some m :=
  quiet_poll (handles_cut R) (fun _ h => h) k

/-! ### Timers and closing -/

lemma Linkage.timeout (h : Linkage pend w) (k : ℕ) (now : BitVec 32) :
  Linkage pend (w.tcpTimeout rtl8139Poll k now)
  := (quiet_linkage pend k).timeout (fun err hv => (handles_linkage pend k).fail hv err) h now

lemma Linkage.tick (h : Linkage pend w) (now : BitVec 32) :
  Linkage pend (w.tcpTickWithIface rtl8139Poll now)
  := by
  rw [tcpTickWithIface]
  split
  · exact h
  apply List.foldlRecOn (motive := Linkage pend) (List.range tcpMaxSockets)
  · exact h
  intro v hv k _
  rw [tickSocket]
  split
  · exact hv
  split
  · exact hv.free k
  split
  · exact hv.timeout k now
  · exact hv

/-- A connection without an owner, to which no socket points. -/
lemma Linkage.disown (h : Linkage pend w) (hp : ∀ i' j, pend = some (i', j) → i' = i)
    (hno : ∀ l, (w.sockets l).tcb ≠ some i)
    (ho : (f (w.tcpSockets i)).owner = none)
    (hlive : (f (w.tcpSockets i)).active → (f (w.tcpSockets i)).state ≠ .closed) :
  Linkage none (w.modTcp i f)
  := by
  refine ⟨?_, ?_, ?_, ?_, ?_, h.idle, h.dgram, by simp⟩
  · intro j i' hj
    have hi : i' ≠ i := by
      rintro rfl
      exact hno j hj
    rw [tcpSockets_modTcp_of_ne hi]
    exact h.fwd j i' hj
  · intro i' j
    by_cases hi : i' = i
    · subst hi
      simp [ho]
    rw [tcpSockets_modTcp_of_ne hi]
    intro hact hown
    obtain ⟨hlink, hget⟩ := h.bwd i' j hact hown
    exact ⟨hlink.imp_right fun hpend => absurd (hp i' j hpend) hi, hget⟩
  · intro i'
    by_cases hi : i' = i
    · subst hi
      simp [ho]
    · rw [tcpSockets_modTcp_of_ne hi]
      exact h.gone i'
  · intro i'
    by_cases hi : i' = i
    · subst hi
      rw [tcpSockets_modTcp]
      exact hlive
    · rw [tcpSockets_modTcp_of_ne hi]
      exact h.live i'
  · intro i' j
    by_cases hi : i' = i
    · subst hi
      simp [ho]
    · rw [tcpSockets_modTcp_of_ne hi]
      exact h.notified i' j

/-- The link that was pending is gone with its block. -/
lemma Linkage.settle (h : Linkage (some (i, j)) w) (ha : (w.tcpSockets i).active = false) :
  Linkage none w
  := by
  refine ⟨h.fwd, ?_, h.gone, h.live, h.notified, h.idle, h.dgram, by simp⟩
  intro i' j' hact hown
  obtain ⟨hlink, hget⟩ := h.bwd i' j' hact hown
  refine ⟨hlink.imp_right fun hpend => ?_, hget⟩
  obtain ⟨rfl, rfl⟩ := Prod.mk.inj (some.inj hpend)
  rw [ha] at hact
  cases hact

/-- The socket lets go of its connection. -/
lemma Linkage.cut (h : Linkage none w) (hj : (w.sockets j).tcb = some i) :
  Linkage (some (i, j)) (w.modSock j fun e => { e with tcb := none })
    ∧ ∀ l, ((w.modSock j fun e => { e with tcb := none }).sockets l).tcb ≠ some i
  := by
  have hkeep : ∀ l m, ((w.modSock j fun e => { e with tcb := none }).sockets l).tcb = some m →
      l ≠ j ∧ (w.sockets l).tcb = some m := by
    intro l m hm
    by_cases hl : l = j
    · subst hl
      simp at hm
    · rw [sockets_modSock_of_ne hl] at hm
      exact ⟨hl, hm⟩
  have hstate : ∀ l, ((w.modSock j fun e => { e with tcb := none }).sockets l).state
      = (w.sockets l).state := by
    intro l
    by_cases hl : l = j
    · subst hl
      simp
    · rw [sockets_modSock_of_ne hl]
  have hnone : ∀ l, (w.sockets l).tcb = none →
      ((w.modSock j fun e => { e with tcb := none }).sockets l).tcb = none := by
    intro l hl
    by_cases hlj : l = j
    · subst hlj
      simp
    · rw [sockets_modSock_of_ne hlj]
      exact hl
  refine ⟨⟨?_, ?_, h.gone, h.live, h.notified, ?_, ?_, ?_⟩, ?_⟩
  · intro l m hm
    exact h.fwd l m (hkeep l m hm).2
  · intro i' j' hact hown
    obtain ⟨hlink, hget⟩ := h.bwd i' j' hact hown
    refine ⟨?_, ?_⟩
    · have hlink := hlink.resolve_right (by simp)
      by_cases hj' : j' = j
      · subst hj'
        obtain rfl := some.inj (hlink.symm.trans hj)
        exact Or.inr rfl
      · rw [sockets_modSock_of_ne hj']
        exact Or.inl hlink
    · rw [sockGet, hstate]
      exact hget
  · intro l hl
    rw [hstate] at hl
    exact hnone l (h.idle l hl)
  · intro l hl
    by_cases hlj : l = j
    · subst hlj
      simp
    · rw [sockets_modSock_of_ne hlj] at hl ⊢
      exact h.dgram l hl
  · intro i' j' hp
    obtain ⟨rfl, rfl⟩ := Prod.mk.inj (some.inj hp)
    simp
  · intro l hl
    obtain ⟨hne, hl⟩ := hkeep l i hl
    have := (h.fwd l i hl).2
    rw [(h.fwd j i hj).2] at this
    exact hne (some.inj this).symm

section

variable (h : Linkage (some (i, j)) w) (hno : ∀ l, (w.sockets l).tcb ≠ some i)

include h hno

lemma Linkage.abort :
  Linkage none (w.tcpAbort rtl8139Poll i)
  := by
  have hend : ∀ v : Net, Linkage (some (i, j)) v → (∀ l, (v.sockets l).tcb ≠ some i) →
      Linkage none ((v.modTcp i fun s => { s with owner := none }).tcpFree i) := by
    intro v hv hcut
    refine (hv.disown (fun i' j' hp => ?_) hcut rfl (hv.live i)).free i
    exact (Prod.mk.inj (some.inj hp)).1.symm
  have hq := (quiet_linkage (some (i, j)) i).and (quiet_cut (fun _ m => m = i) i)
  rw [tcpAbort]
  split
  next hact =>
    split
    · obtain ⟨hv, hcut⟩ := hq.xmit (w := w) ⟨h, fun l m hm => hm ▸ hno l⟩
        (w.tcpSockets i).sndNxt { rst := true, ack := true } 0 0
      exact hend _ hv fun l => hcut l i rfl
    · exact hend _ h hno
  next hact => exact h.settle (by simpa using hact)

lemma Linkage.closeTcp :
  Linkage none (w.tcpClose rtl8139Poll i)
  := by
  rw [tcpClose]
  split
  next hact =>
    have hv : Linkage none (w.modTcp i fun s => { s with
        owner := none, onData := false, rxSpace := false, onEvent := false }) := by
      refine h.disown (fun i' j' hp => ?_) hno rfl (h.live i)
      exact (Prod.mk.inj (some.inj hp)).1.symm
    simp only
    split
    · exact hv.free i
    · exact (quiet_linkage none i).shutdown hv
  next hact => exact h.settle (by simpa using hact)

end

lemma quiet_abort {P : Net → Prop} (h : ∀ k, Handles k P) (hq : Quiet rtl8139Poll i P)
    (hown : ∀ {v : Net} {f : TcpSocket → TcpSocket}, P v → P (v.modTcp i f)) (hw : P w) :
  P (w.tcpAbort rtl8139Poll i) ∧ P (w.tcpClose rtl8139Poll i)
  := by
  constructor
  · rw [tcpAbort]
    split
    · apply (h i).free
      apply hown
      split
      · exact hq.xmit hw _ _ _ _
      · exact hw
    · exact hw
  · rw [tcpClose]
    split
    · simp only
      split
      · exact (h i).free (hown hw)
      · exact hq.shutdown (hown hw)
    · exact hw

/-- After `sock_close` has let go of its connection, no connection has the socket as owner. -/
lemma Linkage.closeTcb (h : Linkage none w) (j : ℕ) :
  Linkage none (w.closeTcb rtl8139Poll j) ∧ ((w.closeTcb rtl8139Poll j).sockets j).tcb = none
  := by
  rw [Net.closeTcb]
  cases hj : (w.sockets j).tcb with
  | none => exact ⟨h, hj⟩
  | some i =>
    obtain ⟨hv, hcut⟩ := h.cut hj
    have hclear := quiet_abort (i := i) (handles_cut fun l _ => l = j) (quiet_cut _ i)
      (fun hv => hv) (w := w.modSock j fun e => { e with tcb := none })
      (by rintro l m rfl; simp)
    have hnone : ∀ v : Net, (∀ l m, l = j → (v.sockets l).tcb ≠ some m) →
        (v.sockets j).tcb = none := by
      intro v hv
      rw [eq_none_iff_forall_ne_some]
      exact fun m => hv j m rfl
    simp only
    split
    · exact ⟨hv.abort hcut, hnone _ hclear.1⟩
    · exact ⟨hv.closeTcp hcut, hnone _ hclear.2⟩

/-- A socket without a connection may become anything that has none. -/
lemma Linkage.unlinked (h : Linkage none w) (hj : (w.sockets j).tcb = none) (hg : (g (w.sockets j)).tcb = none) :
  Linkage none (w.modSock j g)
  := by
  have hne : ∀ {l : ℕ} {i : ℕ}, (w.tcpSockets i).active → (w.tcpSockets i).owner = some l → l ≠ j := by
    rintro l i ha ho rfl
    have := (h.bwd i l ha ho).1.resolve_right (by simp)
    rw [hj] at this
    cases this
  refine ⟨?_, ?_, h.gone, h.live, h.notified, ?_, ?_, by simp⟩
  · intro l i hl
    by_cases hlj : l = j
    · subst hlj
      rw [sockets_modSock, hg] at hl
      cases hl
    · rw [sockets_modSock_of_ne hlj] at hl
      exact h.fwd l i hl
  · intro i l ha ho
    rw [sockGet, sockets_modSock_of_ne (hne ha ho)]
    exact h.bwd i l ha ho
  · intro l hl
    by_cases hlj : l = j
    · subst hlj
      rw [sockets_modSock, hg]
    · rw [sockets_modSock_of_ne hlj] at hl ⊢
      exact h.idle l hl
  · intro l hl
    by_cases hlj : l = j
    · subst hlj
      rw [sockets_modSock, hg]
    · rw [sockets_modSock_of_ne hlj] at hl ⊢
      exact h.dgram l hl

end Net
