import EquantOS.Mem.FreeList

/-!
# The buddy invariant

The free blocks on the lists, the blocks handed out, and the blocks an operation holds
in its hand tile the pages that the allocator was given.  The descriptor of a page is
meaningful only while the page is the head of a block: heads of free blocks are marked
free and carry their order, heads of live blocks are not marked free, and neither are
pages outside the tiling.  Descriptors inside a block are stale.  A buddy of the right
order that is marked free is nevertheless the head of a free block, because no larger
block of the tiling can contain it.
-/

open LinkedList Block Function List

namespace Pmm

/-- The invariant: `H` are the pages given to the allocator, `hand` the blocks that the
running operation holds, `live` the blocks handed out and `L k` the free list of
order `k`. -/
structure Inv (H : Set ℕ) (hand live : List Block) (L : ℕ → List ℕ) (s : Pmm) : Prop where
  linked : ∀ k < pmmMaxOrder, Linked s.next s.prev (s.freeAreas k).freelist (L k)
  count : ∀ k < pmmMaxOrder, (s.freeAreas k).freeCount = (L k).length
  tiles : Tiles H (hand ++ (live ++ freeBlocks L))
  liveOrder : ∀ b ∈ live, b.order < pmmMaxOrder
  liveHead : ∀ b ∈ live, (s.flags b.start).1 = false
  freeHead : ∀ k < pmmMaxOrder, ∀ p ∈ L k, s.flags p = (true, k)
  outside : ∀ p, p ∉ H → (s.flags p).1 = false
  inside : ∀ p ∈ H, 0 < p ∧ p < s.totalPhysPages
  bounded : s.totalPhysPages ≤ 2 ^ 64
  pages : s.freePhysPages = blockPages hand + blockPages (freeBlocks L)

variable {H : Set ℕ} {hand live : List Block} {L : ℕ → List ℕ} {s : Pmm} {p k : ℕ}

namespace Inv

lemma mem_tiles_of_free (hk : k < pmmMaxOrder) (hp : p ∈ L k) :
  (⟨p, k⟩ : Block) ∈ hand ++ (live ++ freeBlocks L)
  := by
  simp [mem_freeBlocks, hk, hp]

section

variable (h : Inv H hand live L s)

include h

variable {b : Block}

/-- The start of a block of the tiling is a page given to the allocator. -/
lemma start_mem_pages (hb : b ∈ hand ++ (live ++ freeBlocks L)) :
  b.start ∈ H
  := (h.tiles.cover _).mpr ⟨b, hb, b.start_mem⟩

/-- Two blocks of the tiling with one start are equal. -/
lemma eq_of_start
    {c : Block} (hb : b ∈ hand ++ (live ++ freeBlocks L))
    (hc : c ∈ hand ++ (live ++ freeBlocks L)) (hs : b.start = c.start) :
  b = c
  := h.tiles.unique hb hc b.start_mem (hs ▸ c.start_mem)

/-- The blocks of the invariant are pairwise distinct. -/
lemma nodup :
  (hand ++ (live ++ freeBlocks L)).Nodup
  := by
  apply h.tiles.disjoint.imp
  rintro b c hd rfl
  exact hd.notMem b.start_mem b.start_mem

lemma freeBlocks_nodup :
  (freeBlocks L).Nodup
  := (nodup_append.mp (nodup_append.mp h.nodup).2.1).2.1

lemma list_nodup (hk : k < pmmMaxOrder) :
  (L k).Nodup
  := by
  have hn := (nodup_flatMap.mp h.freeBlocks_nodup).1 k (mem_range.mpr hk)
  apply List.Nodup.of_map _ hn

/-- Different free lists have no page in common. -/
lemma lists_disjoint
    {j : ℕ} (hk : k < pmmMaxOrder) (hj : j < pmmMaxOrder)
    (hne : j ≠ k) :
  (L k).Disjoint (L j)
  := by
  intro q hq hq'
  have := h.eq_of_start (mem_tiles_of_free hk hq) (mem_tiles_of_free hj hq') rfl
  exact hne (Block.mk.inj this).2.symm

/-- The head of a block in hand or handed out is on no free list. -/
lemma notMem_list (hb : b ∈ hand ++ live) (hk : k < pmmMaxOrder) :
  b.start ∉ L k
  := by
  intro hp
  have hd := (nodup_append.mp (append_assoc hand live _ ▸ h.nodup)).2.2
  have hbt : b ∈ hand ++ (live ++ freeBlocks L) := by
    rw [← append_assoc]
    exact mem_append_left _ hb
  have heq := h.eq_of_start hbt (mem_tiles_of_free hk hp) rfl
  apply hd b hb ⟨b.start, k⟩ (mem_freeBlocks.mpr ⟨hk, hp⟩) heq

/-- The descriptor of a block in hand may be changed, its links excepted. -/
lemma modPage_hand (hb : b ∈ hand) {f : PmmPage → PmmPage}
    (hn : ∀ g, (f g).next = g.next) (hp : ∀ g, (f g).prev = g.prev) :
  Inv H hand live L (s.modPage b.start f)
  := by
  have hother : ∀ c ∈ live ++ freeBlocks L, c.start ≠ b.start := by
    intro c hc hs
    have heq := h.eq_of_start (mem_append_right _ hc) (mem_append_left _ hb) hs
    exact (nodup_append.mp h.nodup).2.2 b hb c hc heq.symm
  constructor
  · rw [next_modPage_keep _ _ hn, prev_modPage_keep _ _ hp]
    exact h.linked
  · exact h.count
  · exact h.tiles
  · exact h.liveOrder
  · intro c hc
    rw [flags_modPage, update_of_ne (hother c (by simp [hc]))]
    apply h.liveHead c hc
  · intro j hj q hq
    have := hother ⟨q, j⟩ (by simp [mem_freeBlocks, hj, hq])
    rw [flags_modPage, update_of_ne this]
    apply h.freeHead j hj q hq
  · intro q hq
    have : q ≠ b.start := by
      rintro rfl
      exact hq (h.start_mem_pages (mem_append_left _ hb))
    rw [flags_modPage, update_of_ne this]
    apply h.outside q hq
  · exact h.inside
  · exact h.bounded
  · exact h.pages

end

/-- A block in hand is put on its free list. -/
lemma addFree
    (h : Inv H (⟨p, k⟩ :: hand) live L s) (hk : k < pmmMaxOrder) :
  Inv H hand live (update L k (p :: L k)) (s.addFree k p)
  := by
  have hm := h.modPage_hand (b := ⟨p, k⟩) (f := fun g => { g with order := k, isFree := true })
    (by simp) (fun _ => rfl) (fun _ => rfl)
  have hflag : (s.addFree k p).flags = update s.flags p (true, k) := by
    rw [Pmm.addFree, flags_modArea, flags_listAdd, flags_modPage]
  have hareas : (s.addFree k p).freeAreas = update s.freeAreas k
      ⟨some p, (s.freeAreas k).freeCount + 1⟩ := by
    rw [Pmm.addFree, freeAreas_modArea, freeAreas_listAdd, freeAreas_modPage,
      update_idem, update_self]
  have hfresh : ∀ j < pmmMaxOrder, p ∉ L j := by
    intro j hj
    apply h.notMem_list (b := ⟨p, k⟩) (by simp) hj
  have hperm : (⟨p, k⟩ :: hand ++ (live ++ freeBlocks L)).Perm
      (hand ++ (live ++ freeBlocks (update L k (p :: L k)))) := by
    refine List.Perm.trans ?_ ((freeBlocks_cons hk).symm.append_left live |>.append_left hand)
    rw [← append_assoc, ← append_assoc]
    exact perm_middle.symm
  constructor
  · intro j hj
    rw [hareas, Pmm.addFree, next_modArea, prev_modArea, next_listAdd, prev_listAdd]
    by_cases hjk : j = k
    · subst hjk
      rw [update_self, update_self]
      apply (hm.linked j hj).insert_head (hfresh j hj) (h.list_nodup hj)
    rw [update_of_ne hjk, update_of_ne hjk]
    apply (hm.linked k hk).insert_other (hm.linked j hj) (hfresh j hj)
    apply h.lists_disjoint hk hj hjk
  · intro j hj
    rw [hareas]
    by_cases hjk : j = k
    · subst hjk
      simp [h.count j hj]
    · rw [update_of_ne hjk, update_of_ne hjk]
      apply h.count j hj
  · apply h.tiles.perm hperm
  · exact h.liveOrder
  · intro b hb
    have : b.start ≠ p := by
      intro hs
      have heq := h.eq_of_start (b := b) (c := ⟨p, k⟩) (by simp [hb]) (by simp) hs
      have hd := (nodup_cons.mp h.nodup).1
      exact hd (heq ▸ by simp [hb])
    rw [hflag, update_of_ne this]
    apply h.liveHead b hb
  · intro j hj q hq
    rw [hflag]
    by_cases hqp : q = p
    · subst hqp
      rw [update_self]
      by_cases hjk : j = k
      · rw [hjk]
      · rw [update_of_ne hjk] at hq
        exact absurd hq (hfresh j hj)
    · rw [update_of_ne hqp]
      apply h.freeHead j hj
      by_cases hjk : j = k
      · subst hjk
        simpa [hqp] using hq
      · rwa [update_of_ne hjk] at hq
  · intro q hq
    have : q ≠ p := by
      rintro rfl
      exact hq (h.start_mem_pages (b := ⟨q, k⟩) (by simp))
    rw [hflag, update_of_ne this]
    apply h.outside q hq
  · rw [Pmm.addFree]
    intro q hq
    have := h.inside q hq
    simpa [modArea, (totals_listAdd _ k p).1, modPage] using this
  · simpa [Pmm.addFree, modArea, (totals_listAdd _ k p).1, modPage] using h.bounded
  · have hp := h.pages
    rw [blockPages_perm (freeBlocks_cons hk)]
    simp only [Pmm.addFree, modArea, (totals_listAdd _ k p).2, modPage]
    simp only [blockPages_cons] at hp ⊢
    omega

/-- A block is taken off its free list. -/
lemma takeFree
    (h : Inv H hand live L s) (hk : k < pmmMaxOrder) (hp : p ∈ L k) :
  Inv H (⟨p, k⟩ :: hand) live (update L k ((L k).erase p)) (s.takeFree k p)
  := by
  have hflag : (s.takeFree k p).flags = s.flags := by
    rw [Pmm.takeFree, flags_modArea, flags_listRemove]
  have hprev : s.prev p ≠ some p := (h.linked k hk).prev_ne_self hp (h.list_nodup hk)
  have hareas : (s.takeFree k p).freeAreas = update s.freeAreas k
      ⟨if s.prev p = none then s.next p else (s.freeAreas k).freelist,
        (s.freeAreas k).freeCount - 1⟩ := by
    rw [Pmm.takeFree, freeAreas_modArea, freeAreas_listRemove, update_idem, update_self]
  have hsub : ∀ j q, q ∈ update L k ((L k).erase p) j → q ∈ L j := by
    intro j q hq
    by_cases hjk : j = k
    · subst hjk
      rw [update_self] at hq
      exact mem_of_mem_erase hq
    · rwa [update_of_ne hjk] at hq
  have hperm : (hand ++ (live ++ freeBlocks L)).Perm
      (⟨p, k⟩ :: hand ++ (live ++ freeBlocks (update L k ((L k).erase p)))) := by
    refine ((freeBlocks_erase hk hp).append_left live |>.append_left hand).trans ?_
    rw [← append_assoc, ← append_assoc]
    exact perm_middle
  constructor
  · intro j hj
    rw [hareas, Pmm.takeFree, next_modArea, prev_modArea, next_listRemove, prev_listRemove _ _ _ hprev]
    by_cases hjk : j = k
    · subst hjk
      rw [update_self, update_self]
      apply (h.linked j hj).remove hp (h.list_nodup hj)
    rw [update_of_ne hjk, update_of_ne hjk]
    apply (h.linked k hk).remove_other (h.linked j hj) hp
    apply h.lists_disjoint hk hj hjk
  · intro j hj
    rw [hareas]
    by_cases hjk : j = k
    · subst hjk
      simp [h.count j hj, length_erase_of_mem hp]
    · rw [update_of_ne hjk, update_of_ne hjk]
      apply h.count j hj
  · apply h.tiles.perm hperm
  · exact h.liveOrder
  · rw [hflag]
    exact h.liveHead
  · intro j hj q hq
    rw [hflag]
    apply h.freeHead j hj q (hsub j q hq)
  · rw [hflag]
    exact h.outside
  · simpa [Pmm.takeFree, modArea, (totals_listRemove _ k p).1] using h.inside
  · simpa [Pmm.takeFree, modArea, (totals_listRemove _ k p).1] using h.bounded
  · have hpages := h.pages
    rw [blockPages_perm (freeBlocks_erase hk hp)] at hpages
    simp only [Pmm.takeFree, modArea, (totals_listRemove _ k p).2]
    simp only [blockPages_cons] at hpages ⊢
    omega

/-- Two buddies in hand are one block of the next order. -/
lemma mergeHand
    (h : Inv H (⟨buddy p k, k⟩ :: ⟨p, k⟩ :: hand) live L s) :
  Inv H (⟨lower p k, k + 1⟩ :: hand) live L s
  := by
  refine { h with tiles := ?_, pages := ?_ }
  · apply Tiles.merge_buddy
    apply h.tiles.perm (List.Perm.swap ..)
  rw [h.pages]
  simp only [blockPages_cons, pow_succ]
  omega

/-- A block in hand is its two halves. -/
lemma splitHand
    (h : Inv H (⟨p, k + 1⟩ :: hand) live L s) :
  Inv H (⟨buddy p k, k⟩ :: ⟨p, k⟩ :: hand) live L s
  := by
  refine { h with tiles := ?_, pages := ?_ }
  · apply h.tiles.split_buddy.perm (List.Perm.swap ..)
  rw [h.pages]
  simp only [blockPages_cons, pow_succ]
  omega

/-- A live block is taken back into the hand: its pages count as free. -/
lemma release
    (h : Inv H [] live L s) {b : Block} (hb : b ∈ live) :
  Inv H [b] (live.erase b) L { s with freePhysPages := s.freePhysPages + 2 ^ b.order }
  := by
  refine { h with tiles := ?_, liveOrder := ?_, liveHead := ?_, pages := ?_ }
  · apply h.tiles.perm ((perm_cons_erase hb).append_right _)
  · intro c hc
    apply h.liveOrder c (mem_of_mem_erase hc)
  · intro c hc
    apply h.liveHead c (mem_of_mem_erase hc)
  · simp only [h.pages, blockPages_cons, blockPages_nil]
    omega

/-- A block in hand whose head is not marked free is handed out. -/
lemma handOut
    {b : Block} (h : Inv H [b] live L s) (ho : b.order < pmmMaxOrder)
    (hf : (s.flags b.start).1 = false) :
  Inv H [] (b :: live) L { s with freePhysPages := s.freePhysPages - 2 ^ b.order }
  := by
  refine { h with tiles := ?_, liveOrder := ?_, liveHead := ?_, pages := ?_ }
  · exact h.tiles
  · exact forall_mem_cons.mpr ⟨ho, h.liveOrder⟩
  · exact forall_mem_cons.mpr ⟨hf, h.liveHead⟩
  · simp only [h.pages, blockPages_cons, blockPages_nil]
    omega

lemma syncLegacyGlobals (h : Inv H hand live L s) :
  Inv H hand live L s.syncLegacyGlobals
  := { h with }

/-! ### The loops -/

/-- Halving a block in hand down to `order`. -/
lemma splitBlock {order c : ℕ} :
    ∀ {L : ℕ → List ℕ} {s : Pmm}, Inv H [⟨p, c⟩] live L s → order ≤ c → c < pmmMaxOrder →
      ∃ L', Inv H [⟨p, order⟩] live L' (splitBlock p order c s)
  := by
  induction c with
  | zero =>
    intro L s h ho _
    obtain rfl : order = 0 := by omega
    exact ⟨L, h⟩
  | succ c ih =>
    intro L s h ho hc
    rw [Pmm.splitBlock]
    split
    · apply ih (h.splitHand.addFree (by omega)) (by omega) (by omega)
    · obtain rfl : order = c + 1 := by omega
      exact ⟨L, h⟩

/-- A buddy that is marked free with the order of the block in hand is the head of a free
block of that order, although descriptors inside blocks are stale. -/
lemma buddy_free
    (h : Inv H [⟨p, k⟩] live L s) (hf : s.flags (buddy p k) = (true, k)) :
  buddy p k ∈ L k
  := by
  have hmem : buddy p k ∈ H := by
    by_contra hn
    have := h.outside _ hn
    simp [hf] at this
  obtain ⟨b, hb, hs, -⟩ := h.tiles.buddy_block (p := p) (by simp) hmem
  simp only [cons_append, nil_append, mem_cons, mem_append] at hb
  rcases hb with rfl | hb | hb
  · have hd := buddy_disjoint (h.tiles.aligned ⟨p, k⟩ (by simp))
    rw [← hs] at hd
    exact absurd (start_mem _) (hd.notMem (start_mem _))
  · have := h.liveHead b hb
    rw [hs, hf] at this
    cases this
  obtain ⟨ho, hm⟩ := mem_freeBlocks.mp hb
  have := h.freeHead _ ho _ hm
  rw [hs, hf] at this
  rw [hs] at hm
  rwa [← (Prod.mk.inj this).2] at hm

/-- A block in hand is merged with its buddy, which is marked free with its order. -/
lemma merge_buddy
    (h : Inv H [⟨p, k⟩] live L s) (hk : k < pmmMaxOrder) (hf : s.flags (buddy p k) = (true, k)) :
  Inv H [⟨p &&& ((2 ^ 64 - 1) ^^^ (1 <<< k)), k + 1⟩] live (update L k ((L k).erase (buddy p k)))
    ((s.takeFree k (buddy p k)).modPage (buddy p k) fun g => { g with isFree := false })
  := by
  have hp : p < 2 ^ 64 := lt_of_lt_of_le (h.inside p (h.start_mem_pages (b := ⟨p, k⟩) (by simp))).2
    h.bounded
  have htake := h.takeFree hk (h.buddy_free hf)
  have hmod := htake.modPage_hand (b := ⟨buddy p k, k⟩)
    (f := fun g => { g with isFree := false }) (by simp) (fun _ => rfl) (fun _ => rfl)
  rw [and_not_eq_lower hp (h.tiles.aligned ⟨p, k⟩ (by simp))]
  exact hmod.mergeHand

/-- Merging a block in hand with its buddies. -/
lemma coalesce {n : ℕ} :
    ∀ {L : ℕ → List ℕ} {s : Pmm} {p k : ℕ}, Inv H [⟨p, k⟩] live L s → k + n < pmmMaxOrder →
      ∃ L', Inv H [⟨(coalesce n s p k).2.1, (coalesce n s p k).2.2⟩] live L' (coalesce n s p k).1
        ∧ (Pmm.coalesce n s p k).2.2 < pmmMaxOrder
  := by
  induction n with
  | zero =>
    intro L s p k h hk
    exact ⟨L, h, hk⟩
  | succ n ih =>
    intro L s p k h hk
    rw [Pmm.coalesce]
    split
    · exact ⟨L, h, by simp; omega⟩
    split
    · exact ⟨L, h, by simp; omega⟩
    next hlt hfree =>
      have hflag : s.flags (buddy p k) = (true, k) := by
        simpa [flags, buddy] using hfree
      apply ih (h.merge_buddy (by omega) hflag) (by omega)

end Inv

end Pmm
