import EquantOS.Mem.PmmInit

/-!
# Releasing a block twice

`pmm_free_pages` takes a block for free if its first page is marked free.  The release of a block leaves
that mark, whatever it merges, so that a second release in a row does nothing.  A later release of a
buddy may clear the mark while it merges the block, and then a second release counts the pages again.
-/

open Block Function

namespace Pmm

variable {H : Set ℕ} {live : List Block} {L : ℕ → List ℕ} {s : Pmm} {p q k : ℕ} {b : Block}

/-! ### The mark of a released block -/

/-- Merging keeps the marks of the pages in the block in hand. -/
lemma Inv.isFree_coalesce {n : ℕ} :
    ∀ {L : ℕ → List ℕ} {s : Pmm} {p k : ℕ}, Inv H [⟨p, k⟩] live L s → k + n < pmmMaxOrder →
      q ∈ (⟨p, k⟩ : Block) → ((Pmm.coalesce n s p k).1.flags q).1 = (s.flags q).1
  := by
  induction n with
  | zero =>
    intro L s p k _ _ _
    rfl
  | succ n ih =>
    intro L s p k h hk hq
    rw [Pmm.coalesce]
    split
    · rfl
    split
    · rfl
    next hlt hfree =>
      have hflag : s.flags (buddy p k) = (true, k) := by
        simpa [flags, buddy] using hfree
      have halign := h.tiles.aligned ⟨p, k⟩ (by simp)
      have hp : p < 2 ^ 64 := lt_of_lt_of_le (h.inside p (h.start_mem_pages (b := ⟨p, k⟩) (by simp))).2
        h.bounded
      have hmem : q ∈ (⟨p &&& ((2 ^ 64 - 1) ^^^ (1 <<< k)), k + 1⟩ : Block) := by
        rw [and_not_eq_lower hp halign]
        exact (mem_lower_iff halign).mpr (.inl hq)
      refine (ih (h.merge_buddy (by omega) hflag) (by omega) hmem).trans ?_
      -- the mark that is cleared is the one of the buddy, which is not in the block
      have hne : q ≠ buddy p k := by
        rintro rfl
        exact (buddy_disjoint halign).notMem hq (start_mem ⟨buddy p k, k⟩)
      rw [flags_modPage, update_of_ne hne, Pmm.takeFree, flags_modArea, flags_listRemove]

/-- A page that is marked free stays so when a block is put on its free list. -/
lemma isFree_addFree (h : (s.flags q).1) : ((s.addFree k p).flags q).1
  := by
  rw [Pmm.addFree, flags_modArea, flags_listAdd, flags_modPage]
  by_cases heq : q = p
  · rw [heq, update_self]
  · rw [update_of_ne heq]
    exact h

/-- The first page of a block that was just released is marked free. -/
lemma Inv.isFree_pmmFreePages (h : Inv H [] live L s) (hb : b ∈ live) :
  ((s.pmmFreePages (b.start * pageSize) b.order).pageArray b.start).isFree
  := by
  have hk := h.liveOrder _ hb
  obtain ⟨hpos, hlt⟩ := h.inside _ (h.start_mem_pages (b := b) (by simp [hb]))
  have hkeep := (h.mark hb).isFree_coalesce (n := pmmMaxOrder - 1 - b.order)
    (by simp only [pmmMaxOrder] at *; omega) b.start_mem
  rw [pmmFreePages_eq hpos hlt hk, if_neg (Bool.not_eq_true _ ▸ h.liveHead _ hb)]
  refine isFree_addFree (hkeep.trans ?_)
  change ((s.modPage b.start fun g => { g with isFree := true }).flags b.start).1
  rw [flags_modPage, update_self]

/-- The first pages of the free blocks that `coalesce` merges. -/
def absorbed : ℕ → Pmm → ℕ → ℕ → List ℕ
  | 0, _, _, _ => []
  | n + 1, s, pfn, order =>
    let buddyPfn := pfn ^^^ (1 <<< order)
    if s.totalPhysPages ≤ buddyPfn then []
    else if !(s.pageArray buddyPfn).isFree || (s.pageArray buddyPfn).order != order then []
    else
      let s := (s.takeFree order buddyPfn).modPage buddyPfn fun g => { g with isFree := false }
      buddyPfn :: absorbed n s (pfn &&& ((2 ^ 64 - 1) ^^^ (1 <<< order))) (order + 1)

/-- Merging clears the marks of the blocks that are merged. -/
lemma isFree_coalesce_iff (q : ℕ) : ∀ (n : ℕ) (s : Pmm) (p k : ℕ),
    ((Pmm.coalesce n s p k).1.flags q).1 ↔ (s.flags q).1 ∧ q ∉ absorbed n s p k
  | 0, s, p, k => by simp [Pmm.coalesce, absorbed]
  | n + 1, s, p, k => by
    rw [Pmm.coalesce, absorbed]
    split
    · simp
    split
    · simp
    dsimp only
    rw [isFree_coalesce_iff q n, flags_modPage, Pmm.takeFree, flags_modArea, flags_listRemove, List.mem_cons]
    by_cases heq : q = p ^^^ (1 <<< k)
    · simp [heq]
    · simp [heq]

/-- The first pages of the blocks that the release of a block merges. -/
def absorbedBy (s : Pmm) (b : Block) : List ℕ :=
  absorbed (pmmMaxOrder - 1 - b.order)
    { s.modPage b.start fun g => { g with isFree := true } with freePhysPages := s.freePhysPages + 2 ^ b.order }
    b.start b.order

/-- The marks after a block has been released: the first page of the block that comes of the merge has one, and
the first pages of the blocks that were merged lose theirs. -/
lemma isFree_pmmFreePages_iff (hpos : 0 < b.start) (hlt : b.start < s.totalPhysPages) (hk : b.order < pmmMaxOrder)
    (hmark : ¬ (s.pageArray b.start).isFree) (q : ℕ) :
  ((s.pmmFreePages (b.start * pageSize) b.order).pageArray q).isFree ↔
    q = (merged s b.start b.order).2.1
      ∨ ((s.pageArray q).isFree ∨ q = b.start) ∧ q ∉ absorbedBy s b
  := by
  rw [pmmFreePages_eq hpos hlt hk, if_neg hmark]
  change ((Pmm.addFree (merged s b.start b.order).1 (merged s b.start b.order).2.2
    (merged s b.start b.order).2.1).flags q).1 ↔ _
  rw [Pmm.addFree, flags_modArea, flags_listAdd, flags_modPage]
  by_cases hhead : q = (merged s b.start b.order).2.1
  · rw [hhead, update_self]
    simp
  rw [update_of_ne hhead, or_iff_right hhead, merged, isFree_coalesce_iff]
  refine and_congr_left fun _ => ?_
  change ((s.modPage b.start fun g => { g with isFree := true }).flags q).1 ↔ _
  rw [flags_modPage]
  by_cases hstart : q = b.start
  · rw [hstart, update_self]
    simp
  · rw [update_of_ne hstart, or_iff_left hstart]
    rfl

/-! ### A second release -/

/-- The blocks that were released and of which no page was handed out since, in the states that the
allocator reaches from `pmm_init`. -/
inductive Released (map : Memmap) (b : Block) : Pmm × List Block → Prop where
  | free {s₀ s : Pmm} {entries : List MemmapEntry} {live : List Block} :
      pmmInit map = some (s₀, entries) → Relation.ReflTransGen Step (s₀, []) (s, live) → b ∈ live →
      Released map b (s.pmmFreePages (b.start * pageSize) b.order, live.erase b)
  | step {st st' : Pmm × List Block} :
      Released map b st → Step st st' → (∀ c ∈ st'.2, b.Disjoint c) → Released map b st'

/-- The invariant holds, and the block is one of pages that the allocator was given. -/
lemma Released.holds {map : Memmap} {st : Pmm × List Block} (h : Released map b st) :
  ∃ H, Holds H st ∧ b.start ∈ H ∧ b.order < pmmMaxOrder
  := by
  induction h with
  | free hinit hrun hb =>
    obtain ⟨L, hinv⟩ := holds_of_run hrun (holds_pmmInit hinit)
    exact ⟨_, hinv.pmmFreePages hb, hinv.start_mem_pages (by simp [hb]), hinv.liveOrder b hb⟩
  | step _ hs _ ih =>
    obtain ⟨H, hst, hb⟩ := ih
    exact ⟨H, hs.holds hst, hb⟩

/-- The lists, counters and descriptors are the same. -/
structure Unchanged (s s' : Pmm) : Prop where
  freeAreas : s'.freeAreas = s.freeAreas
  pageArray : s'.pageArray = s.pageArray
  freePhysPages : s'.freePhysPages = s.freePhysPages
  totals : s'.totalPhysPages = s.totalPhysPages ∧ s'.totalPages = s.totalPages
    ∧ s'.freeMemory = s.freeMemory

section

variable (hpos : 0 < b.start) (hlt : b.start < s.totalPhysPages) (hk : b.order < pmmMaxOrder)

include hpos hlt hk

/-- Without the mark a release counts the pages of the block. -/
lemma freePhysPages_pmmFreePages (hmark : ¬ (s.pageArray b.start).isFree) :
  (s.pmmFreePages (b.start * pageSize) b.order).freePhysPages = s.freePhysPages + 2 ^ b.order
  := by
  rw [pmmFreePages_eq hpos hlt hk, if_neg hmark]
  exact (totals_listAdd _ _ _).2.trans (totals_coalesce _ _ _ _).2

/-- A release changes nothing exactly if the first page is marked free. -/
lemma unchanged_iff :
  Unchanged s (s.pmmFreePages (b.start * pageSize) b.order) ↔ (s.pageArray b.start).isFree
  := by
  constructor
  · intro hsame
    by_contra hmark
    have hcount := freePhysPages_pmmFreePages hpos hlt hk hmark
    have hfree := hsame.freePhysPages
    have hsize := Nat.two_pow_pos b.order
    omega
  · intro hmark
    rw [pmmFreePages_eq hpos hlt hk, if_pos hmark]
    exact ⟨rfl, rfl, rfl, rfl, rfl, rfl⟩

end

section

variable {map : Memmap}

/-- Two releases in a row do what one does. -/
theorem release_release
    {s₀ : Pmm} {entries : List MemmapEntry} (hinit : pmmInit map = some (s₀, entries))
    (hrun : Relation.ReflTransGen Step (s₀, []) (s, live)) (hb : b ∈ live) :
  (s.pmmFreePages (b.start * pageSize) b.order).pmmFreePages (b.start * pageSize) b.order
    = s.pmmFreePages (b.start * pageSize) b.order
  := by
  obtain ⟨L, h⟩ := holds_of_run hrun (holds_pmmInit hinit)
  obtain ⟨L', h'⟩ := h.pmmFreePages hb
  obtain ⟨hpos, hlt⟩ := h'.inside _ (h.start_mem_pages (b := b) (by simp [hb]))
  rw [pmmFreePages_eq hpos hlt (h.liveOrder b hb), if_pos (h.isFree_pmmFreePages hb)]

/-- Two pages are released twice. -/
theorem release_release_fourPages :
  ∃ (s : Pmm) (live : List Block), ⟨2, 1⟩ ∈ live
    ∧ (s.pmmFreePages 8192 1).pmmFreePages 8192 1 = s.pmmFreePages 8192 1
  := by
  have hb : (⟨2, 1⟩ : Block) ∈ [⟨8192 / pageSize, 1⟩] := by decide
  exact ⟨_, _, hb, release_release (@rfl _ (pmmInit fourPages)) (.single (@Step.alloc _ _ id 1 8192 rfl)) hb⟩

/-- A second release of a block of which no page was handed out since changes nothing exactly if the
first page of the block is still marked free.  The release of another block takes the mark away exactly if it
merges the block and what comes of the merge begins elsewhere. -/
theorem second_release_iff (h : Released map b (s, live)) :
  (Unchanged s (s.pmmFreePages (b.start * pageSize) b.order) ↔ (s.pageArray b.start).isFree = true)
    ∧ ∀ c ∈ live, (((s.pmmFreePages (c.start * pageSize) c.order).pageArray b.start).isFree = true ↔
      b.start = (merged s c.start c.order).2.1
        ∨ ((s.pageArray b.start).isFree = true ∨ b.start = c.start) ∧ b.start ∉ absorbedBy s c)
  := by
  obtain ⟨H, ⟨L, hinv⟩, hb, hk⟩ := h.holds
  obtain ⟨hpos, hlt⟩ := hinv.inside _ hb
  refine ⟨unchanged_iff hpos hlt hk, fun c hc => ?_⟩
  obtain ⟨hpos', hlt'⟩ := hinv.inside _ (hinv.start_mem_pages (b := c) (by simp [hc]))
  exact isFree_pmmFreePages_iff hpos' hlt' (hinv.liveOrder c hc) (Bool.not_eq_true _ ▸ hinv.liveHead c hc) b.start

end

/-! ### Two pages that are merged -/

/-- Pages 4, 2 and 3 are handed out. -/
def threeOut : Pmm :=
  let s := ([2, 3, 4].foldl initPage (empty 5)).syncLegacyGlobals
  (pmmAllocPages id (pmmAllocPages id (pmmAllocPages id s 0).2 0).2 0).2

/-- Page 3 is released, and then page 2, which merges with it. -/
def twoMerged : Pmm := (threeOut.pmmFreePages (3 * pageSize) 0).pmmFreePages (2 * pageSize) 0

lemma run_threeOut :
  ∃ s₀ entries, pmmInit fourPages = some (s₀, entries)
    ∧ Relation.ReflTransGen Step (s₀, []) (threeOut, [⟨3, 0⟩, ⟨2, 0⟩, ⟨4, 0⟩])
  := by
  refine ⟨([2, 3, 4].foldl initPage (empty 5)).syncLegacyGlobals,
    [⟨0, 4096, 1⟩, ⟨8192, 12288, 0⟩], rfl, ?_⟩
  apply Relation.ReflTransGen.tail
  · apply Relation.ReflTransGen.tail
    · exact Relation.ReflTransGen.single (@Step.alloc _ _ id 0 16384 (by decide +kernel))
    · exact @Step.alloc _ _ id 0 8192 (by decide +kernel)
  · exact @Step.alloc _ _ id 0 12288 (by decide +kernel)

/-- The block that merged last keeps its mark. -/
theorem second_release_last :
  Released fourPages ⟨2, 0⟩ (twoMerged, [⟨4, 0⟩])
    ∧ Unchanged twoMerged (twoMerged.pmmFreePages (2 * pageSize) 0)
  := by
  obtain ⟨s₀, entries, hinit, hrun⟩ := run_threeOut
  have hrel : Released fourPages ⟨2, 0⟩ (twoMerged, [⟨4, 0⟩]) :=
    .free hinit (hrun.tail (Step.free (b := ⟨3, 0⟩) (by simp))) (by simp)
  exact ⟨hrel, (second_release_iff hrel).1.mpr (by decide +kernel)⟩

/-- The block that was merged first has lost its mark: its page is counted again. -/
theorem second_release_first :
  Released fourPages ⟨3, 0⟩ (twoMerged, [⟨4, 0⟩])
    ∧ ¬ Unchanged twoMerged (twoMerged.pmmFreePages (3 * pageSize) 0)
    ∧ (twoMerged.pmmFreePages (3 * pageSize) 0).freePhysPages = 3
    ∧ twoMerged.freePhysPages = 2
  := by
  obtain ⟨s₀, entries, hinit, hrun⟩ := run_threeOut
  have hcount : (twoMerged.pmmFreePages (3 * pageSize) 0).freePhysPages = 3
      ∧ twoMerged.freePhysPages = 2 := by decide +kernel
  refine ⟨.step (.free hinit hrun (by simp)) (Step.free (b := ⟨2, 0⟩) (by simp)) ?_, ?_, hcount⟩
  · simp [Block.Disjoint]
  intro hsame
  have hfree := hsame.freePhysPages
  omega

end Pmm
