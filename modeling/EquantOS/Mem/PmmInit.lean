import EquantOS.Mem.Allocator

/-!
# Start-up of the page allocator

The pages that `pmm_init` hands to the allocator are distinct usable pages of the memory
map, page zero excepted, so that handing them over one by one establishes the buddy
invariant.  With the results on runs this gives the invariant in every state that the
allocator reaches.
-/

open LinkedList Block List

namespace MemmapEntry

/-- The page lies entirely in the entry. -/
def Holds (e : MemmapEntry) (p : ℕ) : Prop :=
  e.base ≤ p * pageSize ∧ (p + 1) * pageSize ≤ e.base + e.length

variable {d e : MemmapEntry} {p : ℕ}

lemma mem_pfns :
  p ∈ e.pfns ↔ e.Usable ∧ (e.base / pageSize ≤ p ∧ p < e.base / pageSize + e.length / pageSize)
    ∧ p ≠ 0
  := by
  rw [pfns]
  split <;> simp_all

lemma pfns_nodup (e : MemmapEntry) :
  e.pfns.Nodup
  := by
  rw [pfns]
  split
  · apply List.Nodup.filter _ (nodup_range' ..)
  · exact nodup_nil

/-- The entry `d` is a page-aligned part of the entry `e`. -/
structure Within (d e : MemmapEntry) : Prop where
  type : d.type = e.type
  base : e.base ≤ d.base
  top : d.base + d.length ≤ e.base + e.length
  aligned : pageSize ∣ e.base ∧ pageSize ∣ e.length → pageSize ∣ d.base ∧ pageSize ∣ d.length

lemma Within.refl (e : MemmapEntry) : Within e e := ⟨rfl, le_rfl, le_rfl, id⟩

lemma Within.usable (h : Within d e) (u : d.Usable) :
  e.Usable
  := h.type.symm.trans u

/-- The pages of a part of an entry lie in the entry. -/
lemma Within.holds (h : Within d e) (ha : pageSize ∣ e.base ∧ pageSize ∣ e.length) (hp : p ∈ d.pfns) :
  e.Holds p
  := by
  obtain ⟨-, ⟨hlow, hhigh⟩, -⟩ := mem_pfns.mp hp
  obtain ⟨⟨x, hx⟩, ⟨y, hy⟩⟩ := h.aligned ha
  have hb := h.base
  have ht := h.top
  simp only [Holds, pageSize] at *
  omega

end MemmapEntry

/-- The memory map marks the page usable. -/
def Memmap.UsablePage (map : Memmap) (p : ℕ) : Prop :=
  ∃ e ∈ map.entries, e.Usable ∧ e.Holds p

namespace Pmm

open MemmapEntry

variable {pages total : ℕ} {e : MemmapEntry} {s : Pmm}

/-- What remains of the map after the page descriptors are reserved is made of parts of
its entries. -/
lemma reservePageArray_within :
    ∀ {es : List MemmapEntry} {r : ℕ × List MemmapEntry}, reservePageArray pages es = some r →
      ∀ d ∈ r.2, ∃ e ∈ es, Within d e
  | [], _, h => by cases h
  | e :: es, r, h => by
      rw [reservePageArray] at h
      split at h
      next hfit =>
        cases h
        intro d hd
        rcases mem_cons.mp hd with rfl | hd
        · use e, by simp
          constructor
          · rfl
          · simp
          · simp only
            omega
          · rintro ⟨hb, hl⟩
            exact ⟨Nat.dvd_add hb (Dvd.intro_left _ rfl), Nat.dvd_sub hl (Dvd.intro_left _ rfl)⟩
        · exact ⟨d, by simp [hd], Within.refl d⟩
      next =>
        obtain ⟨r', hr, rfl⟩ := Option.map_eq_some_iff.mp h
        intro d hd
        rcases mem_cons.mp hd with rfl | hd
        · exact ⟨d, by simp, Within.refl d⟩
        · obtain ⟨e', he', hw⟩ := reservePageArray_within hr d hd
          exact ⟨e', by simp [he'], hw⟩

/-- Usable entries do not overlap. -/
def NoOverlap (d e : MemmapEntry) : Prop :=
  d.Usable → e.Usable → d.base + d.length ≤ e.base ∨ e.base + e.length ≤ d.base

lemma NoOverlap.within
    {d d' e' : MemmapEntry} (h : NoOverlap d e) (hd : Within d' d) (he : Within e' e) :
  NoOverlap d' e'
  := by
  intro ud ue
  have := h (hd.usable ud) (he.usable ue)
  have := hd.base
  have := hd.top
  have := he.base
  have := he.top
  omega

lemma reservePageArray_noOverlap :
    ∀ {es : List MemmapEntry} {r : ℕ × List MemmapEntry}, reservePageArray pages es = some r →
      es.Pairwise NoOverlap → r.2.Pairwise NoOverlap
  | [], _, h, _ => by cases h
  | e :: es, r, h, hp => by
      obtain ⟨he, hes⟩ := pairwise_cons.mp hp
      have hwithin := reservePageArray_within h
      rw [reservePageArray] at h
      split at h
      next hfit =>
        cases h
        refine pairwise_cons.mpr ⟨?_, hes⟩
        intro d hd ud ue
        have := he d hd ud ue
        simp only
        omega
      next =>
        obtain ⟨r', hr, rfl⟩ := Option.map_eq_some_iff.mp h
        refine pairwise_cons.mpr ⟨?_, reservePageArray_noOverlap hr hes⟩
        intro d hd
        obtain ⟨d', hd', hw⟩ := reservePageArray_within hr d hd
        apply (he d' hd').within (Within.refl e) hw

/-- Every usable entry ends at or below `maxAddr`. -/
lemma le_maxAddr (map : Memmap) (he : e ∈ map.entries) (hu : e.Usable) :
  e.base + e.length ≤ maxAddr map.entries
  := by
  have hfold : ∀ (es : List MemmapEntry) (m : ℕ), (∀ d ∈ es, d.Usable → d.base + d.length < 2 ^ 64) →
      m ≤ es.foldl (fun m e => if e.Usable ∧ m < (e.base + e.length) % 2 ^ 64
        then (e.base + e.length) % 2 ^ 64 else m) m
      ∧ ∀ d ∈ es, d.Usable → d.base + d.length
        ≤ es.foldl (fun m e => if e.Usable ∧ m < (e.base + e.length) % 2 ^ 64
          then (e.base + e.length) % 2 ^ 64 else m) m := by
    intro es
    induction es with
    | nil => simp
    | cons c es ih =>
      intro m hb
      simp only [mem_cons, forall_eq_or_imp] at hb ⊢
      obtain ⟨hm, hes⟩ := ih (if c.Usable ∧ m < (c.base + c.length) % 2 ^ 64
        then (c.base + c.length) % 2 ^ 64 else m) hb.2
      refine ⟨le_trans ?_ hm, ?_, hes⟩
      · split <;> omega
      intro hc
      refine le_trans ?_ hm
      rw [Nat.mod_eq_of_lt (hb.1 hc)]
      by_cases hlt : m < c.base + c.length
      · rw [if_pos ⟨hc, hlt⟩]
      · rw [if_neg fun h => hlt h.2]
        omega
  exact (hfold map.entries 0 map.bounded).2 e he hu

lemma maxAddr_lt (entries : List MemmapEntry) :
  maxAddr entries < 2 ^ 64
  := by
  apply foldlRecOn (motive := fun m => m < 2 ^ 64)
  · decide
  · intro m hm e _
    split
    · apply Nat.mod_lt _ (by decide)
    · exact hm

section Init

variable {map : Memmap} {s : Pmm} {entries : List MemmapEntry}

section

variable (h : pmmInit map = some (s, entries))

include h

/-- What a successful `pmm_init` computes. -/
lemma pmmInit_eq :
  ∃ phys, reservePageArray (pageArrayPages (maxAddr map.entries / pageSize)) map.entries
      = some (phys, entries)
    ∧ s = ((initPfns entries).foldl initPage
        (empty (maxAddr map.entries / pageSize))).syncLegacyGlobals
  := by
  simp only [pmmInit] at h
  split at h
  · cases h
  next phys entries' hr =>
    split at h
    · cases h
    · cases h
      exact ⟨phys, hr, rfl⟩

/-- A page handed to the allocator is marked usable. -/
lemma usablePage_of_mem
    {p : ℕ} (hp : p ∈ initPfns entries) :
  map.UsablePage p
  := by
  obtain ⟨phys, hr, -⟩ := pmmInit_eq h
  obtain ⟨d, hd, hpd⟩ := mem_flatMap.mp hp
  obtain ⟨e, he, hw⟩ := reservePageArray_within hr d hd
  have hu : e.Usable := hw.usable (mem_pfns.mp hpd).1
  exact ⟨e, he, hu, hw.holds (map.aligned e he hu) hpd⟩

/-- A page handed to the allocator has a descriptor, and is not page zero. -/
lemma initPfns_bound
    {p : ℕ} (hp : p ∈ initPfns entries) :
  0 < p ∧ p < maxAddr map.entries / pageSize
  := by
  obtain ⟨e, he, hu, -, htop⟩ := usablePage_of_mem h hp
  obtain ⟨d, -, hpd⟩ := mem_flatMap.mp hp
  have hmax := le_maxAddr map he hu
  have hne := (mem_pfns.mp hpd).2.2
  simp only [pageSize] at *
  omega

/-- No page is handed to the allocator twice. -/
lemma initPfns_nodup :
  (initPfns entries).Nodup
  := by
  obtain ⟨phys, hr, -⟩ := pmmInit_eq h
  have hwithin := reservePageArray_within hr
  have hpair := reservePageArray_noOverlap hr map.disjoint
  refine nodup_flatMap.mpr ⟨fun e _ => e.pfns_nodup, ?_⟩
  apply hpair.imp_of_mem
  intro d e hd he hno p hpd hpe
  have ud := (mem_pfns.mp hpd).1
  have ue := (mem_pfns.mp hpe).1
  have ad : pageSize ∣ d.base ∧ pageSize ∣ d.length := by
    obtain ⟨d', hd', hw⟩ := hwithin d hd
    apply hw.aligned (map.aligned d' hd' (hw.usable ud))
  have ae : pageSize ∣ e.base ∧ pageSize ∣ e.length := by
    obtain ⟨e', he', hw⟩ := hwithin e he
    apply hw.aligned (map.aligned e' he' (hw.usable ue))
  obtain ⟨h1, h2⟩ := (Within.refl d).holds ad hpd
  obtain ⟨h3, h4⟩ := (Within.refl e).holds ae hpe
  have := hno ud ue
  simp only [pageSize] at *
  omega

end

end Init

/-! ### Handing the pages over -/

lemma inv_empty (h : total ≤ 2 ^ 64) :
  Inv ∅ [] [] (fun _ => []) (empty total)
  := by
  constructor
  · intro k _
    apply linked_nil
  · intro k _
    rfl
  · have : freeBlocks (fun _ => []) = [] := rfl
    simpa [this] using Tiles.nil
  · simp
  · simp
  · simp
  · intro p _
    rfl
  · simp
  · exact h
  · rfl

/-- Handing over one more page. -/
lemma Inv.initPage
    {H : Set ℕ} {L : ℕ → List ℕ} (h : Inv H [] [] L s) {p : ℕ} (hp : p ∉ H)
    (hpos : 0 < p) (hlt : p < s.totalPhysPages) :
  ∃ L', Inv {q | q = p ∨ q ∈ H} [] [] L' (s.initPage p)
  := by
  have hfree : ∀ k < pmmMaxOrder, ∀ q ∈ L k, q ≠ p := by
    rintro k hk q hq rfl
    exact hp (h.start_mem_pages (b := ⟨q, k⟩) (mem_tiles_of_free hk hq))
  have hmem : ∀ q, q ∈ (⟨p, 0⟩ : Block) ↔ q = p := by
    intro q
    rw [mem_iff]
    simp only
    omega
  have hlive : Inv {q | q = p ∨ q ∈ H} [] [⟨p, 0⟩] L
      (s.modPage p fun g => { g with isFree := false, order := 0 }) := by
    constructor
    · rw [next_modPage_keep _ _ fun _ => ?_, prev_modPage_keep _ _ fun _ => ?_]
      · exact h.linked
      · rfl
      · rfl
    · exact h.count
    · have := h.tiles.cons (b := ⟨p, 0⟩) (one_dvd p) (by simpa [hmem] using hp)
      simpa [hmem] using this
    · simp [pmmMaxOrder]
    · simp [flags_modPage]
    · intro k hk q hq
      rw [flags_modPage, Function.update_of_ne (hfree k hk q hq)]
      apply h.freeHead k hk q hq
    · intro q hq
      simp only [Set.mem_ofPred_eq, not_or] at hq
      rw [flags_modPage, Function.update_of_ne hq.1]
      apply h.outside q hq.2
    · rintro q (rfl | hq)
      · exact ⟨hpos, hlt⟩
      · exact h.inside q hq
    · exact h.bounded
    · exact h.pages
  obtain ⟨L', hdone⟩ := hlive.pmmFreePages (b := ⟨p, 0⟩) (by simp)
  rw [erase_cons_head] at hdone
  exact ⟨L', hdone⟩

lemma totals_coalesce (n : ℕ) :
  ∀ (s : Pmm) (p k : ℕ), (Pmm.coalesce n s p k).1.totalPhysPages = s.totalPhysPages
    ∧ (Pmm.coalesce n s p k).1.freePhysPages = s.freePhysPages
  := by
  induction n with
  | zero =>
    intro s p k
    exact ⟨rfl, rfl⟩
  | succ n ih =>
    intro s p k
    rw [Pmm.coalesce]
    split
    · exact ⟨rfl, rfl⟩
    split
    · exact ⟨rfl, rfl⟩
    · obtain ⟨htotal, hfree⟩ := totals_listRemove s k (p ^^^ 1 <<< k)
      exact ⟨(ih _ _ _).1.trans htotal, (ih _ _ _).2.trans hfree⟩

lemma totalPhysPages_initPage (s : Pmm) (p : ℕ) :
  (s.initPage p).totalPhysPages = s.totalPhysPages
  := by
  rw [Pmm.initPage, Pmm.pmmFreePages]
  split
  · rfl
  simp only
  split
  · rfl
  split
  · rfl
  · exact (totals_listAdd _ _ _).1.trans (totals_coalesce _ _ _ _).1

/-- Handing over distinct pages establishes the invariant for them. -/
lemma holds_initPages :
    ∀ {ps : List ℕ} {H : Set ℕ} {L : ℕ → List ℕ} {s : Pmm}, Inv H [] [] L s →
      s.totalPhysPages = total → ps.Nodup → (∀ p ∈ ps, p ∉ H ∧ 0 < p ∧ p < total) →
      Holds {q | q ∈ ps ∨ q ∈ H} (ps.foldl Pmm.initPage s, [])
  := by
  intro ps
  induction ps with
  | nil =>
    intro H L s h _ _ _
    simpa using ⟨L, h⟩
  | cons p ps ih =>
    intro H L s h ht hd hps
    obtain ⟨hp, hd⟩ := nodup_cons.mp hd
    obtain ⟨hpH, hpos, hlt⟩ := hps p (by simp)
    obtain ⟨L', h'⟩ := h.initPage hpH hpos (ht ▸ hlt)
    have hrec := ih h' ((totalPhysPages_initPage s p).trans ht) hd (by
      intro q hq
      obtain ⟨hqH, hq0, hqt⟩ := hps q (by simp [hq])
      refine ⟨?_, hq0, hqt⟩
      rintro (rfl | hq')
      · exact hp hq
      · exact hqH hq')
    have hset : {q | q ∈ ps ∨ q ∈ {q | q = p ∨ q ∈ H}} = {q | q ∈ p :: ps ∨ q ∈ H} := by
      ext q
      simp only [Set.mem_ofPred_eq, mem_cons]
      tauto
    rwa [hset] at hrec

/-- `pmm_init` establishes the invariant for the pages it hands over. -/
lemma holds_pmmInit
    {map : Memmap} {entries : List MemmapEntry} (h : pmmInit map = some (s, entries)) :
  Holds {p | p ∈ initPfns entries} (s, [])
  := by
  obtain ⟨phys, -, rfl⟩ := pmmInit_eq h
  have hbound : maxAddr map.entries / pageSize ≤ 2 ^ 64 :=
    le_trans (Nat.div_le_self ..) (maxAddr_lt _).le
  obtain ⟨L, hinit⟩ := holds_initPages (inv_empty hbound) rfl (initPfns_nodup h)
    (fun p hp => ⟨id, initPfns_bound h hp⟩)
  have hset : {q | q ∈ initPfns entries ∨ q ∈ (∅ : Set ℕ)} = {p | p ∈ initPfns entries} := by
    ext q
    simp
  rw [hset] at hinit
  exact ⟨L, hinit.syncLegacyGlobals⟩

/-- In every state that the allocator reaches from `pmm_init`: live blocks are aligned and
lie in usable pages; live blocks are disjoint from each other and from the free blocks;
every page handed over that is not in a live block lies in exactly one free block; and
the counters and links of the free lists agree with the lists. -/
theorem buddy_invariant
    {map : Memmap} {s₀ s : Pmm} {entries : List MemmapEntry} {live : List Block}
    (hinit : pmmInit map = some (s₀, entries))
    (hrun : Relation.ReflTransGen Step (s₀, []) (s, live)) :
  ∃ L : ℕ → List ℕ,
    (∀ b ∈ live, 2 ^ b.order ∣ b.start ∧ ∀ p ∈ b, map.UsablePage p)
    ∧ (live.Pairwise Block.Disjoint ∧ ∀ b ∈ live, ∀ c ∈ freeBlocks L, b.Disjoint c)
    ∧ (∀ p ∈ initPfns entries, (∀ b ∈ live, p ∉ b) → ∃! c, c ∈ freeBlocks L ∧ p ∈ c)
    ∧ (∀ k < pmmMaxOrder, (L k).Nodup ∧ Linked s.next s.prev (s.freeAreas k).freelist (L k)
        ∧ (s.freeAreas k).freeCount = (L k).length)
    ∧ s.freePhysPages = ∑ k ∈ Finset.range pmmMaxOrder, 2 ^ k * (s.freeAreas k).freeCount
  := by
  obtain ⟨L, h⟩ := holds_of_run hrun (holds_pmmInit hinit)
  have htiles : Tiles {p | p ∈ initPfns entries} (live ++ freeBlocks L) := h.tiles
  have hpair := pairwise_append.mp htiles.disjoint
  refine ⟨L, ?_, ⟨hpair.1, hpair.2.2⟩, ?_, ?_, ?_⟩
  · intro b hb
    refine ⟨htiles.aligned b (by simp [hb]), fun p hp => ?_⟩
    apply usablePage_of_mem hinit
    exact (htiles.cover p).mpr ⟨b, by simp [hb], hp⟩
  · intro p hp hlive
    obtain ⟨c, hc, hpc⟩ := (htiles.cover p).mp hp
    have hfree : c ∈ freeBlocks L := by
      rcases mem_append.mp hc with hc | hc
      · exact absurd hpc (hlive c hc)
      · exact hc
    use c, ⟨hfree, hpc⟩
    rintro d ⟨hd, hpd⟩
    apply htiles.unique (by simp [hd]) (by simp [hfree]) hpd hpc
  · intro k hk
    exact ⟨h.list_nodup hk, h.linked k hk, h.count k hk⟩
  · rw [h.pages, blockPages_freeBlocks, blockPages_nil, Nat.zero_add]
    apply Finset.sum_congr rfl
    intro k hk
    rw [h.count k (Finset.mem_range.mp hk)]

/-- Four usable pages above a reserved one. -/
def fourPages : Memmap where
  entries := [⟨0, 4096, 1⟩, ⟨4096, 16384, 0⟩]
  aligned := by decide
  bounded := by decide
  disjoint := by decide

/-- The page descriptors take one of the four pages; a block of order one is taken from
the others. -/
theorem buddy_invariant_fourPages :
  ∃ (s₀ s : Pmm) (entries : List MemmapEntry),
    pmmInit fourPages = some (s₀, entries) ∧ initPfns entries = [2, 3, 4]
    ∧ Relation.ReflTransGen Step (s₀, []) (s, [⟨2, 1⟩])
    ∧ ∃ L : ℕ → List ℕ, ∀ p ∈ initPfns entries, (∀ b ∈ [Block.mk 2 1], p ∉ b) →
        ∃! c, c ∈ freeBlocks L ∧ p ∈ c
  := by
  have hinit : pmmInit fourPages = some
      (([2, 3, 4].foldl initPage (empty 5)).syncLegacyGlobals, [⟨0, 4096, 1⟩, ⟨8192, 12288, 0⟩]) :=
    rfl
  have hrun := Relation.ReflTransGen.single (@Step.alloc
    ([2, 3, 4].foldl initPage (empty 5)).syncLegacyGlobals [] id 1 8192 rfl)
  obtain ⟨L, -, -, hfree, -⟩ := buddy_invariant hinit hrun
  exact ⟨_, _, _, hinit, rfl, hrun, L, hfree⟩

end Pmm
