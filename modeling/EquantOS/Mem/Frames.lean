import EquantOS.Mem.PageTable
import EquantOS.Mem.PmmInit

/-!
# The buddy allocator as a pool of frames

The page tables ask the buddy allocator for single pages.  In a state that satisfies the buddy invariant
it hands out the frame of a page that is in no live block, it fails only if no page is free, and a page
that was handed out alone can be given back.
-/

open Block List

/-- The physical address of a page. -/
def frameOf (p : ℕ) : Word := BitVec.ofNat 64 (p * pageSize)

/-- The page of a physical address. -/
def pageOf (f : Word) : ℕ := f.toNat / pageSize

lemma toNat_frameOf {p : ℕ} (h : p < 2 ^ 40) : (frameOf p).toNat = p * 4096
  := by
  rw [frameOf, BitVec.toNat_ofNat, pageSize]
  omega

lemma pageOf_frameOf {p : ℕ} (h : p < 2 ^ 40) : pageOf (frameOf p) = p
  := by
  rw [pageOf, toNat_frameOf h, pageSize]
  omega

lemma frameOf_inj {p q : ℕ} (hp : p < 2 ^ 40) (hq : q < 2 ^ 40) (h : frameOf p = frameOf q) : p = q
  := by
  rw [← pageOf_frameOf hp, h, pageOf_frameOf hq]

lemma frameOf_and_addrMask {p : ℕ} (h : p < 2 ^ 40) : frameOf p &&& pteAddrMask = frameOf p
  := by
  apply BitVec.eq_of_toNat_eq
  have hmask : pteAddrMask.toNat = (2 ^ 40 - 1) <<< 12 := by decide
  have hshift : p * 4096 = p <<< 12 := by rw [Nat.shiftLeft_eq]
  rw [BitVec.toNat_and, toNat_frameOf h, hmask, hshift, ← Nat.shiftLeft_and_distrib,
    Nat.and_two_pow_sub_one_eq_mod, Nat.mod_eq_of_lt h]

namespace Pmm

variable {H : Set ℕ} {live : List Block} {L : ℕ → List ℕ} {s : Pmm}

lemma totals_splitBlock (page order : ℕ) :
  ∀ (c : ℕ) (s : Pmm), (splitBlock page order c s).totalPhysPages = s.totalPhysPages
    ∧ (splitBlock page order c s).freePhysPages = s.freePhysPages
  := by
  intro c
  induction c with
  | zero =>
    intro s
    exact ⟨rfl, rfl⟩
  | succ c ih =>
    intro s
    rw [splitBlock]
    split
    · obtain ⟨htotal, hfree⟩ := ih (s.addFree c (page ^^^ (1 <<< c)))
      exact ⟨htotal.trans (totals_listAdd _ _ _).1, hfree.trans (totals_listAdd _ _ _).2⟩
    · exact ⟨rfl, rfl⟩

/-- An allocation of a page fails only if the free lists are empty; otherwise one page less is free. -/
lemma Inv.alloc_page (h : Inv H [] live L s) (oom : Pmm → Pmm) :
  ((Pmm.pmmAllocPages oom s 0).1 = none ↔ s.freePhysPages = 0)
    ∧ ∀ ptr, (Pmm.pmmAllocPages oom s 0).1 = some ptr →
      pageSize ∣ ptr ∧ (Pmm.pmmAllocPages oom s 0).2.totalPhysPages = s.totalPhysPages
        ∧ s.freePhysPages = (Pmm.pmmAllocPages oom s 0).2.freePhysPages + 1
  := by
  have hpages := h.pages
  rw [blockPages_nil, Nat.zero_add] at hpages
  have hord : ¬ pmmMaxOrder ≤ 0 := by decide
  rw [Pmm.pmmAllocPages]
  cases hf : s.findFree 0 with
  | none =>
    refine ⟨⟨fun _ => ?_, fun _ => rfl⟩, fun _ hsome => by cases hsome⟩
    have hempty : freeBlocks L = [] := by
      rw [eq_nil_iff_forall_not_mem]
      intro b hb
      obtain ⟨hk, hmem⟩ := mem_freeBlocks.mp hb
      have hhead := findSome?_eq_none_iff.mp hf b.order
        (mem_range'_1.mpr ⟨Nat.zero_le _, by omega⟩)
      have hlink := h.linked b.order hk
      rw [Option.map_eq_none_iff.mp hhead] at hlink
      exact absurd hmem (by rw [hlink.eq_nil]; exact not_mem_nil)
    rw [hpages, hempty, blockPages_nil]
  | some r =>
    obtain ⟨k, p⟩ := r
    obtain ⟨-, hk, hp⟩ := h.findFree hf
    have hpos : 0 < s.freePhysPages := by
      have hmem : ⟨p, k⟩ ∈ freeBlocks L := mem_freeBlocks.mpr ⟨hk, hp⟩
      rw [hpages, blockPages_perm (perm_cons_erase hmem)]
      exact Nat.add_pos_left (Nat.two_pow_pos k) _
    refine ⟨⟨(fun hnone => by cases hnone), fun hzero => absurd hzero (by omega)⟩, fun ptr hptr => ?_⟩
    obtain ⟨htotal, hfree⟩ := totals_splitBlock p 0 k (s.takeFree k p)
    obtain ⟨htotal', hfree'⟩ := totals_listRemove s k p
    refine ⟨?_, htotal.trans htotal', ?_⟩
    · rw [← Option.some.inj hptr]
      exact Nat.dvd_mul_left ..
    · change s.freePhysPages = (Pmm.splitBlock p 0 k (s.takeFree k p)).freePhysPages - 1 <<< 0 + 1
      have hsame : (s.takeFree k p).freePhysPages = s.freePhysPages := hfree'
      omega

/-- The release of a page that was handed out frees one page. -/
lemma Inv.free_page (h : Inv H [] live L s) {p : ℕ} (hp : ⟨p, 0⟩ ∈ live) :
  (s.pmmFree (p * pageSize)).totalPhysPages = s.totalPhysPages
    ∧ (s.pmmFree (p * pageSize)).freePhysPages = s.freePhysPages + 1
  := by
  obtain ⟨hpos, hlt⟩ := h.inside p (h.start_mem_pages (b := ⟨p, 0⟩) (by simp [hp]))
  have hlive : (s.pageArray p).isFree = false := h.liveHead _ hp
  have hptr : ¬ (p * pageSize = 0 ∨ pmmMaxOrder ≤ 0) := by
    simp only [pageSize, pmmMaxOrder]
    omega
  rw [Pmm.pmmFree, Pmm.pmmFreePages, if_neg hptr]
  simp only [Nat.mul_div_cancel _ (by decide : 0 < pageSize), if_neg (Nat.not_le.mpr hlt), hlive,
    Bool.false_eq_true, if_false]
  refine ⟨(totals_listAdd _ _ _).1.trans (totals_coalesce _ _ _ _).1,
    (totals_listAdd _ _ _).2.trans (totals_coalesce _ _ _ _).2⟩

/-- In every state that the allocator reaches a page can be had exactly if one counts as free. -/
theorem page_available_iff {m : Memmap} {s₀ : Pmm} {entries : List MemmapEntry}
    (hinit : pmmInit m = some (s₀, entries)) (hrun : Relation.ReflTransGen Step (s₀, []) (s, live))
    (oom : Pmm → Pmm) :
  (pmmAllocPages oom s 0).1.isSome ↔ 0 < s.freePhysPages
  := by
  obtain ⟨L, h⟩ := holds_of_run hrun (holds_pmmInit hinit)
  exact (Option.isSome_iff_ne_none.trans (not_congr (h.alloc_page oom).1)).trans Nat.pos_iff_ne_zero.symm

theorem page_available_fourPages :
  (pmmAllocPages id ([2, 3, 4].foldl initPage (empty 5)).syncLegacyGlobals 0).1.isSome
  := (page_available_iff (m := fourPages) rfl .refl id).mpr (by decide)

end Pmm

/-- A state of the allocator for the pages `H` of a machine with `total` pages, with the blocks that are
handed out. -/
structure PagePool (H : Set ℕ) (total : ℕ) where
  pmm : Pmm
  live : List Block
  holds : Pmm.Holds H (pmm, live)
  pages : pmm.totalPhysPages = total

namespace PagePool

variable {H : Set ℕ} {total : ℕ} {s s' : PagePool H total} {p : ℕ}

/-- The page is in no live block. -/
def Avail (s : PagePool H total) (p : ℕ) : Prop := p ∈ H ∧ ∀ b ∈ s.live, p ∉ b

/-- `pmm_alloc`. -/
def alloc (s : PagePool H total) : Option (Word × PagePool H total) :=
  match h : (s.pmm.pmmAllocPages id 0).1 with
  | none => none
  | some ptr => some (BitVec.ofNat 64 ptr,
    { pmm := (s.pmm.pmmAllocPages id 0).2
      live := ⟨ptr / pageSize, 0⟩ :: s.live
      holds := s.holds.elim fun _ hinv => hinv.pmmAllocPages h
      pages := s.holds.elim fun _ hinv => ((hinv.alloc_page id).2 ptr h).2.1.trans s.pages })

/-- `pmm_free` for a page that was handed out alone. -/
def free (s : PagePool H total) (f : Word) : PagePool H total :=
  if h : ⟨pageOf f, 0⟩ ∈ s.live then
    { pmm := s.pmm.pmmFree (pageOf f * pageSize)
      live := s.live.erase ⟨pageOf f, 0⟩
      holds := s.holds.elim fun _ hinv => hinv.pmmFreePages h
      pages := s.holds.elim fun _ hinv => (hinv.free_page h).1.trans s.pages }
  else s

lemma mem_single {q : ℕ} : q ∈ (⟨p, 0⟩ : Block) ↔ q = p
  := by
  change p ≤ q ∧ q < p + 1 ↔ _
  omega

lemma lt_total (s : PagePool H total) (h : p ∈ H) : p < total
  := by
  obtain ⟨L, hinv⟩ := s.holds
  exact s.pages ▸ (hinv.inside p h).2

lemma page_lt (s : PagePool H total) (htotal : total ≤ 2 ^ 40) (h : p ∈ H) : p < 2 ^ 40 :=
  Nat.lt_of_lt_of_le (s.lt_total h) htotal

/-- Live blocks lie in the pages of the allocator and do not overlap. -/
lemma live_spec (s : PagePool H total) :
  (∀ b ∈ s.live, b.start ∈ H) ∧ s.live.Pairwise Block.Disjoint
  := by
  obtain ⟨L, hinv⟩ := s.holds
  have hdisj : (s.live ++ Pmm.freeBlocks L).Pairwise Block.Disjoint := hinv.tiles.disjoint
  exact ⟨fun b hb => hinv.start_mem_pages (mem_append_right [] (mem_append_left _ hb)),
    (pairwise_append.mp hdisj).1⟩

lemma alloc_eq_some {f : Word} (h : s.alloc = some (f, s')) :
  ∃ p, f = frameOf p ∧ s.Avail p ∧ s'.live = ⟨p, 0⟩ :: s.live
    ∧ s.pmm.freePhysPages = s'.pmm.freePhysPages + 1
  := by
  obtain ⟨L, hinv⟩ := s.holds
  rw [alloc] at h
  split at h
  case h_1 => exact absurd h nofun
  case h_2 ptr hptr =>
    obtain ⟨rfl, rfl⟩ := Prod.mk.inj (Option.some.inj h)
    obtain ⟨hdvd, -, hfree⟩ := (hinv.alloc_page id).2 ptr hptr
    obtain ⟨L', hinv'⟩ := hinv.pmmAllocPages hptr
    have hmem : ptr / pageSize ∈ H := hinv'.start_mem_pages (b := ⟨ptr / pageSize, 0⟩) (by simp)
    have hdisj : (⟨ptr / pageSize, 0⟩ :: s.live ++ Pmm.freeBlocks L').Pairwise Block.Disjoint :=
      hinv'.tiles.disjoint
    have hlive := (pairwise_append.mp hdisj).1
    refine ⟨ptr / pageSize, ?_, ⟨hmem, fun b hb hpb => ?_⟩, rfl, hfree⟩
    · rw [frameOf, Nat.div_mul_cancel hdvd]
    · exact ((pairwise_cons.mp hlive).1 b hb).notMem (mem_single.mpr rfl) hpb

lemma alloc_eq_none : s.alloc = none ↔ s.pmm.freePhysPages = 0
  := by
  obtain ⟨L, hinv⟩ := s.holds
  rw [← (hinv.alloc_page id).1, alloc]
  split
  case h_1 h => exact ⟨fun _ => h, fun _ => rfl⟩
  case h_2 ptr h => exact ⟨nofun, fun hnone => absurd (h.symm.trans hnone) nofun⟩

/-- A page handed out alone is one page more to hand out after its release. -/
lemma free_spec (h : ⟨p, 0⟩ ∈ s.live) (hp : p < 2 ^ 40) :
  (s.free (frameOf p)).live = s.live.erase ⟨p, 0⟩
    ∧ (s.free (frameOf p)).pmm.freePhysPages = s.pmm.freePhysPages + 1
    ∧ ∀ q, (s.free (frameOf p)).Avail q ↔ q = p ∨ s.Avail q
  := by
  obtain ⟨L, hinv⟩ := s.holds
  have hpage := pageOf_frameOf hp
  have hfree : ⟨pageOf (frameOf p), 0⟩ ∈ s.live := by rwa [hpage]
  have hlive : (s.free (frameOf p)).live = s.live.erase ⟨p, 0⟩ := by
    rw [free, dif_pos hfree]
    exact congrArg (fun q => s.live.erase ⟨q, 0⟩) hpage
  refine ⟨hlive, ?_, fun q => ?_⟩
  · rw [free, dif_pos hfree]
    exact (hinv.free_page hfree).2
  have hperm := perm_cons_erase h
  have hdisj := (hperm.pairwise_iff fun hd => hd.symm).mp s.live_spec.2
  have hcons : ∀ b ∈ s.live, b = ⟨p, 0⟩ ∨ b ∈ s.live.erase ⟨p, 0⟩ :=
    fun b hb => mem_cons.mp (hperm.mem_iff.mp hb)
  rw [Avail, hlive]
  constructor
  · rintro ⟨hq, hout⟩
    by_cases hqp : q = p
    · exact .inl hqp
    refine .inr ⟨hq, fun b hb hqb => ?_⟩
    rcases hcons b hb with rfl | hb
    · exact hqp (mem_single.mp hqb)
    · exact hout b hb hqb
  · rintro (rfl | ⟨hq, hout⟩)
    · exact ⟨s.live_spec.1 _ h, fun b hb hqb =>
        ((pairwise_cons.mp hdisj).1 b hb).notMem (mem_single.mpr rfl) hqb⟩
    · exact ⟨hq, fun b hb => hout b (mem_of_mem_erase hb)⟩

lemma frameOf_lt (s : PagePool H total) (htotal : total ≤ 2 ^ 40) {p : ℕ} (hp : p ∈ H) :
  frameOf p < BitVec.ofNat 64 (total * pageSize)
  := by
  have hlt := s.lt_total hp
  rw [BitVec.lt_def, toNat_frameOf (s.page_lt htotal hp), BitVec.toNat_ofNat, pageSize]
  omega

/-- The buddy allocator of a machine with at most 2^52 bytes. -/
def frames (H : Set ℕ) (total : ℕ) (htotal : total ≤ 2 ^ 40) : FrameAllocator (PagePool H total) where
  alloc := alloc
  free := free
  count s := s.pmm.freePhysPages
  avail s := {f | ∃ p, f = frameOf p ∧ s.Avail p}
  held s := {f | ∃ p, f = frameOf p ∧ ⟨p, 0⟩ ∈ s.live}
  disjoint s := by
    rw [Set.disjoint_left]
    rintro _ ⟨p, rfl, hp, hout⟩ ⟨q, hqp, hq⟩
    have heq := frameOf_inj (s.page_lt htotal hp) (s.page_lt htotal (s.live_spec.1 _ hq)) hqp
    exact hout ⟨q, 0⟩ hq (mem_single.mpr heq)
  alloc_eq_none _ := alloc_eq_none
  alloc_mem h := by
    obtain ⟨p, rfl, hp, -⟩ := alloc_eq_some h
    exact ⟨p, rfl, hp⟩
  avail_alloc {s s' f} h := by
    obtain ⟨p, rfl, hp, hlive, -⟩ := alloc_eq_some h
    ext g
    constructor
    · rintro ⟨q, rfl, hq, hout⟩
      rw [hlive] at hout
      refine ⟨⟨q, rfl, hq, fun b hb => hout b (List.mem_cons_of_mem _ hb)⟩, fun heq => ?_⟩
      have heq := frameOf_inj (s.page_lt htotal hq) (s.page_lt htotal hp.1) heq
      exact hout ⟨p, 0⟩ List.mem_cons_self (mem_single.mpr heq)
    · rintro ⟨⟨q, rfl, hq, hout⟩, hne⟩
      refine ⟨q, rfl, hq, fun b hb hqb => ?_⟩
      rw [hlive] at hb
      rcases List.mem_cons.mp hb with rfl | hb
      · exact hne (congrArg frameOf (mem_single.mp hqb))
      · exact hout b hb hqb
  held_alloc h := by
    obtain ⟨p, rfl, hp, hlive, -⟩ := alloc_eq_some h
    ext g
    rw [Set.mem_insert_iff]
    constructor
    · rintro ⟨q, rfl, hq⟩
      rw [hlive] at hq
      rcases List.mem_cons.mp hq with heq | hq
      · exact .inl (congrArg frameOf (Block.mk.inj heq).1)
      · exact .inr ⟨q, rfl, hq⟩
    · rintro (rfl | ⟨q, rfl, hq⟩)
      · exact ⟨p, rfl, by rw [hlive]; exact List.mem_cons_self⟩
      · exact ⟨q, rfl, by rw [hlive]; exact List.mem_cons_of_mem _ hq⟩
  count_alloc h := by
    obtain ⟨p, -, -, -, hcount⟩ := alloc_eq_some h
    exact hcount
  avail_free {s _} h := by
    obtain ⟨p, rfl, hp⟩ := h
    obtain ⟨-, -, havail⟩ := free_spec hp (s.page_lt htotal (s.live_spec.1 _ hp))
    ext g
    rw [Set.mem_insert_iff]
    constructor
    · rintro ⟨q, rfl, hq⟩
      rcases (havail q).mp hq with rfl | hq
      · exact .inl rfl
      · exact .inr ⟨q, rfl, hq⟩
    · rintro (rfl | ⟨q, rfl, hq⟩)
      · exact ⟨p, rfl, (havail p).mpr (.inl rfl)⟩
      · exact ⟨q, rfl, (havail q).mpr (.inr hq)⟩
  held_free {s _} h := by
    obtain ⟨p, rfl, hp⟩ := h
    have hlt : ∀ q, ⟨q, 0⟩ ∈ s.live → q < 2 ^ 40 :=
      fun q hq => s.page_lt htotal (s.live_spec.1 _ hq)
    obtain ⟨hlive, -, -⟩ := free_spec hp (hlt p hp)
    have hnodup : s.live.Nodup := by
      apply s.live_spec.2.imp
      rintro b c hd rfl
      exact hd.notMem b.start_mem b.start_mem
    ext g
    constructor
    · rintro ⟨q, rfl, hq⟩
      rw [hlive, hnodup.mem_erase_iff] at hq
      refine ⟨⟨q, rfl, hq.2⟩, fun heq => hq.1 ?_⟩
      rw [frameOf_inj (hlt q hq.2) (hlt p hp) heq]
    · rintro ⟨⟨q, rfl, hq⟩, hne⟩
      refine ⟨q, rfl, ?_⟩
      rw [hlive, hnodup.mem_erase_iff]
      exact ⟨fun heq => hne (congrArg frameOf (Block.mk.inj heq).1), hq⟩
  count_free {s _} h := by
    obtain ⟨p, rfl, hp⟩ := h
    exact (free_spec hp (s.page_lt htotal (s.live_spec.1 _ hp))).2.1
  totalMemory := BitVec.ofNat 64 (total * pageSize)
  aligned {s _} h := by
    have hpage : ∃ p ∈ H, _ = frameOf p := h.elim (fun ⟨p, hf, hp⟩ => ⟨p, hp.1, hf⟩)
      fun ⟨p, hf, hp⟩ => ⟨p, s.live_spec.1 _ hp, hf⟩
    obtain ⟨p, hp, rfl⟩ := hpage
    exact frameOf_and_addrMask (s.page_lt htotal hp)
  below {s _} h := by
    have hpage : ∃ p ∈ H, _ = frameOf p := h.elim (fun ⟨p, hf, hp⟩ => ⟨p, hp.1, hf⟩)
      fun ⟨p, hf, hp⟩ => ⟨p, s.live_spec.1 _ hp, hf⟩
    obtain ⟨p, hp, rfl⟩ := hpage
    exact s.frameOf_lt htotal hp

/-- Sixteen usable pages above a reserved one. -/
def sixteenPages : Memmap where
  entries := [⟨0, 4096, 1⟩, ⟨4096, 65536, 0⟩]
  aligned := by decide
  bounded := by decide
  disjoint := by decide

/-- The pages that are left after the page descriptors. -/
def bootPages : Set ℕ := {p | p ∈ Pmm.initPfns [⟨0, 4096, 1⟩, ⟨8192, 61440, 0⟩]}

/-- The allocator after `pmm_init` on sixteen pages. -/
def boot : PagePool bootPages 17 where
  pmm := ((Pmm.initPfns [⟨0, 4096, 1⟩, ⟨8192, 61440, 0⟩]).foldl Pmm.initPage
    (Pmm.empty 17)).syncLegacyGlobals
  live := []
  holds := Pmm.holds_pmmInit (rfl : Pmm.pmmInit sixteenPages = _)
  pages := by decide +kernel

/-- Its pages. -/
def bootFrames : FrameAllocator (PagePool bootPages 17) := frames bootPages 17 (by decide)

lemma count_boot : bootFrames.count boot = 15
  := by
  decide +kernel

/-- A frame of another page is not one of them. -/
lemma notMem_avail_boot (s : PagePool bootPages 17) {f : Word}
    (h : pageOf f ∉ Pmm.initPfns [⟨0, 4096, 1⟩, ⟨8192, 61440, 0⟩]) : f ∉ bootFrames.avail s
  := by
  rintro ⟨p, rfl, hmem, -⟩
  rw [pageOf_frameOf (s.page_lt (by decide) hmem)] at h
  exact h hmem

/-- The allocator after some more pages are handed out. -/
def drained (n : ℕ) : PagePool bootPages 17 :=
  (List.range n).foldl (fun s _ => (s.alloc.map Prod.snd).getD s) boot

end PagePool
