import EquantOS.Mem.Paging

/-!
# Mapping the framebuffer

`dev_fb_mmap` of `fs/devfs.c`.  The pixels, which it clears, and the flag
that turns the console off are left out.  The offset into the framebuffer is added to its address
without a check, so that the pages mapped are pages of the framebuffer only if the request is.
-/

open List

/-- The framebuffer that the boot protocol hands over, at its physical address: it has pixels and lies
in the 52 bits of a physical address. -/
structure Framebuffer where
  phys : Word
  pitch : Word
  height : Word
  nonempty : 0 < pitch.toNat * height.toNat
  fits : phys.toNat + pitch.toNat * height.toNat ≤ 2 ^ 52 - 4096

namespace Framebuffer

variable (fb : Framebuffer)

def totalSize : Word := fb.pitch * fb.height

/-- The end of the last page of the framebuffer. -/
def limit : ℕ := (fb.phys.toNat + fb.pitch.toNat * fb.height.toNat + 4095) / 4096 * 4096

/-- The physical page lies in the framebuffer. -/
def Holds (f : Word) : Prop := fb.phys.toNat ≤ f.toNat ∧ f.toNat + 4096 ≤ fb.limit

/-- `page_count`, for a length that is cut to the framebuffer. -/
def pageCount (length : Word) : ℕ :=
  let length := if length = 0 ∨ fb.totalSize < length then fb.totalSize else length
  ((length + 4095) / 4096).toNat

/-- The pages from the offset on are pages of the framebuffer. -/
def Inside (length offset : Word) : Prop :=
  let first := (fb.phys.toNat + offset.toNat) / 4096 * 4096
  fb.phys.toNat ≤ first ∧ first + fb.pageCount length * 4096 ≤ fb.limit

end Framebuffer

/-- The bits of an address that an entry keeps. -/
lemma toNat_and_addrMask {x : Word} (h : x.toNat < 2 ^ 52) :
  (x &&& pteAddrMask).toNat = x.toNat / 4096 * 4096
  := by
  have hmask : pteAddrMask.toNat = (2 ^ 40 - 1) <<< 12 := by decide
  have hshift : x.toNat &&& ((2 ^ 40 - 1) <<< 12) = ((x.toNat >>> 12) &&& (2 ^ 40 - 1)) <<< 12 := by
    apply Nat.eq_of_testBit_eq
    intro i
    rw [Nat.testBit_and, Nat.testBit_shiftLeft, Nat.testBit_shiftLeft, Nat.testBit_and,
      Nat.testBit_shiftRight]
    by_cases hi : 12 ≤ i
    · rw [Nat.add_sub_cancel' hi, Bool.and_left_comm]
    · simp [hi]
  rw [BitVec.toNat_and, hmask, hshift, Nat.and_two_pow_sub_one_eq_mod, Nat.shiftLeft_eq,
    Nat.shiftRight_eq_div_pow]
  omega

namespace Paging

variable {σ : Type} {P : FrameAllocator σ} {w w' : Paging σ} {root : Word} {fb : Framebuffer}

/-! ### The calls -/

def pteWc : Word := 1 <<< 3

/-- The mappings that `dev_fb_mmap` makes, in order. -/
def fbCalls (fb : Framebuffer) (addr length offset : Word) : List Call :=
  (range (fb.pageCount length)).map fun i =>
    .map (addr + BitVec.ofNat 64 (i * 4096)) (fb.phys + offset + BitVec.ofNat 64 (i * 4096))
      (ptePresent ||| pteWritable ||| pteUser ||| pteWc)

/-- `dev_fb_mmap`.  The error is `ENODEV`. -/
def devFbMmap (P : FrameAllocator σ) (kernelFb : Option Framebuffer) (root : Word) (w : Paging σ)
    (addr length offset : Word) : Option (Except ℕ Word × Paging σ) :=
  match kernelFb with
  | none => some (.error 19, w)
  | some fb => (run P root w (fbCalls fb addr length offset)).map fun w => (.ok addr, w)

/-! ### What mappings leave -/

/-- A mapping is that of its address afterwards, and other addresses have it or what they had. -/
lemma Tables.lookup_vmmMap
    (h : Tables P 512 root w) {v phys flags : Word} (hmap : w.vmmMap P root v phys flags = some w') :
  Tables P 512 root w' ∧ ∀ v', w'.lookup root v' = Mapping.ofEntry (mapEntry phys flags)
    ∨ v ≠ v' ∧ w'.lookup root v' = w.lookup root v'
  := by
  have hlt : ∀ v : Word, pml4Idx v < 512 := tableIdx_lt 39
  obtain ⟨w₁, pt, ⟨hext, -, -, -⟩, hpt, rfl⟩ := (h.vmmMap (hlt v) phys flags).2 w' hmap
  refine ⟨(hext.tables.store_leaf (pagePath_mem (hlt v)) rfl hpt _ _).1, fun v' => ?_⟩
  by_cases hsame : pagePath v' = pagePath v ∧ ptIdx v' = ptIdx v
  · left
    rw [lookup, entry, hsame.1, hsame.2, hext.tables.entryAt_store_self (pagePath_mem (hlt v)) rfl hpt]
  right
  constructor
  · rintro rfl
    exact hsame ⟨rfl, rfl⟩
  rw [← hext.lookup (hlt v'), lookup, entry,
    hext.tables.entryAt_store_of_ne (pagePath_mem (hlt v)) rfl hpt _ (pagePath_mem (hlt v'))]
  · rfl
  · rwa [← not_and_or]

/-- After mappings to frames with a property, an address that was mapped has such a frame. -/
lemma Tables.lookup_run {Q : Word → Prop} {calls : List Call} (h : Tables P 512 root w)
    (hcalls : ∀ c ∈ calls, ∃ v phys flags, c = .map v phys flags ∧ Q (phys &&& pteAddrMask))
    (hrun : Paging.run P root w calls = some w') (v : Word) :
  (∃ m, w'.lookup root v = some m ∧ Q m.frame)
    ∨ (∀ c ∈ calls, c.virt ≠ v) ∧ w'.lookup root v = w.lookup root v
  := by
  induction calls generalizing w with
  | nil =>
    obtain rfl := Option.some.inj hrun
    exact .inr ⟨fun _ hc => absurd hc not_mem_nil, rfl⟩
  | cons c calls ih =>
    obtain ⟨w₁, hstep, hrest⟩ := Option.bind_eq_some_iff.mp hrun
    obtain ⟨⟨u, phys, flags, rfl, hQ⟩, hrestQ⟩ := forall_mem_cons.mp hcalls
    obtain ⟨h₁, hlookup⟩ := h.lookup_vmmMap hstep
    rcases ih h₁ hrestQ hrest with hlater | ⟨hnone, hsame⟩
    · exact .inl hlater
    rw [hsame]
    rcases hlookup v with hmap | ⟨hne, hold⟩
    · rw [Mapping.ofEntry_mapEntry] at hmap
      exact .inl ⟨_, hmap, hQ⟩
    · exact .inr ⟨forall_mem_cons.mpr ⟨hne, hnone⟩, hold⟩

/-! ### Confinement -/

/-- The call maps pages of the framebuffer only, and one that reaches outside fails and maps nothing. -/
structure Confined (fb : Framebuffer) (root length offset : Word) (w : Paging σ)
    (r : Except ℕ Word) (w' : Paging σ) : Prop where
  mapped : ∀ v, r = .ok v → ∀ i < fb.pageCount length,
    ∃ m, w'.lookup root (v + BitVec.ofNat 64 (i * 4096)) = some m ∧ fb.Holds m.frame
  refused : ¬ fb.Inside length offset → (∀ v, r ≠ .ok v) ∧ ∀ v, w'.lookup root v = w.lookup root v

/-- The pages of a request inside the framebuffer. -/
lemma holds_of_inside {length offset : Word} {i : ℕ} (h : fb.Inside length offset)
    (hi : i < fb.pageCount length) :
  fb.Holds ((fb.phys + offset + BitVec.ofNat 64 (i * 4096)) &&& pteAddrMask)
  := by
  have hfits := fb.fits
  obtain ⟨hlow, hhigh⟩ := h
  have hsum : (fb.phys + offset + BitVec.ofNat 64 (i * 4096)).toNat
      = fb.phys.toNat + offset.toNat + i * 4096 := by
    simp only [Framebuffer.limit] at hhigh
    rw [BitVec.toNat_add, BitVec.toNat_add, BitVec.toNat_ofNat]
    omega
  rw [Framebuffer.Holds, toNat_and_addrMask, hsum]
  · omega
  rw [hsum]
  simp only [Framebuffer.limit] at hhigh
  omega

/-- A call is confined to the framebuffer exactly if the pages requested, after the length is cut to the
size of the framebuffer, are pages of the framebuffer. -/
theorem fb_mmap_confined_iff
    {addr length offset : Word} {r : Except ℕ Word} (h : Tables P 512 root w)
    (hcall : devFbMmap P (some fb) root w addr length offset = some (r, w')) :
  Confined fb root length offset w r w' ↔ fb.Inside length offset
  := by
  obtain ⟨w₁, hrun, heq⟩ := Option.map_eq_some_iff.mp hcall
  obtain ⟨rfl, rfl⟩ := Prod.mk.inj heq
  constructor
  · intro hconf
    by_contra hout
    exact (hconf.refused hout).1 _ rfl
  intro hin
  have hcalls := h.lookup_run (Q := fb.Holds) (fun c hc => by
    obtain ⟨j, hj, rfl⟩ := mem_map.mp hc
    exact ⟨_, _, _, rfl, holds_of_inside hin (mem_range.mp hj)⟩) hrun
  refine ⟨fun v hv i hi => ?_, fun hout => absurd hin hout⟩
  obtain rfl := Except.ok.inj hv
  rcases hcalls (addr + BitVec.ofNat 64 (i * 4096)) with hmap | ⟨hnone, -⟩
  · exact hmap
  · exact absurd rfl (hnone _ (mem_map_of_mem (mem_range.mpr hi)))

/-! ### A framebuffer of one page -/

/-- 64 lines of 64 bytes at 0x10000. -/
def onePage : Framebuffer := ⟨0x10000, 64, 64, by decide, by decide⟩

lemma tables_boot : Tables PagePool.bootFrames 512 0x1000 blank
  := (tables_blank 0x1000 (fun _ _ => rfl) (PagePool.notMem_avail_boot _ (by decide +kernel))).1

/-- A page can be mapped at any offset, and gets the frame there. -/
lemma devFbMmap_onePage (offset : Word) :
  ∃ w', devFbMmap PagePool.bootFrames (some onePage) 0x1000 blank 0x400000 4096 offset
      = some (.ok 0x400000, w')
    ∧ ∃ m, w'.lookup 0x1000 0x400000 = some m ∧ m.frame = (0x10000 + offset) &&& pteAddrMask
  := by
  have hcalls : fbCalls onePage 0x400000 4096 offset
      = [.map 0x400000 (0x10000 + offset) (ptePresent ||| pteWritable ||| pteUser ||| pteWc)] := by
    have hcount : onePage.pageCount 4096 = 1 := by decide
    rw [fbCalls, hcount, range_one, map_singleton, Nat.zero_mul, BitVec.add_zero, BitVec.add_zero]
    rfl
  have hpage : IsPage 0x400000 := by decide +kernel
  have hvirt : ∀ c ∈ fbCalls onePage 0x400000 4096 offset, IsPage c.virt ∧ pml4Idx c.virt < 512 := by
    rw [hcalls]
    exact forall_mem_singleton.mpr ⟨hpage, tableIdx_lt 39 _⟩
  obtain ⟨w', hrun⟩ := tables_boot.exists_run hvirt (by
    rw [hcalls]
    exact PagePool.count_boot.symm ▸ (by decide : 3 * 1 ≤ 15))
  refine ⟨w', congrArg (Option.map _) hrun, ?_⟩
  rw [hcalls] at hrun
  rcases tables_boot.lookup_run (Q := (· = (0x10000 + offset) &&& pteAddrMask))
    (forall_mem_singleton.mpr ⟨_, _, _, rfl, rfl⟩) hrun 0x400000 with hmap | ⟨hnone, -⟩
  · exact hmap
  · exact absurd rfl (hnone _ mem_cons_self)

/-- The page at offset 0 is the framebuffer. -/
theorem fb_mmap_first :
  ∃ w', devFbMmap PagePool.bootFrames (some onePage) 0x1000 blank 0x400000 4096 0
      = some (.ok 0x400000, w')
    ∧ Confined onePage 0x1000 4096 0 blank (.ok 0x400000) w'
  := by
  obtain ⟨w', hcall, -⟩ := devFbMmap_onePage 0
  exact ⟨w', hcall, (fb_mmap_confined_iff tables_boot hcall).mpr ⟨by decide, by decide⟩⟩

/-- At offset 4096 the page behind the framebuffer is mapped. -/
theorem fb_mmap_outside :
  ∃ w', devFbMmap PagePool.bootFrames (some onePage) 0x1000 blank 0x400000 4096 4096
      = some (.ok 0x400000, w')
    ∧ (∃ m, w'.lookup 0x1000 0x400000 = some m ∧ m.frame = 0x11000 ∧ ¬ onePage.Holds m.frame)
    ∧ ¬ Confined onePage 0x1000 4096 4096 blank (.ok 0x400000) w'
  := by
  obtain ⟨w', hcall, m, hm, hframe⟩ := devFbMmap_onePage 4096
  refine ⟨w', hcall, ⟨m, hm, hframe, fun hin => ?_⟩, fun hconf => ?_⟩
  · rw [hframe] at hin
    exact absurd hin.2 (by decide)
  · exact (hconf.refused fun hin => absurd hin.2 (by decide)).1 _ rfl

end Paging
