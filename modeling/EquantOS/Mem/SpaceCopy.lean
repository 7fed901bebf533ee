import EquantOS.Mem.Copying

/-!
# The copy of an address space

What `vmm_clone_address_space` should do, and when it does.  It panics if the memory runs out at a table;
if it runs out at a page then the pages that are not cached stay behind in the teardown of the copy, and
the out-of-memory killer has given back pages of its victim; a copy that succeeds leaves large pages out,
and its teardown leaves behind the pages that are not cached.
-/

open List

namespace Paging

open PagePool Paging BitVec

variable {σ : Type} {P : FrameAllocator σ} {w₀ w w' : Paging σ} {child parent v e : Word}
  {made : List (List ℕ)} {done : List (Word × Word)}

/-! ### Translation -/

/-- What a large page maps a page within it to. -/
def largeMapping (shift : ℕ) (e v : Word) : Mapping where
  frame := (e &&& pteAddrMask) >>> shift <<< shift ||| (v <<< (64 - shift) >>> (64 - shift))
  flags := e &&& pteFlagsMask

/-- What the processor finds for an address below a table. -/
def translateFrom (mem : Word → ℕ → Word) : ℕ → Word → Word → Option Mapping
  | 0, pt, v => Mapping.ofEntry (mem pt (tableIdx 12 v))
  | n + 1, table, v =>
    if present (mem table (tableIdx (12 + 9 * (n + 1)) v)) then
      if hasBit pteHuge (mem table (tableIdx (12 + 9 * (n + 1)) v)) then
        some (largeMapping (12 + 9 * (n + 1)) (mem table (tableIdx (12 + 9 * (n + 1)) v)) v)
      else translateFrom mem n (mem table (tableIdx (12 + 9 * (n + 1)) v) &&& pteAddrMask) v
    else none

/-- What the processor finds for an address. -/
def translate (mem : Word → ℕ → Word) (root v : Word) : Option Mapping :=
  if present (mem root (pml4Idx v)) then
    translateFrom mem 2 (mem root (pml4Idx v) &&& pteAddrMask) v
  else none

lemma translateFrom_of_leafFrom {mem : Word → ℕ → Word} {n : ℕ} {table : Word}
    (h : leafFrom mem n table v = some e) :
  translateFrom mem n table v = some ⟨e &&& pteAddrMask, e &&& pteFlagsMask⟩
  := by
  induction n generalizing table with
  | zero =>
    rw [leafFrom] at h
    split at h
    case isTrue hpresent =>
      obtain rfl := Option.some.inj h
      exact if_pos hpresent
    case isFalse => cases h
  | succ n ih =>
    rw [leafFrom] at h
    split at h
    case isTrue hleads =>
      rw [leadsOn, Bool.and_eq_true, Bool.not_eq_true'] at hleads
      rw [translateFrom, if_pos hleads.1, hleads.2]
      exact ih h
    case isFalse => cases h

lemma translate_of_leafOf {mem : Word → ℕ → Word} (h : leafOf mem parent v = some e) :
  translate mem parent v = some ⟨e &&& pteAddrMask, e &&& pteFlagsMask⟩
  := by
  rw [leafOf] at h
  split at h
  case isTrue hpresent =>
    rw [translate, if_pos hpresent]
    exact translateFrom_of_leafFrom h
  case isFalse => cases h

/-- Without large pages the processor finds the entry of the last level. -/
lemma Tables.translate (h : Tables P 256 child w) (hv : UserPage v) :
  Paging.translate w.mem child v = Mapping.ofEntry (w.entry child v)
  := by
  have hzero : present 0#64 = false := by decide
  have hpath := pagePath_mem hv.pml4Idx_lt
  have hsmall₁ : ∀ pdpt, w.table child [pml4Idx v] = some pdpt →
      hasBit pteHuge (w.mem pdpt (pdptIdx v)) = false := fun pdpt =>
    h.small [pml4Idx v] (pdptIdx v) pdpt (paths_closed (i := pdIdx v) hpath)
  have hsmall₂ : ∀ pd, w.table child [pml4Idx v, pdptIdx v] = some pd →
      hasBit pteHuge (w.mem pd (pdIdx v)) = false := fun pd =>
    h.small [pml4Idx v, pdptIdx v] (pdIdx v) pd hpath
  simp only [table, Radix.walk, Option.bind_fun_some, Paging.child] at hsmall₁ hsmall₂
  rw [Paging.translate, entry, entryAt, table_pagePath]
  simp only [translateFrom, Paging.child, Mapping.ofEntry]
  change (if present (w.mem child (pml4Idx v)) = true then _ else _) = _
  have hidx : tableIdx (12 + 9 * (1 + 1)) v = pdptIdx v ∧ tableIdx (12 + 9 * (0 + 1)) v = pdIdx v
      ∧ tableIdx 12 v = ptIdx v := ⟨rfl, rfl, rfl⟩
  rw [hidx.1, hidx.2.1, hidx.2.2]
  grind

/-! ### What a copy is -/

/-- Two addresses are mapped alike: with the same flags, to frames with the same contents. -/
def SameMapping (mem mem' : Word → ℕ → Word) : Option Mapping → Option Mapping → Prop
  | none, none => True
  | some m, some m' => m'.flags = m.flags ∧ mem' m'.frame = mem m.frame
  | _, _ => False

/-- The frames of the tables and of the pages of an address space. -/
def spaceFrames (w : Paging σ) (child : Word) : Set Word :=
  {f | f ∈ w.tables child 256
    ∨ ∃ v, UserPage v ∧ present (w.entry child v) = true ∧ f = w.entry child v &&& pteAddrMask}

/-- The new address space has the pages of the parent and the kernel half, all in frames that were
available and that a teardown gives back; frames in use, those of the parent among them, have not
changed. -/
structure IsCopy (P : FrameAllocator σ) (w : Paging σ) (parent child : Word) (w' : Paging σ) :
    Prop where
  pages (v : Word) : UserPage v →
    SameMapping w.mem w'.mem (translate w.mem parent v) (translate w'.mem child v)
  kernel (i : ℕ) : 256 ≤ i → w'.mem child i = w.mem w.kernelPml4 i
  unchanged (a : Word) : a ∉ P.avail w.pool → w'.mem a = w.mem a
  fresh (f : Word) : f ∈ w'.spaceFrames child → f ∈ P.avail w.pool
  returned (f : Word) : f ∈ w'.spaceFrames child →
    f ∈ P.avail (w'.vmmDestroyAddressSpace P child).pool

/-- `vmm_clone_address_space` makes a copy, or fails without a change to the number of free pages. -/
def CopyOk (P : FrameAllocator σ) (w : Paging σ) (cr3 : Word) : Prop :=
  match w.vmmCloneAddressSpace P cr3 with
  | none => False
  | some (none, w') => P.count w'.pool = P.count w.pool
  | some (some child, w') => IsCopy P w (cr3 &&& pteAddrMask) child w'

/-- The pages of the user half are all 4 KB pages. -/
def NoLarge (mem : Word → ℕ → Word) (parent : Word) : Prop :=
  ∀ v, UserPage v → (translate mem parent v).isSome = true → (leafOf mem parent v).isSome = true

/-- There is memory for all tables and pages, all pages are cached and none is large; or the memory runs
out at a page, and as many pages as the copy then has that are not cached are those of the victim. -/
def CopySafe (P : FrameAllocator σ) (w : Paging σ) (cr3 : Word) : Prop :=
  let ps := leaves w.mem (cr3 &&& pteAddrMask)
  match copyEnding (P.count w.pool) (ps.map Prod.fst) with
  | .complete => (∀ p ∈ ps, cached p = true) ∧ NoLarge w.mem (cr3 &&& pteAddrMask)
  | .outOfPages copied => ((ps.take copied).filter fun p => !cached p).length = w.victim.length
  | .panic => False

/-- The frames of the parent, of the kernel and of the victim are in use. -/
structure InUse (P : FrameAllocator σ) (w : Paging σ) (parent : Word) : Prop where
  tables (a : Word) : a ∈ visit w.mem parent → a ∉ P.avail w.pool
  pages (p : Word × Word) : p ∈ leaves w.mem parent → p.2 &&& pteAddrMask ∉ P.avail w.pool
  kernel : w.kernelPml4 ∉ P.avail w.pool
  nodup : w.victim.Nodup
  victim (f : Word) : f ∈ w.victim → f ∈ P.held w.pool

/-! ### The copy as a run over the pages -/

/-- A page that is copied is added. -/
lemma Tables.pageAdded_of_clonePage (h : Tables P 256 child w) (hv : UserPage v)
    (hok : clonePage P child v e w = .ok w') :
  ∃ f pte contents added, PageAdded P child v f pte contents added w w'
  := by
  cases halloc : P.alloc w.pool with
  | none =>
    rw [clonePage_of_none v e halloc] at hok
    exact absurd hok nofun
  | some r =>
    obtain ⟨f, s⟩ := r
    rw [clonePage_of_some v e halloc] at hok
    obtain ⟨htables₂, -, -⟩ := h.fill halloc (w.mem (e &&& pteAddrMask))
    cases hmap : ((w.withPool s).fill f (w.mem (e &&& pteAddrMask))).vmmMap P child v f
      (e &&& pteFlagsMask) with
    | none =>
      rw [hmap] at hok
      exact absurd hok nofun
    | some w₁ =>
      rw [hmap] at hok
      obtain rfl := Except.ok.inj hok
      obtain ⟨w₃, pt, hgrown, hpt, rfl⟩ := (htables₂.vmmMap hv.pml4Idx_lt _ _).2 _ hmap
      exact ⟨f, _, _, _, h.pageAdded _ hv halloc hgrown hpt⟩

/-- While pages are copied, the frames that were in use keep their contents. -/
structure Filling (P : FrameAllocator σ) (w₀ : Paging σ) (child : Word) (w : Paging σ) : Prop where
  tables : Tables P 256 child w
  old (a : Word) : a ∉ P.avail w₀.pool → w.mem a = w₀.mem a
  fresh (a : Word) : a ∈ w.tables child 256 → a ∈ P.avail w₀.pool
  avail (a : Word) : a ∈ P.avail w.pool → a ∈ P.avail w₀.pool

lemma Filling.clonePage (h : Filling P w₀ child w) (hv : UserPage v)
    (hok : clonePage P child v e w = .ok w') : Filling P w₀ child w'
  := by
  obtain ⟨f, pte, contents, added, ha⟩ := h.tables.pageAdded_of_clonePage hv hok
  constructor
  · exact ha.tables
  · intro a hout
    rw [ha.kept a (fun ht => hout (h.fresh a ht)) fun hav => hout (h.avail a hav)]
    exact h.old a hout
  · exact fun a ht => (ha.made a ht).elim (h.fresh a) fun hav => h.avail a hav.1
  · exact fun a hav => h.avail a ((ha.avail a).mp hav).1.1

lemma Copying.filling (h : Copying P w₀ child made done w) : Filling P w₀ child w :=
  ⟨h.tables, h.old, fun a ha => h.fresh a (.inl ha), fun a ha => ((h.avail a).mp ha).1⟩

/-- The copy ends as the number of free pages and the pages of the parent tell. -/
lemma ended_cloneSpace (huse : InUse P w₀ parent) (h : Copying P w₀ child [[]] [] w) :
  Ended P w₀ child (leaves w₀.mem parent) (cloneSpace P child parent w)
    (ending (P.count w.pool) [[]] 0 ((leaves w₀.mem parent).map Prod.fst))
  := by
  have huser : ∀ p ∈ leaves w₀.mem parent, UserPage p.1 := by
    rintro ⟨v, e⟩ hp
    exact (mem_leaves.mp hp).1
  rw [cloneSpace_eq (I := Filling P w₀ child) (T := {a | a ∉ P.avail w₀.pool}) (U := UserPage)
    (fun w hw a ha => hw.old a ha) (fun w w' v e hv hw hok => hw.clonePage hv hok) huse.tables huser
    h.filling]
  exact h.clonePages_nil (fun p hp => ⟨huser p hp, huse.pages p hp⟩) (nodup_leaves w₀.mem parent)

/-! ### A copy that fails -/

/-- The victim's pages are given back, and then the copy. -/
lemma Copying.count_destroy (huse : InUse P w₀ parent) (h : Copying P w₀ child made done w) :
  P.count ((w.oomKiller P).vmmDestroyAddressSpace P child).pool
    = P.count w.pool + w₀.victim.length + (made.length + (done.filter cached).length)
  := by
  have hvictim : ∀ f ∈ w.victim, f ∈ P.held w.pool := fun f hf =>
    (h.held f).mpr (.inl (huse.victim f (h.victim ▸ hf)))
  obtain ⟨-, hheld, hcount⟩ := P.freeAll_spec (h.victim ▸ huse.nodup) hvictim
  have hback : ∀ f ∈ teardown w.mem P.totalMemory child,
      f ∈ P.held (P.freeAll w.pool w.victim) := by
    intro f hf
    have hspace : f ∈ w.tables child 256 ∨ f ∈ w.copies child done :=
      (h.mem_teardown.mp hf).imp_right fun hmem => (filter_sublist.map _).subset hmem
    rw [hheld]
    refine ⟨(h.held f).mpr (.inr hspace), fun hmem => ?_⟩
    exact P.notMem_held_of_avail (h.fresh f hspace) (huse.victim f (h.victim ▸ hmem))
  obtain ⟨-, -, hcount'⟩ := P.freeAll_spec h.nodup_teardown hback
  change P.count (P.freeAll (P.freeAll w.pool w.victim) (teardown w.mem P.totalMemory child)) = _
  rw [hcount', hcount, h.length_teardown, h.victim]

/-- A failed copy leaves the number of free pages if the victim makes up for what stays behind. -/
lemma Copying.count_eq_iff (huse : InUse P w₀ parent) (h : Copying P w₀ child made done w)
    (hzero : P.count w.pool = 0) :
  P.count ((w.oomKiller P).vmmDestroyAddressSpace P child).pool = P.count w₀.pool
    ↔ (done.filter fun p => !cached p).length = w₀.victim.length
  := by
  have hlen := length_eq_length_filter_add (l := done) cached
  rw [h.count_destroy huse, h.count, hzero]
  omega

/-! ### A copy that succeeds -/

lemma or_eq_of_and_eq {x y : Word} (h : x &&& y = y) : x ||| y = x
  := by
  rw [← h]
  ext i hi
  rw [getElem_or, getElem_and]
  cases x[i] <;> rfl

lemma and_flagsMask_or_present (h : present e) :
  (e &&& pteFlagsMask) ||| ptePresent = e &&& pteFlagsMask
  := by
  have hpresent : e &&& ptePresent = ptePresent := by
    rw [present, hasBit, bne_iff_ne] at h
    have hone : ptePresent = 1#64 := rfl
    have hbit := and_one_eq_setWidth_ofBool_getLsbD (x := e)
    rw [hone, hbit] at h ⊢
    cases hb : e.getLsbD 0 with
    | false =>
      rw [hb] at h
      exact absurd rfl h
    | true => rfl
  apply or_eq_of_and_eq
  rw [BitVec.and_assoc]
  exact hpresent

/-- A page that is copied is mapped like that of the parent. -/
lemma Copying.sameMapping (h : Copying P w₀ child made done w) (hp : (v, e) ∈ done)
    (hpresent : present e) :
  SameMapping w₀.mem w.mem (some ⟨e &&& pteAddrMask, e &&& pteFlagsMask⟩)
    (translate w.mem child v)
  := by
  have hflags := h.flags v e hp
  have hentry : w.entry child v &&& pteFlagsMask = e &&& pteFlagsMask := by
    rw [hflags, mapEntry_and_flagsMask, BitVec.and_assoc, BitVec.and_self,
      and_flagsMask_or_present hpresent]
  have hmapped : Mapping.ofEntry (w.entry child v)
      = some ⟨w.entry child v &&& pteAddrMask, e &&& pteFlagsMask⟩ := by
    rw [Mapping.ofEntry, if_pos (by rw [hflags]; exact present_mapEntry ..), hentry]
  rw [h.tables.translate (h.user v e hp), hmapped]
  exact ⟨rfl, h.contents v e hp⟩

lemma Copying.translate_eq_none (h : Copying P w₀ child made done w) (hv : UserPage v)
    (hnot : v ∉ done.map Prod.fst) : translate w.mem child v = none
  := by
  rw [h.tables.translate hv, Mapping.ofEntry, h.absent v hv hnot]
  rfl

/-- The pages of the copy are those of the parent unless this has large ones. -/
lemma Copying.pages_iff (h : Copying P w₀ child made (leaves w₀.mem parent) w) :
  (∀ v, UserPage v → SameMapping w₀.mem w.mem (translate w₀.mem parent v)
      (translate w.mem child v)) ↔ NoLarge w₀.mem parent
  := by
  refine forall_congr' fun v => imp_congr_right fun hv => ?_
  cases hleaf : leafOf w₀.mem parent v with
  | some e =>
    rw [translate_of_leafOf hleaf]
    exact ⟨fun _ _ => rfl, fun _ =>
      h.sameMapping (mem_leaves.mpr ⟨hv, hleaf⟩) (present_of_leafOf hleaf)⟩
  | none =>
    have hnot : v ∉ (leaves w₀.mem parent).map Prod.fst := by
      intro hmem
      obtain ⟨⟨u, e⟩, hu, rfl⟩ := mem_map.mp hmem
      exact absurd (hleaf.symm.trans (mem_leaves.mp hu).2) nofun
    rw [h.translate_eq_none hv hnot]
    cases translate w₀.mem parent v with
    | none => exact ⟨fun _ => nofun, fun _ => trivial⟩
    | some m => exact ⟨False.elim, fun himp => absurd (himp rfl) nofun⟩

lemma Copying.mem_spaceFrames (h : Copying P w₀ child made done w) {f : Word} :
  f ∈ w.spaceFrames child ↔ f ∈ w.tables child 256 ∨ f ∈ w.copies child done
  := by
  refine or_congr Iff.rfl ?_
  constructor
  · rintro ⟨v, hv, hpresent, rfl⟩
    obtain ⟨e, he⟩ := h.mem_done hv hpresent
    exact mem_map.mpr ⟨(v, e), he, rfl⟩
  · intro hf
    obtain ⟨⟨v, e⟩, hp, rfl⟩ := mem_map.mp hf
    refine ⟨v, h.user v e hp, ?_, rfl⟩
    rw [h.flags v e hp]
    exact present_mapEntry ..

/-- All frames of the copy are given back if all its pages are cached. -/
lemma Copying.returned_iff (h : Copying P w₀ child made done w) :
  (∀ f ∈ w.spaceFrames child, f ∈ P.avail (w.vmmDestroyAddressSpace P child).pool)
    ↔ ∀ p ∈ done, cached p
  := by
  have hheld : ∀ f ∈ teardown w.mem P.totalMemory child, f ∈ P.held w.pool := fun f hf =>
    (h.held f).mpr (.inr ((h.mem_teardown.mp hf).imp_right fun hmem =>
      (filter_sublist.map _).subset hmem))
  obtain ⟨havail, -, -⟩ := P.freeAll_spec h.nodup_teardown hheld
  have hback : ∀ f, f ∈ w.spaceFrames child →
      (f ∈ P.avail (w.vmmDestroyAddressSpace P child).pool
        ↔ f ∈ teardown w.mem P.totalMemory child) := by
    intro f hf
    change f ∈ P.avail (P.freeAll w.pool (teardown w.mem P.totalMemory child)) ↔ _
    rw [havail]
    exact ⟨fun hor => hor.resolve_left (h.notMem_avail (h.mem_spaceFrames.mp hf)), .inr⟩
  constructor
  · rintro hall ⟨v, e⟩ hp
    have hmem : w.entry child v &&& pteAddrMask ∈ w.copies child done :=
      mem_map.mpr ⟨(v, e), hp, rfl⟩
    have hspace := h.mem_spaceFrames.mpr (.inr hmem)
    have hcopy := (h.mem_teardown.mp ((hback _ hspace).mp (hall _ hspace))).resolve_left
      (h.apart _ hmem)
    obtain ⟨p, hfilter, heq⟩ := mem_map.mp hcopy
    obtain ⟨hp', hcached⟩ := mem_filter.mp hfilter
    rwa [inj_on_of_nodup_map h.distinct hp' hp heq] at hcached
  · intro hall f hf
    rw [hback f hf, h.mem_teardown, filter_eq_self.mpr hall]
    exact h.mem_spaceFrames.mp hf

/-- A copy is complete unless the parent has large pages or pages that are not cached. -/
lemma Copying.isCopy_iff (h : Copying P w₀ child made (leaves w₀.mem parent) w) :
  IsCopy P w₀ parent child w
    ↔ (∀ p ∈ leaves w₀.mem parent, cached p) ∧ NoLarge w₀.mem parent
  := by
  constructor
  · intro hcopy
    exact ⟨h.returned_iff.mp hcopy.returned, h.pages_iff.mp hcopy.pages⟩
  · rintro ⟨hcached, hsmall⟩
    exact ⟨h.pages_iff.mpr hsmall, h.upper, h.old, fun f hf => h.fresh f (h.mem_spaceFrames.mp hf),
      h.returned_iff.mpr hcached⟩

/-! ### The result -/

/-- `vmm_clone_address_space` makes a copy, or fails without a change to the number of free pages, exactly
if there is memory for the tables that it begins, no page is large, and no page that is not cached stays
behind. -/
theorem copyOk_iff (cr3 : Word) (huse : InUse P w (cr3 &&& pteAddrMask)) :
  CopyOk P w cr3 ↔ CopySafe P w cr3
  := by
  cases halloc : P.alloc w.pool with
  | none =>
    have hzero := (P.alloc_eq_none w.pool).mp halloc
    have hclone : w.vmmCloneAddressSpace P cr3 = some (none, w.oomKiller P) := by
      rw [vmmCloneAddressSpace, vmmCreateAddressSpace, pmmAlloc, halloc]
    have hcount : P.count (w.oomKiller P).pool = P.count w.pool + w.victim.length :=
      (P.freeAll_spec huse.nodup huse.victim).2.2
    rw [CopyOk, hclone, CopySafe, copyEnding, if_pos hzero]
    dsimp only
    rw [take_zero, filter_nil, length_nil]
    omega
  | some r =>
    obtain ⟨child, s⟩ := r
    obtain ⟨w₁, hcreate, hcopying, hcount⟩ := copying_create halloc huse.kernel
    have hended := ended_cloneSpace huse hcopying
    have hending : copyEnding (P.count w.pool) ((leaves w.mem (cr3 &&& pteAddrMask)).map Prod.fst)
        = ending (P.count w₁.pool) [[]] 0 ((leaves w.mem (cr3 &&& pteAddrMask)).map Prod.fst) := by
      rw [copyEnding, if_neg (by omega), hcount, Nat.add_sub_cancel]
    rw [CopyOk, CopySafe, vmmCloneAddressSpace, hcreate, hending]
    dsimp only
    cases hend : ending (P.count w₁.pool) [[]] 0
      ((leaves w.mem (cr3 &&& pteAddrMask)).map Prod.fst) with
    | complete =>
      rw [hend] at hended
      obtain ⟨w', made, hok, hcopy⟩ := hended
      rw [hok]
      exact hcopy.isCopy_iff
    | outOfPages copied =>
      rw [hend] at hended
      obtain ⟨w', made, herror, hcopy, -, hzero⟩ := hended
      rw [herror]
      exact hcopy.count_eq_iff huse hzero
    | panic =>
      rw [hend] at hended
      rw [hended]

/-- A parent with one page, with the given entry, in frames above those of the allocator. -/
def home (pte : Word) (pool : PagePool bootPages 17) (victim : List Word) :
    Paging (PagePool bootPages 17) where
  mem a i :=
    if a = 0x100000 ∧ i = 0 then 0x101007
    else if a = 0x101000 ∧ i = 0 then 0x102007
    else if a = 0x102000 ∧ i = 2 then 0x103007
    else if a = 0x103000 ∧ i = 0 then pte
    else if a = 0x104000 then 1
    else 0
  pool := pool
  victim := victim
  kernelPml4 := 0x1000

lemma noLarge_home (pte : Word) (hpte : hasBit pteHuge pte = false)
    (pool : PagePool bootPages 17) (victim : List Word) (parent : Word) :
  NoLarge (home pte pool victim).mem parent
  := by
  have hsmall : ∀ a i, hasBit pteHuge ((home pte pool victim).mem a i) = false := by
    intro a i
    simp only [home]
    split_ifs
    · decide
    · decide
    · decide
    · exact hpte
    · decide
    · decide
  have hfrom : ∀ n table v, (translateFrom (home pte pool victim).mem n table v).isSome →
      (leafFrom (home pte pool victim).mem n table v).isSome := by
    intro n
    induction n with
    | zero =>
      intro table v hsome
      rw [translateFrom, Mapping.ofEntry] at hsome
      rw [leafFrom]
      split at hsome <;> simp_all
    | succ n ih =>
      intro table v hsome
      rw [translateFrom, hsmall] at hsome
      rw [leafFrom, leadsOn, hsmall, Bool.not_false, Bool.and_true]
      split at hsome
      case isTrue hpresent =>
        rw [if_pos hpresent]
        exact ih _ _ hsome
      case isFalse => cases hsome
  intro v _ hsome
  rw [translate] at hsome
  rw [leafOf]
  split at hsome
  case isTrue hpresent =>
    rw [if_pos hpresent]
    exact hfrom _ _ _ hsome
  case isFalse => cases hsome

/-- A cached page is copied. -/
theorem copyOk_iff_home : CopyOk bootFrames (home 0x104007 boot []) 0x100000
  := by
  have hvisit : visit (home 0x104007 boot []).mem 0x100000
      = [0x100000, 0x101000, 0x102000, 0x103000] := by decide +kernel
  have hleaves : leaves (home 0x104007 boot []).mem 0x100000
      = [(0x400000, 0x104007)] := by decide +kernel
  have hmask : (0x100000 : Word) &&& pteAddrMask = 0x100000 := by decide
  have hout : ∀ f : Word, f ∈ [0x100000#64, 0x101000, 0x102000, 0x103000, 0x104000, 0x1000] →
      f ∉ bootFrames.avail boot := by
    intro f hf
    have hall : ([0x100000#64, 0x101000, 0x102000, 0x103000, 0x104000, 0x1000].all fun f =>
        decide (pageOf f ∉ Pmm.initPfns [⟨0, 4096, 1⟩, ⟨8192, 61440, 0⟩])) = true := by
      decide +kernel
    exact notMem_avail_boot _ (of_decide_eq_true (all_eq_true.mp hall f hf))
  have hkernel : (home 0x104007 boot []).kernelPml4
      ∉ bootFrames.avail (home 0x104007 boot []).pool := hout _ (by decide)
  have hvictim : (home 0x104007 boot []).victim = [] := rfl
  have hpool : (home 0x104007 boot []).pool = boot := rfl
  have hlarge := noLarge_home 0x104007 (by decide) boot [] 0x100000
  have hending : copyEnding 15 [0x400000] = .complete := by decide +kernel
  -- From here on what the memory is does not matter.
  generalize home 0x104007 boot [] = w at *
  have huse : InUse bootFrames w ((0x100000 : Word) &&& pteAddrMask) := by
    rw [hmask]
    refine ⟨fun a ha => ?_, fun p hp => ?_, hkernel, ?_, fun f hf => ?_⟩
    · rw [hvisit] at ha
      rw [hpool]
      exact hout a (mem_append_left [0x104000, 0x1000] ha)
    · rw [hleaves] at hp
      rw [mem_singleton.mp hp, hpool]
      exact hout _ (by decide)
    · rw [hvictim]
      exact nodup_nil
    · rw [hvictim] at hf
      exact absurd hf not_mem_nil
  refine (copyOk_iff 0x100000 huse).mpr ?_
  rw [CopySafe, hmask, hleaves, hpool, count_boot, map_singleton, hending]
  refine ⟨fun p hp => ?_, hlarge⟩
  rw [mem_singleton.mp hp]
  rfl

/-- Whether a copy is made, and the number of free pages before the call and after it and the teardown of
the copy. -/
def copyCounts (w : Paging (PagePool bootPages 17)) (cr3 : Word) : Option (Bool × ℕ × ℕ) :=
  (w.vmmCloneAddressSpace bootFrames cr3).map fun r =>
    (r.1.isSome, bootFrames.count w.pool, bootFrames.count
      (r.1.elim r.2 fun child => r.2.vmmDestroyAddressSpace bootFrames child).pool)

/-- A page that is not cached is not given back; with three free pages the copy of one page panics; with
one free page it fails, and a page of a victim is free after it. -/
theorem copy_unsafe :
  copyCounts (home 0x104017 boot []) 0x100000 = some (true, 15, 14)
    ∧ copyCounts (home 0x104007 (drained 12) []) 0x100000 = none
    ∧ copyCounts (home 0x104007 (drained 14) [0x2000]) 0x100000 = some (false, 1, 2)
  := by
  decide +kernel

end Paging
