import EquantOS.Mem.Frames
import EquantOS.Mem.TableTree

/-!
# Page tables as a finite map

An operation on a page changes the entry of that page in the last level of the tables and no other entry
of the last level, because different pages have different entries.  A run of operations therefore leaves
each page with what the operations on it have made of it.
-/

open List Option

namespace Paging

open PagePool Radix Paging

variable {σ : Type} {P : FrameAllocator σ} {w w₁ w' : Paging σ} {root a b : Word} {n i l : ℕ}
  {q : List ℕ}

/-! ### Entries of the last level -/

/-- The path to the last table for an address. -/
def pagePath (v : Word) : List ℕ := [pml4Idx v, pdptIdx v, pdIdx v]

/-- The entry of an address, which is zero if there is no table for it. -/
def entry (w : Paging σ) (root v : Word) : Word := w.entryAt root (pagePath v) (ptIdx v)

lemma tableIdx_lt (s : ℕ) (v : Word) : tableIdx s v < 512
  := by
  rw [tableIdx, BitVec.toNat_and]
  exact Nat.lt_of_le_of_lt Nat.and_le_right (by decide)

variable {v : Word}

lemma pagePath_mem (h : pml4Idx v < n) : pagePath v ∈ paths n
  := by
  refine ⟨le_refl 3, fun i hi => ?_, fun i hi => ?_⟩
  · rcases mem_cons.mp hi with rfl | hi
    · exact tableIdx_lt 39 v
    · rcases mem_cons.mp hi with rfl | hi
      · exact tableIdx_lt 30 v
      · rw [mem_singleton.mp hi]
        exact tableIdx_lt 21 v
  · rw [← some.inj hi]
    exact h

section

variable (h : Tables P n root w) (hq : q ∈ paths n) (hlen : q.length = 3)

include h hq hlen

/-- An entry of the last level may be changed. -/
lemma Tables.store_leaf
    (ha : w.table root q = some a)
    (l : ℕ) (e : Word) :
  Tables P n root (w.store a l e)
    ∧ ∀ q' ∈ paths n, (w.store a l e).table root q' = w.table root q'
  := by
  have hout : q ++ [l] ∉ paths n := by
    intro hmem
    have hle := hmem.1
    rw [length_append, hlen, length_singleton] at hle
    omega
  have htable : ∀ q' ∈ paths n, (w.store a l e).table root q' = w.table root q' :=
    fun q' => h.tree.walk_store_of_notMem hq ha hout
  refine ⟨⟨h.tree.congr htable, fun b hb => h.used b (tables_congr htable ▸ hb), ?_⟩, htable⟩
  intro p j b hp hb
  rw [htable p (paths_closed hp)] at hb
  have hba : b ≠ a := (h.ne_leaf hp hb hq hlen ha).symm
  have hkeep : (w.store a l e).mem b j = w.mem b j := store_of_ne (.inl hba)
  rw [hkeep]
  exact h.small p j b hp hb

lemma Tables.entryAt_store_self
    (ha : w.table root q = some a)
    (l : ℕ) (e : Word) :
  (w.store a l e).entryAt root q l = e
  := by
  rw [entryAt, (h.store_leaf hq hlen ha l e).2 q hq, ha]
  exact store_self

lemma Tables.entryAt_store_of_ne
    (ha : w.table root q = some a)
    (e : Word) {q' : List ℕ} {l' : ℕ} (hq' : q' ∈ paths n) (hne : q' ≠ q ∨ l' ≠ l) :
  (w.store a l e).entryAt root q' l' = w.entryAt root q' l'
  := by
  rw [entryAt, entryAt, (h.store_leaf hq hlen ha l e).2 q' hq']
  cases hb : w.table root q' with
  | none => rfl
  | some b =>
    refine store_of_ne (hne.imp_left fun hne hba => hne ?_)
    exact h.tree.inj q' q b hq' hq hb (hba ▸ ha)

end

/-! ### Addresses -/

lemma tableIdx_mask {s : ℕ} (v : Word) (h : (~~~0xFFF#64 >>> s) &&& 0x1FF#64 = 0x1FF#64) :
  tableIdx s (v &&& ~~~0xFFF) = tableIdx s v
  := by
  change ((v &&& ~~~0xFFF#64) >>> s &&& 0x1FF#64).toNat = (v >>> s &&& 0x1FF#64).toNat
  rw [BitVec.ushiftRight_and_distrib, BitVec.and_assoc, h]

lemma idx_mask (v : Word) :
  pml4Idx (v &&& ~~~0xFFF) = pml4Idx v ∧ pdptIdx (v &&& ~~~0xFFF) = pdptIdx v
    ∧ pdIdx (v &&& ~~~0xFFF) = pdIdx v ∧ ptIdx (v &&& ~~~0xFFF) = ptIdx v
  := ⟨tableIdx_mask v (by decide), tableIdx_mask v (by decide), tableIdx_mask v (by decide),
    tableIdx_mask v (by decide)⟩

lemma tableIdx_eq (s : ℕ) (v : Word) : tableIdx s v = v.toNat / 2 ^ s % 512
  := by
  have hmask : (0x1FF#64 : Word).toNat = 2 ^ 9 - 1 := rfl
  change (v >>> s &&& 0x1FF#64).toNat = _
  rw [BitVec.toNat_and, hmask, Nat.and_two_pow_sub_one_eq_mod, BitVec.toNat_ushiftRight,
    Nat.shiftRight_eq_div_pow]

/-- The address is canonical. -/
def Canonical (v : Word) : Prop := v.toNat < 2 ^ 47 ∨ 2 ^ 64 - 2 ^ 47 ≤ v.toNat

/-- The address is the canonical address of a page. -/
def IsPage (v : Word) : Prop := Canonical v ∧ v.toNat % 4096 = 0

instance (v : Word) : Decidable (IsPage v) :=
  inferInstanceAs (Decidable ((_ < _ ∨ _ ≤ _) ∧ _ = _))

/-- Different pages have different entries. -/
lemma IsPage.eq_of_path {v' : Word} (h : IsPage v) (h' : IsPage v')
    (hpath : pagePath v = pagePath v') (hidx : ptIdx v = ptIdx v') :
  v = v'
  := by
  obtain ⟨hcan, halign⟩ := h
  obtain ⟨hcan', halign'⟩ := h'
  rw [Canonical] at hcan hcan'
  have hv := v.isLt
  have hv' := v'.isLt
  rw [pagePath, pagePath, cons.injEq, cons.injEq, cons.injEq] at hpath
  obtain ⟨h39, h30, h21, -⟩ := hpath
  rw [pml4Idx, tableIdx_eq, tableIdx_eq] at h39
  rw [pdptIdx, tableIdx_eq, tableIdx_eq] at h30
  rw [pdIdx, tableIdx_eq, tableIdx_eq] at h21
  rw [ptIdx, tableIdx_eq, tableIdx_eq] at hidx
  apply BitVec.eq_of_toNat_eq
  omega

/-! ### The operations on entries -/

/-- The entry that `vmm_map` writes. -/
def mapEntry (phys flags : Word) : Word :=
  (phys &&& pteAddrMask) ||| (flags &&& pteFlagsMask) ||| ptePresent

lemma present_mapEntry (phys flags : Word) : present (mapEntry phys flags)
  := by
  rw [mapEntry, present_or, present_ptePresent, Bool.or_true]

lemma mapEntry_and_addrMask (phys flags : Word) :
  mapEntry phys flags &&& pteAddrMask = phys &&& pteAddrMask
  := by
  have hdisjoint : pteFlagsMask &&& pteAddrMask = 0#64 := by decide
  rw [mapEntry, BitVec.and_or_distrib_right, BitVec.and_or_distrib_right, BitVec.and_assoc,
    BitVec.and_assoc, hdisjoint, BitVec.and_self, BitVec.and_zero, BitVec.or_zero]
  exact BitVec.or_zero

lemma mapEntry_and_flagsMask (phys flags : Word) :
  mapEntry phys flags &&& pteFlagsMask = (flags &&& pteFlagsMask) ||| ptePresent
  := by
  have hdisjoint : pteAddrMask &&& pteFlagsMask = 0#64 := by decide
  rw [mapEntry, BitVec.and_or_distrib_right, BitVec.and_or_distrib_right, BitVec.and_assoc,
    BitVec.and_assoc, hdisjoint, BitVec.and_self, BitVec.and_zero, BitVec.zero_or]
  rfl

lemma vmmMap_eq_descend (P : FrameAllocator σ) (w : Paging σ) (root v phys flags : Word) :
  w.vmmMap P root v phys flags
    = (descend P w root (pagePath v)).map fun r =>
        r.2.store r.1 (ptIdx v) (mapEntry phys flags)
  := by
  rw [vmmMap]
  simp only [idx_mask v, pagePath, descend, map_bind, bind_eq_bind, Function.comp_def, map_some]
  rfl

/-- `vmm_map` makes the tables that are missing and writes the entry, or panics. -/
lemma Tables.vmmMap (h : Tables P n root w) (hv : pml4Idx v < n) (phys flags : Word) :
  (w.vmmMap P root v phys flags = none
      ↔ P.count w.pool < (w.missing root [] (pagePath v)).length)
    ∧ ∀ w', w.vmmMap P root v phys flags = some w' →
      ∃ w₁ pt, Grown P n root w (w.missing root [] (pagePath v)) w₁
        ∧ w₁.table root (pagePath v) = some pt
        ∧ w' = w₁.store pt (ptIdx v) (mapEntry phys flags)
  := by
  obtain ⟨hnone, hsome⟩ := h.descend (q := []) (a := root) (pagePath_mem hv) rfl
  rw [vmmMap_eq_descend, map_eq_none_iff]
  refine ⟨hnone, fun w' hm => ?_⟩
  obtain ⟨⟨pt, w₁⟩, hd, hw'⟩ := map_eq_some_iff.mp hm
  obtain ⟨hgrown, hpt⟩ := hsome pt w₁ hd
  exact ⟨w₁, pt, hgrown, hpt, hw'.symm⟩

lemma table_pagePath (w : Paging σ) (root v : Word) :
  w.table root (pagePath v) = (child (w.mem root (pml4Idx v))).bind fun pdpt =>
    (child (w.mem pdpt (pdptIdx v))).bind fun pd => child (w.mem pd (pdIdx v))
  := by
  simp only [pagePath, table, walk, bind_fun_some]

lemma vmmUnmap_eq (w : Paging σ) (root v : Word) :
  w.vmmUnmap root v
    = (w.table root (pagePath v)).elim w fun pt => w.store pt (ptIdx v) 0#64
  := by
  rw [vmmUnmap, table_pagePath]
  simp only [idx_mask v, child]
  grind

lemma vmmGetPhys_eq (w : Paging σ) (root v : Word) :
  w.vmmGetPhys root v
    = if present (w.entry root v) then (w.entry root v &&& pteAddrMask) + (v &&& 0xFFF) else 0#64
  := by
  have hzero : present 0#64 = false := by decide
  rw [vmmGetPhys, entry, entryAt, table_pagePath]
  simp only [child]
  grind

lemma Tables.vmmProtect
    (h : Tables P n root w) (hv : pml4Idx v < n) (user writable : Bool) :
  w.vmmProtect root v user writable
    = if present (w.entry root v) then
        (true, (w.table root (pagePath v)).elim w fun pt =>
          w.store pt (ptIdx v) (protectEntry (w.entry root v) user writable))
      else (false, w)
  := by
  have hzero : present 0#64 = false := by decide
  have hsmall : ∀ pd, w.table root [pml4Idx v, pdptIdx v] = some pd →
      hasBit pteHuge (w.mem pd (pdIdx v)) = false :=
    fun pd => h.small [pml4Idx v, pdptIdx v] (pdIdx v) pd (pagePath_mem hv)
  simp only [table, walk, bind_fun_some, child] at hsmall
  rw [Paging.vmmProtect, entry, entryAt, table_pagePath]
  simp only [child]
  grind

/-! ### What a page is mapped to -/

/-- The frame of a page, and the flags. -/
structure Mapping where
  frame : Word
  flags : Word
  deriving DecidableEq, Repr

/-- What an entry of the last level says. -/
def Mapping.ofEntry (e : Word) : Option Mapping :=
  if present e then some ⟨e &&& pteAddrMask, e &&& pteFlagsMask⟩ else none

/-- What a page is mapped to. -/
def lookup (w : Paging σ) (root v : Word) : Option Mapping := Mapping.ofEntry (w.entry root v)

/-- The flags with other rights: a page that the user may not use is not writable, nor is one that is
copied when it is written. -/
def protectFlags (flags : Word) (user writable : Bool) : Word :=
  (flags &&& ~~~(pteUser ||| pteWritable)) ||| (if user then pteUser else 0#64)
    ||| (if user && writable && !hasBit pteCow flags then pteWritable else 0#64)

section

variable (e : Word) (user writable : Bool)

include e user writable

lemma protectEntry_eq :
  protectEntry e user writable = protectFlags e user writable
  := by
  have hcow : ∀ f : Word, hasBit pteCow f = false →
      hasBit pteCow ((e &&& ~~~(pteUser ||| pteWritable)) ||| f) = hasBit pteCow e := by
    intro f hf
    rw [hasBit_or, hf, Bool.or_false, hasBit_and _ _ _ (by decide)]
  rw [protectEntry, protectFlags]
  cases user with
  | false => simp only [Bool.false_eq_true, if_false, Bool.false_and, BitVec.or_zero]
  | true =>
    simp only [if_true, hcow pteUser (by decide)]
    split
    · rfl
    · exact BitVec.or_zero.symm

lemma protectFlags_and_addrMask :
  protectFlags e user writable &&& pteAddrMask = e &&& pteAddrMask
  := by
  have hrights : ∀ b : Bool, ∀ f : Word, f &&& pteAddrMask = 0#64 →
      (if b then f else 0#64) &&& pteAddrMask = 0#64 := by
    intro b f hf
    cases b with
    | false => exact BitVec.zero_and
    | true => exact hf
  rw [protectFlags, BitVec.and_or_distrib_right, BitVec.and_or_distrib_right,
    hrights _ _ (by decide), hrights _ _ (by decide), BitVec.or_zero, BitVec.or_zero,
    BitVec.and_assoc]
  rfl

lemma protectFlags_and_flagsMask :
  protectFlags e user writable &&& pteFlagsMask = protectFlags (e &&& pteFlagsMask) user writable
  := by
  have hrights : ∀ b : Bool, ∀ f : Word, f &&& pteFlagsMask = f →
      (if b then f else 0#64) &&& pteFlagsMask = if b then f else 0#64 := by
    intro b f hf
    cases b with
    | false => exact BitVec.zero_and
    | true => exact hf
  rw [protectFlags, protectFlags, BitVec.and_or_distrib_right, BitVec.and_or_distrib_right,
    hrights _ _ (by decide), hrights _ _ (by decide), hasBit_and _ _ _ (by decide), BitVec.and_assoc,
    BitVec.and_assoc, BitVec.and_comm pteFlagsMask]

lemma present_protectFlags :
  present (protectFlags e user writable) = present e
  := by
  have hrights : ∀ b : Bool, ∀ f : Word, present f = false →
      present (if b then f else 0#64) = false := by
    intro b f hf
    cases b with
    | false => exact (by decide : present 0#64 = false)
    | true => exact hf
  rw [protectFlags, present_or, present_or, hrights _ _ (by decide), hrights _ _ (by decide),
    Bool.or_false, Bool.or_false]
  exact hasBit_and _ _ _ (by decide)

end

namespace Mapping

lemma ofEntry_zero : ofEntry 0#64 = none := by decide

lemma ofEntry_mapEntry (phys flags : Word) :
  ofEntry (mapEntry phys flags)
    = some ⟨phys &&& pteAddrMask, (flags &&& pteFlagsMask) ||| ptePresent⟩
  := by
  rw [ofEntry, if_pos (present_mapEntry phys flags), mapEntry_and_addrMask, mapEntry_and_flagsMask]

lemma ofEntry_protectEntry (e : Word) (user writable : Bool) :
  ofEntry (protectEntry e user writable)
    = (ofEntry e).map fun m => { m with flags := protectFlags m.flags user writable }
  := by
  rw [protectEntry_eq, ofEntry, ofEntry, present_protectFlags, protectFlags_and_addrMask,
    protectFlags_and_flagsMask]
  split <;> rfl

end Mapping

/-! ### Runs -/

/-- A call on 4 KB pages. -/
inductive Call where
  | map (virt phys flags : Word)
  | unmap (virt : Word)
  | protect (virt : Word) (user writable : Bool)
  | getPhys (virt : Word)
  deriving DecidableEq

namespace Call

/-- The address of a call. -/
def virt : Call → Word
  | map v _ _ => v
  | unmap v => v
  | protect v _ _ => v
  | getPhys v => v

/-- What a call makes of the mapping of its page. -/
def apply : Call → Option Mapping → Option Mapping
  | map _ phys flags, _ => some ⟨phys &&& pteAddrMask, (flags &&& pteFlagsMask) ||| ptePresent⟩
  | unmap _, _ => none
  | protect _ user writable, m =>
    m.map fun m => { m with flags := protectFlags m.flags user writable }
  | getPhys _, m => m

end Call

def step (P : FrameAllocator σ) (root : Word) (w : Paging σ) : Call → Option (Paging σ)
  | .map v phys flags => w.vmmMap P root v phys flags
  | .unmap v => some (w.vmmUnmap root v)
  | .protect v user writable => some (w.vmmProtect root v user writable).2
  | .getPhys _ => some w

/-- Make calls in turn, as long as there is memory for the tables. -/
def run (P : FrameAllocator σ) (root : Word) (w : Paging σ) (calls : List Call) : Option (Paging σ) :=
  calls.foldlM (step P root) w

/-- What the calls on a page make of its mapping. -/
def lastMapping (v : Word) (calls : List Call) (m : Option Mapping) : Option Mapping :=
  calls.foldl (fun m c => if c.virt = v then c.apply m else m) m

/-- An entry is changed for one page only. -/
lemma Tables.lookup_store
    (h : Tables P n root w) (hv : IsPage v) (hlt : pml4Idx v < n) {pt : Word}
    (hpt : w.table root (pagePath v) = some pt) (e : Word) {v' : Word} (hv' : IsPage v')
    (hlt' : pml4Idx v' < n) :
  (w.store pt (ptIdx v) e).lookup root v'
    = if v = v' then Mapping.ofEntry e else w.lookup root v'
  := by
  rw [lookup, entry]
  split
  case isTrue heq =>
    rw [← heq, h.entryAt_store_self (pagePath_mem hlt) rfl hpt]
  case isFalse hne =>
    rw [h.entryAt_store_of_ne (pagePath_mem hlt) rfl hpt e (pagePath_mem hlt')]
    · rfl
    · by_contra hcon
      rw [not_or, not_not, not_not] at hcon
      exact hne (hv.eq_of_path hv' hcon.1.symm hcon.2.symm)

lemma Extends.lookup (h : Extends P n root w w') (hv : pml4Idx v < n) :
  w'.lookup root v = w.lookup root v
  := congrArg Mapping.ofEntry (h.leaf (pagePath v) (ptIdx v) (pagePath_mem hv) rfl)

/-- A call changes the mapping of its page and no other. -/
lemma Tables.step
    (h : Tables P n root w) {c : Call} (hc : IsPage c.virt) (hlt : pml4Idx c.virt < n)
    (hstep : step P root w c = some w') :
  Tables P n root w' ∧ ∀ v, IsPage v → pml4Idx v < n →
    w'.lookup root v = if c.virt = v then c.apply (w.lookup root v) else w.lookup root v
  := by
  cases c with
  | map v phys flags =>
    obtain ⟨w₁, pt, ⟨hext, -, -, -⟩, hpt, rfl⟩ := (h.vmmMap hlt phys flags).2 w' hstep
    refine ⟨(hext.tables.store_leaf (pagePath_mem hlt) rfl hpt _ _).1, fun v' hv' hlt' => ?_⟩
    rw [hext.tables.lookup_store hc hlt hpt _ hv' hlt', hext.lookup hlt', Mapping.ofEntry_mapEntry]
    rfl
  | unmap v =>
    obtain rfl := some.inj hstep
    rw [vmmUnmap_eq]
    cases hpt : w.table root (pagePath v) with
    | none =>
      refine ⟨h, fun v' hv' hlt' => ?_⟩
      split
      case isTrue heq =>
        obtain rfl : v = v' := heq
        change w.lookup root v = none
        rw [lookup, entry, entryAt, hpt]
        exact Mapping.ofEntry_zero
      case isFalse => rfl
    | some pt =>
      refine ⟨(h.store_leaf (pagePath_mem hlt) rfl hpt _ _).1, fun v' hv' hlt' => ?_⟩
      exact (h.lookup_store hc hlt hpt _ hv' hlt').trans (by rw [Mapping.ofEntry_zero]; rfl)
  | protect v user writable =>
    obtain rfl := some.inj hstep
    change pml4Idx v < n at hlt
    rw [h.vmmProtect hlt]
    split
    case isTrue hpresent =>
      cases hpt : w.table root (pagePath v) with
      | none =>
        rw [entry, entryAt] at hpresent
        change present (Option.elim (w.table root (pagePath v)) _ _) = true at hpresent
        rw [hpt] at hpresent
        exact absurd hpresent (by decide : ¬ present 0#64)
      | some pt =>
        refine ⟨(h.store_leaf (pagePath_mem hlt) rfl hpt _ _).1, fun v' hv' hlt' => ?_⟩
        refine (h.lookup_store hc hlt hpt _ hv' hlt').trans ?_
        rw [Mapping.ofEntry_protectEntry]
        split
        case isTrue heq =>
          obtain rfl : v = v' := heq
          rfl
        case isFalse => rfl
    case isFalse hpresent =>
      refine ⟨h, fun v' hv' hlt' => ?_⟩
      split
      case isTrue heq =>
        obtain rfl : v = v' := heq
        change w.lookup root v = Option.map _ (w.lookup root v)
        have hnone : w.lookup root v = none := if_neg hpresent
        rw [hnone]
        rfl
      case isFalse => rfl
  | getPhys v =>
    obtain rfl := some.inj hstep
    exact ⟨h, fun v' _ _ => (ite_self _).symm⟩

lemma Tables.run
    (h : Tables P n root w) {calls : List Call} (hcalls : ∀ c ∈ calls, IsPage c.virt ∧ pml4Idx c.virt < n)
    (hrun : run P root w calls = some w') :
  Tables P n root w' ∧ ∀ v, IsPage v → pml4Idx v < n →
    w'.lookup root v = lastMapping v calls (w.lookup root v)
  := by
  induction calls generalizing w with
  | nil =>
    obtain rfl := some.inj hrun
    exact ⟨h, fun _ _ _ => rfl⟩
  | cons c calls ih =>
    obtain ⟨w₁, hstep, hrest⟩ := bind_eq_some_iff.mp hrun
    obtain ⟨hc, hlt⟩ := hcalls c mem_cons_self
    obtain ⟨h₁, hlookup⟩ := h.step hc hlt hstep
    obtain ⟨h', hlast⟩ := ih h₁ (fun d hd => hcalls d (mem_cons_of_mem _ hd)) hrest
    refine ⟨h', fun v hv hv' => ?_⟩
    rw [hlast v hv hv', hlookup v hv hv']
    rfl

/-- An address within a page has the entry of the page. -/
lemma IsPage.entry_add
    (w : Paging σ) (root : Word) {off : Word} (hv : IsPage v) (hoff : off.toNat < 4096) :
  w.entry root (v + off) = w.entry root v ∧ (v + off) &&& 0xFFF = off
  := by
  obtain ⟨hcan, halign⟩ := hv
  have hlt := v.isLt
  have hadd : (v + off).toNat = v.toNat + off.toNat := by
    rw [BitVec.toNat_add]
    omega
  have hidx : ∀ s t : ℕ, 2 ^ s = 4096 * t → 0 < t → tableIdx s (v + off) = tableIdx s v := by
    intro s t hs ht
    have hdiv : (v.toNat + off.toNat) / 4096 = v.toNat / 4096 := by omega
    rw [tableIdx_eq, tableIdx_eq, hadd, hs, ← Nat.div_div_eq_div_mul, ← Nat.div_div_eq_div_mul, hdiv]
  constructor
  · have hpath : pagePath (v + off) = pagePath v := by
      rw [pagePath, pagePath, pml4Idx, pdptIdx, pdIdx, hidx 39 134217728 rfl (by decide),
        hidx 30 262144 rfl (by decide), hidx 21 512 rfl (by decide)]
    have hlast : ptIdx (v + off) = ptIdx v := hidx 12 1 rfl (by decide)
    rw [entry, entry, hpath, hlast]
  · apply BitVec.eq_of_toNat_eq
    have hmask : (0xFFF#64 : Word).toNat = 2 ^ 12 - 1 := rfl
    change ((v + off) &&& 0xFFF#64).toNat = _
    rw [BitVec.toNat_and, hmask, Nat.and_two_pow_sub_one_eq_mod, hadd]
    omega

/-! ### An empty PML4 -/

/-- A PML4 has no tables under entries that are zero. -/
lemma tables_blank (root : Word) (hblank : ∀ i < n, w.mem root i = 0#64)
    (hroot : root ∉ P.avail w.pool) :
  Tables P n root w ∧ (∀ q ∈ paths n, ∀ a, w.table root q = some a → q = [])
    ∧ ∀ v, pml4Idx v < n → w.entry root v = 0#64
  := by
  have hzero : child 0#64 = none := by decide
  have htable : ∀ i q, i < n → w.table root (i :: q) = none := by
    intro i q hi
    rw [table, walk, hblank i hi, hzero]
    rfl
  have hnil : ∀ q ∈ paths n, ∀ a, w.table root q = some a → q = [] := by
    intro q hpath a hq
    cases q with
    | nil => rfl
    | cons i q => cases (htable i q (hpath.2.2 i rfl)).symm.trans hq
  have hroots : ∀ q ∈ paths n, ∀ a, w.table root q = some a → a = root := by
    intro q hpath a hq
    obtain rfl := hnil q hpath a hq
    exact (some.inj hq).symm
  refine ⟨⟨⟨fun p i => paths_closed, fun p q a hpath hpath' hp hq => ?_⟩, ?_, ?_⟩, hnil,
    fun v hv => ?_⟩
  · rw [hnil p hpath a hp, hnil q hpath' a hq]
  · rintro a ⟨q, hpath, hq⟩
    rwa [hroots q hpath a hq]
  · intro q i a hpath hq
    have hq' := hnil q (paths_closed hpath) a hq
    rw [hroots q (paths_closed hpath) a hq, hblank i (by rw [hq'] at hpath; exact hpath.2.2 i rfl)]
    decide
  · rw [entry, entryAt, pagePath, htable _ _ hv]
    rfl

/-! ### Enough memory for the tables -/

lemma length_missing_le (w : Paging σ) (root v : Word) :
  (w.missing root [] (pagePath v)).length ≤ 3 := List.length_filter_le ..

/-- With three frames for each call no call panics. -/
lemma Tables.exists_run
    {calls : List Call} (h : Tables P n root w)
    (hcalls : ∀ c ∈ calls, IsPage c.virt ∧ pml4Idx c.virt < n)
    (hcount : 3 * calls.length ≤ P.count w.pool) :
  ∃ w', Paging.run P root w calls = some w'
  := by
  induction calls generalizing w with
  | nil => exact ⟨w, rfl⟩
  | cons c calls ih =>
    rw [length_cons] at hcount
    obtain ⟨hc, hlt⟩ := hcalls c mem_cons_self
    have hstep : ∃ w₁, Paging.step P root w c = some w₁ ∧ P.count w.pool ≤ P.count w₁.pool + 3 := by
      cases c with
      | map v phys flags =>
        obtain ⟨hnone, hsome⟩ := h.vmmMap hlt phys flags
        have hle := w.length_missing_le root v
        cases hm : w.vmmMap P root v phys flags with
        | none =>
          have hlack := hnone.mp hm
          change _ < (w.missing root [] (pagePath v)).length at hlack
          omega
        | some w₁ =>
          obtain ⟨w₂, pt, hgrown, -, rfl⟩ := hsome w₁ hm
          have hless := hgrown.count
          change _ = _ + (w.missing root [] (pagePath v)).length at hless
          refine ⟨_, hm, ?_⟩
          change _ ≤ P.count w₂.pool + 3
          omega
      | unmap v =>
        refine ⟨_, rfl, ?_⟩
        rw [vmmUnmap_eq]
        cases w.table root (pagePath v) <;> exact Nat.le_add_right _ 3
      | protect v user writable =>
        refine ⟨_, rfl, ?_⟩
        change pml4Idx v < n at hlt
        rw [h.vmmProtect hlt]
        split
        · cases w.table root (pagePath v) <;> exact Nat.le_add_right _ 3
        · exact Nat.le_add_right _ 3
      | getPhys v => exact ⟨w, rfl, Nat.le_add_right _ 3⟩
    obtain ⟨w₁, hstep, hless⟩ := hstep
    obtain ⟨w', hrun⟩ := ih (h.step hc hlt hstep).1
      (fun d hd => hcalls d (mem_cons_of_mem _ hd)) (by omega)
    exact ⟨w', bind_eq_some_iff.mpr ⟨w₁, hstep, hrun⟩⟩

/-! ### The refinement -/

/-- After calls on pages, each page has what the calls on it have made of its mapping, and
`vmm_get_phys` tells its frame. -/
theorem run_refines
    {calls : List Call} (h : Tables P 512 root w) (hcalls : ∀ c ∈ calls, IsPage c.virt)
    (hrun : run P root w calls = some w') :
  ∀ v, IsPage v →
    w'.lookup root v = lastMapping v calls (w.lookup root v)
    ∧ ∀ off : Word, off.toNat < 4096 →
      w'.vmmGetPhys root (v + off)
        = (lastMapping v calls (w.lookup root v)).elim 0#64 fun m => m.frame + off
  := by
  intro v hv
  have hlt : ∀ v : Word, pml4Idx v < 512 := tableIdx_lt 39
  have hlookup := (h.run (fun c hc => ⟨hcalls c hc, hlt _⟩) hrun).2 v hv (hlt v)
  refine ⟨hlookup, fun off hoff => ?_⟩
  obtain ⟨hentry, hmask⟩ := IsPage.entry_add w' root hv hoff
  rw [← hlookup, vmmGetPhys_eq, hentry, hmask, lookup, Mapping.ofEntry]
  split <;> rfl

/-- An empty PML4 in the frame at 0x1000. -/
def blank : Paging (PagePool bootPages 17) :=
  { mem := fun _ _ => 0#64, pool := boot, victim := [], kernelPml4 := 0x1000 }

/-- Two pages of the user and one of the kernel. -/
def someCalls : List Call :=
  [.map 0x400000 0x5000 (ptePresent ||| pteWritable ||| pteUser),
    .map 0x7FFFFFFFF000 0x6000 pteUser, .unmap 0x7FFFFFFFF000, .protect 0x400000 true false,
    .map 0xFFFF800000000000 0x7000 pteWritable]

/-- What the calls leave of the three pages. -/
theorem run_refines_someCalls :
  ∃ w', run bootFrames 0x1000 blank someCalls = some w'
    ∧ w'.lookup 0x1000 0x400000 = some ⟨0x5000, ptePresent ||| pteUser⟩
    ∧ w'.vmmGetPhys 0x1000 (0x400000 + 0x123) = 0x5123
    ∧ w'.vmmGetPhys 0x1000 (0x7FFFFFFFF000 + 0) = 0
    ∧ w'.vmmGetPhys 0x1000 (0xFFFF800000000000 + 0xFFF) = 0x7FFF
  := by
  have hcount : 3 * someCalls.length ≤ bootFrames.count blank.pool := by
    exact count_boot.symm ▸ (by decide : 3 * someCalls.length ≤ 15)
  obtain ⟨htables, -, hentry⟩ := tables_blank (P := bootFrames) (w := blank) (n := 512)
    0x1000 (fun _ _ => rfl) (notMem_avail_boot _ (by decide +kernel))
  have hlookup : ∀ v, blank.lookup 0x1000 v = none := by
    intro v
    rw [lookup, hentry v (tableIdx_lt 39 v), Mapping.ofEntry_zero]
  have hcalls : ∀ c ∈ someCalls, IsPage c.virt := by
    have hall : (someCalls.all fun c => decide (IsPage c.virt)) = true := by decide +kernel
    exact fun c hc => of_decide_eq_true (all_eq_true.mp hall c hc)
  obtain ⟨w', hrun⟩ := htables.exists_run (fun c hc => ⟨hcalls c hc, tableIdx_lt 39 _⟩) hcount
  have hall := run_refines htables hcalls hrun
  obtain ⟨hfirst, hphys⟩ := hall 0x400000 (by decide +kernel)
  refine ⟨w', hrun, ?_, ?_, ?_, ?_⟩
  · rw [hfirst, hlookup]
    decide
  · rw [hphys 0x123 (by decide), hlookup]
    decide
  · rw [(hall 0x7FFFFFFFF000 (by decide +kernel)).2 0 (by decide), hlookup]
    decide
  · rw [(hall 0xFFFF800000000000 (by decide +kernel)).2 0xFFF (by decide), hlookup]
    decide

end Paging
