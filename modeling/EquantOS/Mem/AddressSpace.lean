import EquantOS.Lib.Folds
import EquantOS.Mem.Paging

/-!
# Address spaces

`vmm_create_address_space`, `vmm_clone_address_space` and `vmm_destroy_address_space` of
`core/mem/vmm.c`.  The nested loops over a PDPT, a page directory and a page table are one recursion on
the number of levels below.  The copy reads the tables of the parent while it fills those of the child.
`pmm_free` changes no frame, so that the frames a teardown gives back are read off the tables first.
-/

open List

namespace Paging

open BitVec List Nat

variable {σ : Type}

section Operations

variable (P : FrameAllocator σ)

/-- `oom_killer`: the victim's address space is given back. -/
def oomKiller (w : Paging σ) : Paging σ :=
  { w with pool := P.freeAll w.pool w.victim, victim := [] }

def pmmAlloc (w : Paging σ) : Option Word × Paging σ :=
  match P.alloc w.pool with
  | some (f, s) => (some f, w.withPool s)
  | none => (none, w.oomKiller P)

def vmmCreateAddressSpace (w : Paging σ) : Option Word × Paging σ :=
  match w.pmmAlloc P with
  | (none, w) => (none, w)
  | (some f, w) =>
    let w := w.fill f fun _ => 0#64
    (some f, w.fill f fun i => if 256 ≤ i then w.mem w.kernelPml4 i else w.mem f i)

/-- The frame of a page that is given back with the address space. -/
def freeable (total e : Word) : Bool :=
  present e && (!hasBit ptePcd e && decide (e &&& pteAddrMask < total))

/-- The entry leads to a table. -/
def leadsOn (e : Word) : Bool := present e && !hasBit pteHuge e

/-- The frames below a table with the given number of levels below it, and the table. -/
def teardownTable (mem : Word → ℕ → Word) (total : Word) : ℕ → Word → List Word
  | 0, pt =>
    ((range 512).flatMap fun l =>
      if freeable total (mem pt l) then [mem pt l &&& pteAddrMask] else []) ++ [pt]
  | n + 1, table =>
    ((range 512).flatMap fun j =>
      if leadsOn (mem table j) then teardownTable mem total n (mem table j &&& pteAddrMask) else [])
    ++ [table]

/-- The frames that `vmm_destroy_address_space` gives back. -/
def teardown (mem : Word → ℕ → Word) (total cr3 : Word) : List Word :=
  ((range 256).flatMap fun i =>
    if present (mem (cr3 &&& pteAddrMask) i) then
      teardownTable mem total 2 (mem (cr3 &&& pteAddrMask) i &&& pteAddrMask)
    else []) ++ [cr3 &&& pteAddrMask]

def vmmDestroyAddressSpace (w : Paging σ) (cr3 : Word) : Paging σ :=
  { w with pool := P.freeAll w.pool (teardown w.mem P.totalMemory cr3) }

/-- Why the copy of an address space stops. -/
inductive Stop (σ : Type) where
  /-- There is no frame for a page. -/
  | outOfPages (w : Paging σ)
  /-- There is no frame for a table. -/
  | panic

def clonePage (child virt pte : Word) (w : Paging σ) : Except (Stop σ) (Paging σ) :=
  let parentPhys := pte &&& pteAddrMask
  let flags := pte &&& pteFlagsMask
  match w.pmmAlloc P with
  | (none, w) => .error (.outOfPages w)
  | (some childPhys, w) =>
    let w := w.fill childPhys (w.mem parentPhys)
    match w.vmmMap P child virt childPhys flags with
    | none => .error .panic
    | some w => .ok w

/-- Copy the pages below a table of the parent with the given number of levels below it. -/
def cloneTable (child : Word) : ℕ → Word → Word → Paging σ → Except (Stop σ) (Paging σ)
  | 0, pt, virt, w =>
    (range 512).foldlM (fun w l =>
      if present (w.mem pt l) then
        clonePage P child (virt ||| BitVec.ofNat 64 l <<< 12) (w.mem pt l) w
      else .ok w) w
  | n + 1, table, virt, w =>
    (range 512).foldlM (fun w j =>
      if leadsOn (w.mem table j) then
        cloneTable child n (w.mem table j &&& pteAddrMask)
          (virt ||| BitVec.ofNat 64 j <<< (12 + 9 * (n + 1))) w
      else .ok w) w

/-- The loops of `vmm_clone_address_space`. -/
def cloneSpace (child parent : Word) (w : Paging σ) : Except (Stop σ) (Paging σ) :=
  (range 256).foldlM (fun w i =>
    if present (w.mem parent i) then
      cloneTable P child 2 (w.mem parent i &&& pteAddrMask) (BitVec.ofNat 64 i <<< 39) w
    else .ok w) w

/-- `vmm_clone_address_space`, which may panic. -/
def vmmCloneAddressSpace (w : Paging σ) (parentCr3 : Word) : Option (Option Word × Paging σ) :=
  match w.vmmCreateAddressSpace P with
  | (none, w) => some (none, w)
  | (some child, w) =>
    match cloneSpace P child (parentCr3 &&& pteAddrMask) w with
    | .ok w => some (some child, w)
    | .error (.outOfPages w) => some (none, w.vmmDestroyAddressSpace P child)
    | .error .panic => none

end Operations

/-! ### What the tables of the parent say -/

/-- The pages below a table, with their entries, in the order of the loops. -/
def leavesTable (mem : Word → ℕ → Word) : ℕ → Word → Word → List (Word × Word)
  | 0, pt, virt =>
    (range 512).flatMap fun l =>
      if present (mem pt l) then [(virt ||| BitVec.ofNat 64 l <<< 12, mem pt l)] else []
  | n + 1, table, virt =>
    (range 512).flatMap fun j =>
      if leadsOn (mem table j) then
        leavesTable mem n (mem table j &&& pteAddrMask)
          (virt ||| BitVec.ofNat 64 j <<< (12 + 9 * (n + 1)))
      else []

/-- The 4 KB pages of the user half, with their entries. -/
def leaves (mem : Word → ℕ → Word) (parent : Word) : List (Word × Word) :=
  (range 256).flatMap fun i =>
    if present (mem parent i) then
      leavesTable mem 2 (mem parent i &&& pteAddrMask) (BitVec.ofNat 64 i <<< 39)
    else []

/-- The tables below a table with the given number of levels below it, and the table. -/
def visitTable (mem : Word → ℕ → Word) : ℕ → Word → List Word
  | 0, pt => [pt]
  | n + 1, table =>
    table :: (range 512).flatMap fun j =>
      if leadsOn (mem table j) then visitTable mem n (mem table j &&& pteAddrMask) else []

/-- The tables of the user half. -/
def visit (mem : Word → ℕ → Word) (parent : Word) : List Word :=
  parent :: (range 256).flatMap fun i =>
    if present (mem parent i) then visitTable mem 2 (mem parent i &&& pteAddrMask) else []

variable {P : FrameAllocator σ} {w w' : Paging σ} {child parent v : Word}

lemma clonePage_of_none (v e : Word) (halloc : P.alloc w.pool = none) :
  clonePage P child v e w = .error (.outOfPages (w.oomKiller P))
  := by
  rw [clonePage, pmmAlloc, halloc]

lemma clonePage_of_some (v e : Word) {f : Word} {s : σ} (halloc : P.alloc w.pool = some (f, s)) :
  clonePage P child v e w
    = (((w.withPool s).fill f (w.mem (e &&& pteAddrMask))).vmmMap P child v f
        (e &&& pteFlagsMask)).elim (.error .panic) .ok
  := by
  rw [clonePage, pmmAlloc, halloc]
  change (match ((w.withPool s).fill f (w.mem (e &&& pteAddrMask))).vmmMap P child v f
    (e &&& pteFlagsMask) with
    | none => Except.error Stop.panic
    | some w => Except.ok w) = _
  cases ((w.withPool s).fill f (w.mem (e &&& pteAddrMask))).vmmMap P child v f
    (e &&& pteFlagsMask) <;> rfl

/-! ### The copy as a fold over the pages of the parent -/

section Traversal

variable {mem : Word → ℕ → Word} {I : Paging σ → Prop} {T : Set Word} {U : Word → Prop}

def clonePages (P : FrameAllocator σ) (child : Word) (ps : List (Word × Word)) (w : Paging σ) :
    Except (Stop σ) (Paging σ) :=
  ps.foldlM (fun w p => clonePage P child p.1 p.2 w) w

section

variable (hmem : ∀ w, I w → ∀ a ∈ T, w.mem a = mem a)
  (hpage : ∀ w w' v e, U v → I w → clonePage P child v e w = .ok w' → I w')

include hmem hpage

/-- The tables `T` of the parent keep what they say while pages are copied, so that the pages are those
the tables say at first. -/
lemma cloneTable_eq
    {n : ℕ} {table virt : Word} (hvisit : ∀ a ∈ visitTable mem n table, a ∈ T)
    (hleaves : ∀ p ∈ leavesTable mem n table virt, U p.1) (hw : I w) :
  cloneTable P child n table virt w = clonePages P child (leavesTable mem n table virt) w
  := by
  induction n generalizing table virt w with
  | zero =>
    rw [clonePages, leavesTable, foldlM_flatMap]
    refine foldlM_congr_of_inv (I := I) (fun w hw l _ => ?_) (fun w w' l hl hw hok => ?_) hw
    · rw [hmem w hw table (hvisit table mem_cons_self)]
      split
      · rw [foldlM_cons]
        cases clonePage P child (virt ||| BitVec.ofNat 64 l <<< 12) (mem table l) w <;> rfl
      · rfl
    · refine foldlM_inv (I := I) (fun w w' p hp hw hok => ?_) hw hok
      exact hpage w w' p.1 p.2 (hleaves p (mem_flatMap.mpr ⟨l, hl, hp⟩)) hw hok
  | succ n ih =>
    rw [clonePages, leavesTable, foldlM_flatMap]
    refine foldlM_congr_of_inv (I := I) (fun w hw j hj => ?_) (fun w w' j hj hw hok => ?_) hw
    · rw [hmem w hw table (hvisit table mem_cons_self)]
      split
      case isTrue hleads =>
        refine ih (fun a ha => hvisit a (mem_cons_of_mem _ ?_)) (fun p hp => hleaves p ?_) hw
        · exact mem_flatMap.mpr ⟨j, hj, by rwa [if_pos hleads]⟩
        · exact mem_flatMap.mpr ⟨j, hj, by rwa [if_pos hleads]⟩
      case isFalse => rfl
    · refine foldlM_inv (I := I) (fun w w' p hp hw hok => ?_) hw hok
      exact hpage w w' p.1 p.2 (hleaves p (mem_flatMap.mpr ⟨j, hj, hp⟩)) hw hok

lemma cloneSpace_eq
    (hvisit : ∀ a ∈ visit mem parent, a ∈ T) (hleaves : ∀ p ∈ leaves mem parent, U p.1) (hw : I w) :
  cloneSpace P child parent w = clonePages P child (leaves mem parent) w
  := by
  rw [clonePages, leaves, foldlM_flatMap]
  refine foldlM_congr_of_inv (I := I) (fun w hw i hi => ?_) (fun w w' i hi hw hok => ?_) hw
  · rw [hmem w hw parent (hvisit parent mem_cons_self)]
    split
    case isTrue hpresent =>
      refine cloneTable_eq hmem hpage (fun a ha => hvisit a (mem_cons_of_mem _ ?_))
        (fun p hp => hleaves p ?_) hw
      · exact mem_flatMap.mpr ⟨i, hi, by rwa [if_pos hpresent]⟩
      · exact mem_flatMap.mpr ⟨i, hi, by rwa [if_pos hpresent]⟩
    case isFalse => rfl
  · refine foldlM_inv (I := I) (fun w w' p hp hw hok => ?_) hw hok
    exact hpage w w' p.1 p.2 (hleaves p (mem_flatMap.mpr ⟨i, hi, hp⟩)) hw hok

end

end Traversal

/-! ### The addresses of the pages -/

/-- The address is that of a page of the user half. -/
def UserPage (v : Word) : Prop := v.toNat % 4096 = 0 ∧ v.toNat < 2 ^ 47

lemma UserPage.isPage (h : UserPage v) : IsPage v := ⟨.inl h.2, h.1⟩

lemma UserPage.pml4Idx_eq {v : Word} (h : UserPage v) : pml4Idx v = v.toNat / 2 ^ 39
  := by
  have hlt := h.2
  rw [pml4Idx, tableIdx_eq]
  omega

lemma UserPage.pml4Idx_lt (h : UserPage v) : pml4Idx v < 256
  := by
  have hlt := h.2
  rw [h.pml4Idx_eq]
  omega

/-- An index is put into the free bits of an address. -/
lemma toNat_or_shift {s a j : ℕ} (hv : v.toNat = 2 ^ (s + 9) * a) (hj : j < 512)
    (hlt : 2 ^ s * (512 * a + j) < 2 ^ 64) :
  (v ||| BitVec.ofNat 64 j <<< s).toNat = 2 ^ s * (512 * a + j)
  := by
  have hpow : 2 ^ (s + 9) = 2 ^ s * 512 := by rw [Nat.pow_add]
  have hle : 2 ^ s * j ≤ 2 ^ s * (512 * a + j) := mul_le_mul_left _ (by omega)
  have hshift : (BitVec.ofNat 64 j <<< s).toNat = 2 ^ s * j := by
    rw [toNat_shiftLeft, toNat_ofNat, mod_eq_of_lt (by omega : j < 2 ^ 64),
      Nat.shiftLeft_eq, Nat.mul_comm, Nat.mod_eq_of_lt (by omega)]
  have hsmall : 2 ^ s * j < 2 ^ (s + 9) := by
    rw [hpow]
    exact Nat.mul_lt_mul_of_pos_left hj (Nat.two_pow_pos s)
  rw [BitVec.toNat_or, hv, hshift, ← two_pow_add_eq_or_of_lt hsmall]
  ring

/-- The entry of the last level that the loops find for an address below a table. -/
def leafFrom (mem : Word → ℕ → Word) : ℕ → Word → Word → Option Word
  | 0, pt, v => if present (mem pt (tableIdx 12 v)) then some (mem pt (tableIdx 12 v)) else none
  | n + 1, table, v =>
    if leadsOn (mem table (tableIdx (12 + 9 * (n + 1)) v)) then
      leafFrom mem n (mem table (tableIdx (12 + 9 * (n + 1)) v) &&& pteAddrMask) v
    else none

/-- The entry of the last level that the loops find for an address. -/
def leafOf (mem : Word → ℕ → Word) (parent v : Word) : Option Word :=
  if present (mem parent (pml4Idx v)) then
    leafFrom mem 2 (mem parent (pml4Idx v) &&& pteAddrMask) v
  else none

section Leaves

variable {mem : Word → ℕ → Word} {v e : Word}

/-- The address is the `a`-th of those that a table with `n` levels below it covers. -/
structure Covers (virt : Word) (n a : ℕ) : Prop where
  toNat : virt.toNat = 2 ^ (12 + 9 * (n + 1)) * a
  le : 2 ^ (12 + 9 * (n + 1)) * (a + 1) ≤ 2 ^ 64

lemma two_pow_level (n : ℕ) : 2 ^ (12 + 9 * (n + 1)) = 2 ^ (12 + 9 * n) * 512
  := by
  rw [Nat.mul_succ, ← Nat.add_assoc, Nat.pow_add]

variable {table virt : Word} {a n : ℕ}

/-- An entry of a table covers a part of what the table covers. -/
lemma Covers.put {j : ℕ} (h : Covers virt n a) (hj : j < 512) :
  (virt ||| BitVec.ofNat 64 j <<< (12 + 9 * n)).toNat = 2 ^ (12 + 9 * n) * (512 * a + j)
    ∧ 2 ^ (12 + 9 * n) * (512 * a + j + 1) ≤ 2 ^ 64
  := by
  have hnext : 2 ^ (12 + 9 * n) * (512 * a + j + 1) ≤ 2 ^ 64 := by
    refine le_trans ?_ h.le
    rw [two_pow_level, mul_assoc]
    exact mul_le_mul_left _ (by omega)
  have hpos := Nat.two_pow_pos (12 + 9 * n)
  refine ⟨toNat_or_shift h.toNat hj ?_, hnext⟩
  rw [Nat.mul_succ] at hnext
  omega

/-- The quotient of an address determines the next index. -/
lemma quotient_iff (n a x : ℕ) :
  x / 2 ^ (12 + 9 * (n + 1)) = a
    ↔ x / 2 ^ (12 + 9 * n) = 512 * a + x / 2 ^ (12 + 9 * n) % 512
  := by
  rw [two_pow_level, ← Nat.div_div_eq_div_mul]
  omega

/-- The pages below a table are those that it covers and for which there is an entry. -/
lemma mem_leavesTable (h : Covers virt n a) :
  (v, e) ∈ leavesTable mem n table virt
    ↔ v.toNat % 4096 = 0 ∧ v.toNat / 2 ^ (12 + 9 * (n + 1)) = a
      ∧ leafFrom mem n table v = some e
  := by
  induction n generalizing a table virt with
  | zero =>
    rw [leavesTable, mem_flatMap]
    constructor
    · rintro ⟨l, hl, hmem⟩
      rw [mem_range] at hl
      split at hmem
      case isTrue hpresent =>
        obtain ⟨rfl, rfl⟩ := Prod.mk.inj (mem_singleton.mp hmem)
        have hv := (h.put hl).1
        have hidx : tableIdx 12 (virt ||| BitVec.ofNat 64 l <<< 12) = l := by
          rw [tableIdx_eq]
          change (virt ||| BitVec.ofNat 64 l <<< (12 + 9 * 0)).toNat / 2 ^ 12 % 512 = l
          rw [hv]
          omega
        refine ⟨?_, ?_, ?_⟩
        · change (virt ||| BitVec.ofNat 64 l <<< (12 + 9 * 0)).toNat % 4096 = 0
          rw [hv]
          omega
        · change (virt ||| BitVec.ofNat 64 l <<< (12 + 9 * 0)).toNat / _ = a
          rw [hv]
          omega
        · rw [leafFrom, hidx, if_pos hpresent]
      case isFalse => exact absurd hmem not_mem_nil
    · rintro ⟨halign, hquot, hleaf⟩
      refine ⟨tableIdx 12 v, mem_range.mpr (tableIdx_lt 12 v), ?_⟩
      rw [leafFrom] at hleaf
      split at hleaf
      case isTrue hpresent =>
        obtain rfl := Option.some.inj hleaf
        rw [if_pos hpresent, mem_singleton]
        refine Prod.ext (eq_of_toNat_eq ?_) rfl
        change v.toNat = (virt ||| BitVec.ofNat 64 (tableIdx 12 v) <<< (12 + 9 * 0)).toNat
        rw [(h.put (tableIdx_lt 12 v)).1, tableIdx_eq]
        omega
      case isFalse => exact absurd hleaf nofun
  | succ n ih =>
    rw [leavesTable, mem_flatMap]
    constructor
    · rintro ⟨j, hj, hmem⟩
      rw [mem_range] at hj
      split at hmem
      case isTrue hleads =>
        obtain ⟨halign, hquot, hleaf⟩ := (ih ⟨(h.put hj).1, (h.put hj).2⟩).mp hmem
        have hidx : tableIdx (12 + 9 * (n + 1)) v = j := by
          rw [tableIdx_eq, hquot]
          omega
        refine ⟨halign, (quotient_iff _ _ _).mpr ?_, ?_⟩
        · rw [hquot]
          omega
        · rw [leafFrom, hidx, if_pos hleads]
          exact hleaf
      case isFalse => exact absurd hmem not_mem_nil
    · rintro ⟨halign, hquot, hleaf⟩
      have hlt' := tableIdx_lt (12 + 9 * (n + 1)) v
      refine ⟨tableIdx (12 + 9 * (n + 1)) v, mem_range.mpr hlt', ?_⟩
      rw [leafFrom] at hleaf
      split at hleaf
      case isTrue hleads =>
        rw [if_pos hleads]
        refine (ih ⟨(h.put hlt').1, (h.put hlt').2⟩).mpr ⟨halign, ?_, hleaf⟩
        rw [tableIdx_eq]
        exact (quotient_iff _ _ _).mp hquot
      case isFalse => exact absurd hleaf nofun

lemma nodup_leavesTable (h : Covers virt n a) :
  (leavesTable mem n table virt).Nodup
  := by
  induction n generalizing a table virt with
  | zero =>
    rw [leavesTable, nodup_flatMap]
    refine ⟨fun l _ => ?_, nodup_range.pairwise_of_forall_ne fun l hl l' hl' hne => ?_⟩
    · split
      · exact nodup_singleton _
      · exact nodup_nil
    · intro p hp hp'
      rw [mem_range] at hl hl'
      have hfst := mem_singleton.mp (mem_ite_nil_right.mp hp).2
      have hfst' := mem_singleton.mp (mem_ite_nil_right.mp hp').2
      have heq := congrArg (fun p : Word × Word => p.1.toNat) (hfst.symm.trans hfst')
      have hput := (h.put hl).1
      have hput' := (h.put hl').1
      dsimp only at heq
      simp only [Nat.mul_zero, Nat.add_zero] at hput hput'
      omega
  | succ n ih =>
    rw [leavesTable, nodup_flatMap]
    refine ⟨fun j hj => ?_, nodup_range.pairwise_of_forall_ne fun j hj j' hj' hne => ?_⟩
    · split
      · exact ih ⟨(h.put (mem_range.mp hj)).1, (h.put (mem_range.mp hj)).2⟩
      · exact nodup_nil
    · rintro ⟨v, e⟩ hp hp'
      rw [mem_range] at hj hj'
      have hquot := ((mem_leavesTable ⟨(h.put hj).1, (h.put hj).2⟩).mp
        (mem_ite_nil_right.mp hp).2).2.1
      have hquot' := ((mem_leavesTable ⟨(h.put hj').1, (h.put hj').2⟩).mp
        (mem_ite_nil_right.mp hp').2).2.1
      omega

lemma covers_root {i : ℕ} (hi : i < 256) : Covers (BitVec.ofNat 64 i <<< 39) 2 i
  := by
  constructor
  · rw [toNat_shiftLeft, toNat_ofNat]
    omega
  · omega

/-- The copy finds the pages of the user half that have an entry. -/
lemma mem_leaves :
  (v, e) ∈ leaves mem parent ↔ UserPage v ∧ leafOf mem parent v = some e
  := by
  rw [leaves, mem_flatMap]
  constructor
  · rintro ⟨i, hi, hmem⟩
    rw [mem_range] at hi
    split at hmem
    case isTrue hpresent =>
      obtain ⟨halign, hquot, hleaf⟩ := (mem_leavesTable (covers_root hi)).mp hmem
      have huser : UserPage v := ⟨halign, by omega⟩
      have hidx : pml4Idx v = i := huser.pml4Idx_eq.trans hquot
      refine ⟨huser, ?_⟩
      rw [leafOf, hidx, if_pos hpresent]
      exact hleaf
    case isFalse => exact absurd hmem not_mem_nil
  · rintro ⟨huser, hleaf⟩
    refine ⟨pml4Idx v, mem_range.mpr huser.pml4Idx_lt, ?_⟩
    rw [leafOf] at hleaf
    split at hleaf
    case isTrue hpresent =>
      rw [if_pos hpresent]
      exact (mem_leavesTable (covers_root huser.pml4Idx_lt)).mpr
        ⟨huser.1, huser.pml4Idx_eq.symm, hleaf⟩
    case isFalse => exact absurd hleaf nofun

lemma nodup_leaves (mem : Word → ℕ → Word) (parent : Word) : ((leaves mem parent).map Prod.fst).Nodup
  := by
  have hnodup : (leaves mem parent).Nodup := by
    rw [leaves, nodup_flatMap]
    refine ⟨fun i hi => ?_, nodup_range.pairwise_of_forall_ne fun i hi i' hi' hne => ?_⟩
    · split
      · exact nodup_leavesTable (covers_root (mem_range.mp hi))
      · exact nodup_nil
    · rintro ⟨v, e⟩ hp hp'
      rw [mem_range] at hi hi'
      have hquot := ((mem_leavesTable (covers_root hi)).mp (mem_ite_nil_right.mp hp).2).2.1
      have hquot' := ((mem_leavesTable (covers_root hi')).mp (mem_ite_nil_right.mp hp').2).2.1
      exact hne (hquot.symm.trans hquot')
  refine List.Nodup.map_on ?_ hnodup
  rintro ⟨v, e⟩ hp ⟨v', e'⟩ hp' heq
  obtain rfl : v = v' := heq
  have hleaf := (mem_leaves.mp hp).2.symm.trans (mem_leaves.mp hp').2
  rw [Option.some.inj hleaf]

lemma present_of_leafFrom (h : leafFrom mem n table v = some e) :
  present e
  := by
  induction n generalizing table with
  | zero =>
    rw [leafFrom] at h
    split at h
    case isTrue hpresent =>
      obtain rfl := Option.some.inj h
      exact hpresent
    case isFalse => exact absurd h nofun
  | succ n ih =>
    rw [leafFrom] at h
    split at h
    · exact ih h
    · exact absurd h nofun

lemma present_of_leafOf (h : leafOf mem parent v = some e) : present e
  := by
  rw [leafOf] at h
  split at h
  · exact present_of_leafFrom h
  · exact absurd h nofun

end Leaves

end Paging
