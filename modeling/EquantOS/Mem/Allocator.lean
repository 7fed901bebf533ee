import EquantOS.Mem.Buddy

/-!
# Runs of the page allocator

Every state that the allocator reaches from `pmm_init` by allocations and by releases of
live blocks satisfies the buddy invariant.  A failed allocation runs the out-of-memory
killer, which tears down an address space and thereby releases blocks; those releases
are calls of the run as well.
-/

open LinkedList Block

namespace Pmm

variable {H : Set ℕ} {live : List Block} {L : ℕ → List ℕ} {s : Pmm}

/-! ### The operations -/

/-- `findFree` finds a page on a free list of the order it reports. -/
lemma Inv.findFree
    (h : Inv H [] live L s) {order k p : ℕ} (hf : s.findFree order = some (k, p)) :
  order ≤ k ∧ k < pmmMaxOrder ∧ p ∈ L k
  := by
  obtain ⟨j, hj, hjk⟩ := List.exists_of_findSome?_eq_some hf
  obtain ⟨q, hq, heq⟩ := Option.map_eq_some_iff.mp hjk
  obtain ⟨rfl, rfl⟩ := Prod.mk.inj heq
  rw [List.mem_range'_1] at hj
  have hlt : j < pmmMaxOrder := by omega
  have hlink := h.linked j hlt
  rw [hq] at hlink
  exact ⟨hj.1, hlt, hlink.head_mem⟩

/-- An allocation that returns a pointer hands out a block of the requested order. -/
lemma Inv.pmmAllocPages
    (h : Inv H [] live L s) {oom : Pmm → Pmm} {order ptr : ℕ}
    (ha : (pmmAllocPages oom s order).1 = some ptr) :
  ∃ L', Inv H [] (⟨ptr / pageSize, order⟩ :: live) L' (Pmm.pmmAllocPages oom s order).2
  := by
  rw [Pmm.pmmAllocPages] at ha ⊢
  split at ha
  · cases ha
  next hord =>
    rw [if_neg hord]
    cases hf : s.findFree order with
    | none => simp [hf] at ha
    | some r =>
      obtain ⟨k, p⟩ := r
      simp only [hf, Option.some.injEq] at ha ⊢
      obtain ⟨hok, hk, hp⟩ := h.findFree hf
      obtain ⟨L', hsplit⟩ := (h.takeFree hk hp).splitBlock hok hk
      have hmod := hsplit.modPage_hand (b := ⟨p, order⟩)
        (f := fun g => { g with order := order, isFree := false })
        (by simp) (fun _ => rfl) (fun _ => rfl)
      have hout := hmod.handOut (by simpa using hord) (by simp [flags_modPage])
      rw [← ha, Nat.mul_div_cancel _ (by decide : 0 < pageSize)]
      rw [Nat.one_shiftLeft]
      exact ⟨L', hout.syncLegacyGlobals⟩

/-- The block that the release of a block puts on a free list, with the state before that. -/
def merged (s : Pmm) (p k : ℕ) : Pmm × ℕ × ℕ :=
  coalesce (pmmMaxOrder - 1 - k)
    { s.modPage p fun g => { g with isFree := true } with freePhysPages := s.freePhysPages + 2 ^ k } p k

/-- What a release does with a block. -/
lemma pmmFreePages_eq
    {b : Block} (hpos : 0 < b.start) (hlt : b.start < s.totalPhysPages) (hk : b.order < pmmMaxOrder) :
  s.pmmFreePages (b.start * pageSize) b.order
    = if (s.pageArray b.start).isFree then s
      else ((merged s b.start b.order).1.addFree (merged s b.start b.order).2.2
        (merged s b.start b.order).2.1).syncLegacyGlobals
  := by
  have hptr : ¬ (b.start * pageSize = 0 ∨ pmmMaxOrder ≤ b.order) := by
    simp only [pageSize]
    omega
  rw [Pmm.pmmFreePages, if_neg hptr, Nat.mul_div_cancel _ (by decide : 0 < pageSize)]
  simp only [if_neg (Nat.not_le.mpr hlt), Nat.one_shiftLeft]
  rfl

/-- A live block is taken into the hand and its first page marked free. -/
lemma Inv.mark (h : Inv H [] live L s) {b : Block} (hb : b ∈ live) :
  Inv H [b] (live.erase b) L { s.modPage b.start fun g => { g with isFree := true } with
    freePhysPages := s.freePhysPages + 2 ^ b.order }
  := (h.release hb).modPage_hand (b := b) (f := fun g => { g with isFree := true }) (by simp)
    (fun _ => rfl) (fun _ => rfl)

lemma Inv.pmmFreePages
    (h : Inv H [] live L s) {b : Block} (hb : b ∈ live) :
  ∃ L', Inv H [] (live.erase b) L' (s.pmmFreePages (b.start * pageSize) b.order)
  := by
  have hk := h.liveOrder _ hb
  obtain ⟨hpos, hlt⟩ := h.inside _ (h.start_mem_pages (b := b) (by simp [hb]))
  rw [pmmFreePages_eq hpos hlt hk, if_neg (Bool.not_eq_true _ ▸ h.liveHead _ hb)]
  obtain ⟨L', hco, ho⟩ := (h.mark hb).coalesce (n := pmmMaxOrder - 1 - b.order)
    (by simp only [pmmMaxOrder] at *; omega)
  exact ⟨_, (hco.addFree ho).syncLegacyGlobals⟩

/-! ### Runs -/

/-- A sequence of releases of live blocks; `live` are the blocks still handed out. -/
inductive Frees : Pmm × List Block → Pmm × List Block → Prop where
  | nil (st : Pmm × List Block) : Frees st st
  | cons {s : Pmm} {live : List Block} {b : Block} {st : Pmm × List Block} :
      b ∈ live → Frees (s.pmmFreePages (b.start * pageSize) b.order, live.erase b) st →
      Frees (s, live) st

/-- One call of the allocator, with the blocks that are handed out before and after. -/
inductive Step : Pmm × List Block → Pmm × List Block → Prop where
  /-- An allocation that returns a pointer. -/
  | alloc {s : Pmm} {live : List Block} {oom : Pmm → Pmm} {order ptr : ℕ} :
      (pmmAllocPages oom s order).1 = some ptr →
      Step (s, live) ((pmmAllocPages oom s order).2, ⟨ptr / pageSize, order⟩ :: live)
  /-- An allocation that returns `NULL` for want of memory; the out-of-memory killer
  releases live blocks. -/
  | allocNull {s : Pmm} {live live' : List Block} {oom : Pmm → Pmm} {order : ℕ} :
      (pmmAllocPages oom s order).1 = none → order < pmmMaxOrder →
      Frees (s, live) (oom s, live') →
      Step (s, live) ((pmmAllocPages oom s order).2, live')
  /-- An allocation of an order that does not exist. -/
  | allocOrder {s : Pmm} {live : List Block} {oom : Pmm → Pmm} {order : ℕ} :
      pmmMaxOrder ≤ order → Step (s, live) ((pmmAllocPages oom s order).2, live)
  /-- The release of a live block. -/
  | free {s : Pmm} {live : List Block} {b : Block} :
      b ∈ live → Step (s, live) (s.pmmFreePages (b.start * pageSize) b.order, live.erase b)

/-- The invariant of a state with its live blocks, the free lists being what they may. -/
def Holds (H : Set ℕ) (st : Pmm × List Block) : Prop := ∃ L, Inv H [] st.2 L st.1

variable {st st' : Pmm × List Block}

lemma Frees.holds (hf : Frees st st') (h : Holds H st) : Holds H st'
  := by
  induction hf with
  | nil => exact h
  | cons hb _ ih =>
    obtain ⟨L, h⟩ := h
    apply ih (h.pmmFreePages hb)

lemma Step.holds (hs : Step st st') (h : Holds H st) : Holds H st'
  := by
  obtain ⟨L, h⟩ := h
  cases hs with
  | alloc ha => exact h.pmmAllocPages ha
  | allocNull ha ho hf =>
    have hoom : ∀ {oom : Pmm → Pmm} {s : Pmm} {order : ℕ}, order < pmmMaxOrder →
        (pmmAllocPages oom s order).1 = none → (pmmAllocPages oom s order).2 = oom s := by
      intro oom s order ho ha
      rw [pmmAllocPages, if_neg (by omega)] at ha ⊢
      cases hf : s.findFree order with
      | none => rfl
      | some r => simp [hf] at ha
    rw [hoom ho ha]
    apply hf.holds ⟨L, h⟩
  | allocOrder ho =>
    rw [pmmAllocPages, if_pos ho]
    exact ⟨L, h⟩
  | free hb => exact h.pmmFreePages hb

/-- Every state that a run reaches from a state of the invariant satisfies it. -/
lemma holds_of_run (hr : Relation.ReflTransGen Step st st') (h : Holds H st) :
  Holds H st'
  := by
  induction hr with
  | refl => exact h
  | tail _ hs ih => apply hs.holds ih

end Pmm
