import EquantOS.Lib.LinkedList
import EquantOS.Mem.Pmm
import Mathlib.Algebra.BigOperators.Group.Finset.Basic

/-!
# The free lists of the page allocator

What the list operations of the page allocator do to the links, to the flags of the
descriptors, and to the areas; and the blocks on the free lists, as one list of blocks.
-/

open LinkedList Function List

namespace Pmm

/-- The `next` links of the page descriptors. -/
def next (s : Pmm) (p : ℕ) : Option ℕ := (s.pageArray p).next

/-- The `prev` links of the page descriptors. -/
def prev (s : Pmm) (p : ℕ) : Option ℕ := (s.pageArray p).prev

/-- The free flag and the order of a page. -/
def flags (s : Pmm) (p : ℕ) : Bool × ℕ := ((s.pageArray p).isFree, (s.pageArray p).order)

section Access

variable (s : Pmm) (k p : ℕ) {f : PmmPage → PmmPage} {g : PmmFreeArea → PmmFreeArea}

lemma next_modPage :
  (s.modPage p f).next = update s.next p (f (s.pageArray p)).next
  := by
  funext q
  simp only [next, modPage, update_apply]
  split <;> rfl

lemma prev_modPage :
  (s.modPage p f).prev = update s.prev p (f (s.pageArray p)).prev
  := by
  funext q
  simp only [prev, modPage, update_apply]
  split <;> rfl

lemma flags_modPage :
  (s.modPage p f).flags
    = update s.flags p ((f (s.pageArray p)).isFree, (f (s.pageArray p)).order)
  := by
  funext q
  simp only [flags, modPage, update_apply]
  split <;> rfl

lemma next_modPage_keep (h : ∀ g, (f g).next = g.next) :
  (s.modPage p f).next = s.next
  := by
  rw [next_modPage, h]
  apply update_eq_self

lemma prev_modPage_keep (h : ∀ g, (f g).prev = g.prev) :
  (s.modPage p f).prev = s.prev
  := by
  rw [prev_modPage, h]
  apply update_eq_self

lemma flags_modPage_keep (h : ∀ g, (f g).isFree = g.isFree ∧ (f g).order = g.order) :
  (s.modPage p f).flags = s.flags
  := by
  rw [flags_modPage, (h _).1, (h _).2]
  apply update_eq_self

@[simp]
lemma next_modArea : (s.modArea k g).next = s.next := rfl

@[simp]
lemma prev_modArea : (s.modArea k g).prev = s.prev := rfl

@[simp]
lemma flags_modArea : (s.modArea k g).flags = s.flags := rfl

@[simp]
lemma freeAreas_modPage : (s.modPage p f).freeAreas = s.freeAreas := rfl

@[simp]
lemma freeAreas_modArea :
  (s.modArea k g).freeAreas = update s.freeAreas k (g (s.freeAreas k))
  := rfl

/-! ### The links after the list operations -/

/-- The middle of `list_add`: the old head, if there is one, points back to `p`. -/
def linkBack : Option ℕ → Pmm
  | some q => s.modPage q fun g => { g with prev := some p }
  | none => s

lemma listAdd_eq :
  s.listAdd k p
    = (linkBack (s.modPage p fun g => { g with next := (s.freeAreas k).freelist, prev := none })
        p (s.freeAreas k).freelist).modArea k fun a => { a with freelist := some p }
  := rfl

lemma next_linkBack (head : Option ℕ) :
  (s.linkBack p head).next = s.next
  := by
  cases head with
  | none => rfl
  | some q =>
    rw [linkBack, next_modPage_keep]
    intro; rfl

lemma prev_linkBack (head : Option ℕ) :
  (s.linkBack p head).prev = redirect s.prev head (some p)
  := by
  cases head with
  | none => rfl
  | some q =>
    rw [linkBack, prev_modPage]
    rfl

lemma flags_linkBack (head : Option ℕ) :
  (s.linkBack p head).flags = s.flags
  := by
  cases head with
  | none => rfl
  | some q =>
    rw [linkBack, flags_modPage_keep]
    intro; exact ⟨rfl, rfl⟩

lemma next_listAdd :
  (s.listAdd k p).next = update s.next p (s.freeAreas k).freelist
  := by
  rw [listAdd_eq, next_modArea, next_linkBack, next_modPage]

lemma prev_listAdd :
  (s.listAdd k p).prev
    = redirect (update s.prev p none) (s.freeAreas k).freelist (some p)
  := by
  rw [listAdd_eq, prev_modArea, prev_linkBack, prev_modPage]

lemma flags_listAdd :
  (s.listAdd k p).flags = s.flags
  := by
  rw [listAdd_eq, flags_modArea, flags_linkBack, flags_modPage_keep]
  intro; exact ⟨rfl, rfl⟩

lemma freeAreas_listAdd :
  (s.listAdd k p).freeAreas
    = update s.freeAreas k { s.freeAreas k with freelist := some p }
  := by
  rw [listAdd]
  cases (s.freeAreas k).freelist <;> rfl

/-- The first half of `list_remove`: the node before `p`, or the head, skips `p`. -/
def unlinkNext : Pmm :=
  match s.prev p with
  | some q => s.modPage q fun g => { g with next := s.next p }
  | none => s.modArea k fun a => { a with freelist := s.next p }

/-- The second half of `list_remove`: the node after `p` skips `p`. -/
def unlinkPrev : Pmm :=
  match s.next p with
  | some q => s.modPage q fun g => { g with prev := s.prev p }
  | none => s

lemma listRemove_eq :
  s.listRemove k p
    = ((s.unlinkNext k p).unlinkPrev p).modPage p fun g => { g with next := none, prev := none }
  := rfl

lemma next_unlinkNext :
  (s.unlinkNext k p).next = redirect s.next (s.prev p) (s.next p)
  := by
  cases h : s.prev p with
  | none =>
    simp only [unlinkNext, h]
    rfl
  | some q =>
    simp only [unlinkNext, h, next_modPage]
    rfl

lemma prev_unlinkNext :
  (s.unlinkNext k p).prev = s.prev
  := by
  cases h : s.prev p with
  | none =>
    simp only [unlinkNext, h]
    rfl
  | some q =>
    simp only [unlinkNext, h]
    rw [prev_modPage_keep]
    intro; rfl

lemma next_unlinkPrev :
  (s.unlinkPrev p).next = s.next
  := by
  cases h : s.next p with
  | none => simp only [unlinkPrev, h]
  | some q =>
    simp only [unlinkPrev, h]
    rw [next_modPage_keep]
    intro; rfl

lemma prev_unlinkPrev :
  (s.unlinkPrev p).prev = redirect s.prev (s.next p) (s.prev p)
  := by
  cases h : s.next p with
  | none =>
    simp only [unlinkPrev, h]
    rfl
  | some q =>
    simp only [unlinkPrev, h, prev_modPage]
    rfl

lemma flags_unlinkNext :
  (s.unlinkNext k p).flags = s.flags
  := by
  cases h : s.prev p with
  | none =>
    simp only [unlinkNext, h]
    rfl
  | some q =>
    simp only [unlinkNext, h]
    rw [flags_modPage_keep]
    intro; exact ⟨rfl, rfl⟩

lemma flags_unlinkPrev :
  (s.unlinkPrev p).flags = s.flags
  := by
  cases h : s.next p with
  | none => simp only [unlinkPrev, h]
  | some q =>
    simp only [unlinkPrev, h]
    rw [flags_modPage_keep]
    intro; exact ⟨rfl, rfl⟩

lemma next_listRemove :
  (s.listRemove k p).next = update (redirect s.next (s.prev p) (s.next p)) p none
  := by
  rw [listRemove_eq, next_modPage, next_unlinkPrev, next_unlinkNext]

lemma prev_listRemove (h : s.prev p ≠ some p) :
  (s.listRemove k p).prev = update (redirect s.prev (s.next p) (s.prev p)) p none
  := by
  rw [listRemove_eq, prev_modPage, prev_unlinkPrev, prev_unlinkNext, next_unlinkNext,
    redirect_of_ne h]

lemma flags_listRemove :
  (s.listRemove k p).flags = s.flags
  := by
  rw [listRemove_eq, flags_modPage_keep, flags_unlinkPrev, flags_unlinkNext]
  intro; exact ⟨rfl, rfl⟩

lemma freeAreas_listRemove :
  (s.listRemove k p).freeAreas = update s.freeAreas k
    { s.freeAreas k with
      freelist := if s.prev p = none then s.next p else (s.freeAreas k).freelist }
  := by
  have h : ∀ t : Pmm, (t.unlinkPrev p).freeAreas = t.freeAreas := by
    intro t
    rw [unlinkPrev]
    cases t.next p <;> rfl
  rw [listRemove_eq, freeAreas_modPage, h]
  cases h : s.prev p with
  | none =>
    simp only [unlinkNext, h]
    rfl
  | some q =>
    simp only [unlinkNext, h]
    exact (update_eq_self k _).symm

lemma totals_listAdd :
  (s.listAdd k p).totalPhysPages = s.totalPhysPages
    ∧ (s.listAdd k p).freePhysPages = s.freePhysPages
  := by
  rw [listAdd]
  cases (s.freeAreas k).freelist <;> exact ⟨rfl, rfl⟩

lemma totals_listRemove :
  (s.listRemove k p).totalPhysPages = s.totalPhysPages
    ∧ (s.listRemove k p).freePhysPages = s.freePhysPages
  := by
  have h1 : ∀ t : Pmm, (t.unlinkPrev p).totalPhysPages = t.totalPhysPages
      ∧ (t.unlinkPrev p).freePhysPages = t.freePhysPages := by
    intro t
    rw [unlinkPrev]
    cases t.next p <;> exact ⟨rfl, rfl⟩
  have h2 : (s.unlinkNext k p).totalPhysPages = s.totalPhysPages
      ∧ (s.unlinkNext k p).freePhysPages = s.freePhysPages := by
    rw [unlinkNext]
    cases s.prev p <;> exact ⟨rfl, rfl⟩
  rw [listRemove_eq]
  exact ⟨(h1 _).1.trans h2.1, (h1 _).2.trans h2.2⟩

end Access

/-! ### The free blocks -/

/-- The blocks on the free lists, the list of order `k` being `L k`. -/
def freeBlocks (L : ℕ → List ℕ) : List Block :=
  (List.range pmmMaxOrder).flatMap fun k => (L k).map fun p => ⟨p, k⟩

/-- The number of pages of a list of blocks. -/
def blockPages (bs : List Block) : ℕ := (bs.map fun b => 2 ^ b.order).sum

variable {L : ℕ → List ℕ} {k : ℕ}

lemma mem_freeBlocks {b : Block} :
  b ∈ freeBlocks L ↔ b.order < pmmMaxOrder ∧ b.start ∈ L b.order
  := by
  simp only [freeBlocks, mem_flatMap, mem_range, mem_map]
  constructor
  · rintro ⟨k, hk, p, hp, rfl⟩
    exact ⟨hk, hp⟩
  · rintro ⟨hk, hp⟩
    exact ⟨b.order, hk, b.start, hp, rfl⟩

lemma blockPages_perm {bs cs : List Block} (h : bs.Perm cs) :
  blockPages bs = blockPages cs
  := (h.map _).sum_eq

@[simp]
lemma blockPages_cons (b : Block) (bs : List Block) :
  blockPages (b :: bs) = 2 ^ b.order + blockPages bs
  := by simp [blockPages]

@[simp]
lemma blockPages_nil : blockPages [] = 0 := rfl

lemma blockPages_freeBlocks (L : ℕ → List ℕ) :
  blockPages (freeBlocks L) = ∑ k ∈ Finset.range pmmMaxOrder, 2 ^ k * (L k).length
  := by
  rw [freeBlocks, blockPages]
  induction pmmMaxOrder with
  | zero => rfl
  | succ n ih =>
    rw [range_succ, Finset.sum_range_succ, flatMap_append, map_append, sum_append, ih]
    simp [mul_comm, comp_def]

lemma flatMap_update_perm
    {β : Type*} {f : ℕ → List β} {x : β} :
    ∀ {ks : List ℕ}, ks.Nodup → k ∈ ks →
      (ks.flatMap (update f k (x :: f k))).Perm (x :: ks.flatMap f)
  | [], _, h => by cases h
  | j :: ks, hd, h => by
      obtain ⟨hj, hd⟩ := nodup_cons.mp hd
      by_cases hjk : j = k
      · subst hjk
        have hrest : ks.flatMap (update f j (x :: f j)) = ks.flatMap f := by
          apply flatMap_congr
          intro i hi
          apply update_of_ne
          rintro rfl
          exact hj hi
        simp [hrest]
      · have hk : k ∈ ks := by simpa [Ne.symm hjk] using h
        have ih := flatMap_update_perm (f := f) (x := x) hd hk
        simp only [flatMap_cons, update_of_ne hjk]
        apply (ih.append_left (f j)).trans perm_middle

/-- Putting a block on its list adds it to the free blocks. -/
lemma freeBlocks_cons {p : ℕ} (hk : k < pmmMaxOrder) :
  (freeBlocks (update L k (p :: L k))).Perm (⟨p, k⟩ :: freeBlocks L)
  := by
  have hmap : (fun j => (update L k (p :: L k) j).map fun q => (⟨q, j⟩ : Block))
      = update (fun j => (L j).map fun q => (⟨q, j⟩ : Block)) k
          (⟨p, k⟩ :: (L k).map fun q => ⟨q, k⟩) := by
    funext j
    by_cases hj : j = k
    · subst hj
      simp
    · simp [update_of_ne hj]
  rw [freeBlocks, hmap]
  apply flatMap_update_perm nodup_range
  simpa using hk

/-- Taking a block off its list removes it from the free blocks. -/
lemma freeBlocks_erase {p : ℕ} (hk : k < pmmMaxOrder) (hp : p ∈ L k) :
  (freeBlocks L).Perm (⟨p, k⟩ :: freeBlocks (update L k ((L k).erase p)))
  := by
  have h := freeBlocks_cons (L := update L k ((L k).erase p)) (p := p) hk
  rw [update_self, update_idem] at h
  apply List.Perm.trans _ h
  apply List.Perm.flatMap_left
  intro j _
  by_cases hj : j = k
  · subst hj
    rw [update_self]
    apply (perm_cons_erase hp).map
  · rw [update_of_ne hj]

end Pmm
