import Mathlib.Data.List.Pairwise
import Mathlib.Data.List.Perm.Basic
import Mathlib.Data.Nat.Bitwise
import Mathlib.Tactic.Ring

/-!
# Dyadic blocks

A dyadic block of order `k` is an interval of `2 ^ k` consecutive naturals.  An aligned
block, one whose start is a multiple of `2 ^ k`, has a buddy: the other half of the
aligned block of order `k + 1` that contains it.  `Tiles H bs` states that the blocks
`bs` are aligned, pairwise disjoint, and cover exactly the set `H`.  Tilings are closed
under splitting a block into its two halves and under merging two halves.
-/

open List

/-- The interval of `2 ^ order` naturals from `start` on. -/
structure Block where
  start : ℕ
  order : ℕ
  deriving DecidableEq, Repr

namespace Block

open Nat

instance : Membership ℕ Block where
  mem b p := b.start ≤ p ∧ p < b.start + 2 ^ b.order

variable {b c : Block} {k p : ℕ}

lemma mem_iff :
  p ∈ b ↔ b.start ≤ p ∧ p < b.start + 2 ^ b.order
  := Iff.rfl

lemma start_mem (b : Block) :
  b.start ∈ b
  := ⟨le_rfl, Nat.lt_add_of_pos_right (Nat.two_pow_pos _)⟩

/-- The start of the block is a multiple of its size. -/
def Aligned (b : Block) : Prop := 2 ^ b.order ∣ b.start

/-- No natural lies in both blocks. -/
def Disjoint (b c : Block) : Prop :=
  b.start + 2 ^ b.order ≤ c.start ∨ c.start + 2 ^ c.order ≤ b.start

lemma Disjoint.symm (h : b.Disjoint c) :
  c.Disjoint b
  := Or.symm h

lemma Disjoint.notMem (h : b.Disjoint c) (hb : p ∈ b) : p ∉ c
  := by
  rw [mem_iff] at *
  rcases h with h | h <;> omega

lemma disjoint_of_notMem (h : ∀ p ∈ b, p ∉ c) : b.Disjoint c
  := by
  have hb := Nat.two_pow_pos b.order
  have hc := Nat.two_pow_pos c.order
  by_contra hd
  simp only [Disjoint] at hd
  apply h (max b.start c.start)
  · rw [mem_iff]
    omega
  · rw [mem_iff]
    omega

/-- Aligned blocks that meet are nested: the larger one contains the smaller. -/
lemma subset_of_mem (hb : b.Aligned) (hc : c.Aligned) (h : b.order ≤ c.order)
    (hpb : p ∈ b) (hpc : p ∈ c) {q : ℕ} (hq : q ∈ b) :
  q ∈ c
  := by
  obtain ⟨x, hx⟩ := hb
  obtain ⟨y, hy⟩ := hc
  obtain ⟨d, hd⟩ := Nat.exists_eq_add_of_le h
  rw [mem_iff, hx] at hpb hq
  rw [mem_iff, hy, hd, pow_add] at hpc ⊢
  rw [show 2 ^ b.order * x + 2 ^ b.order = 2 ^ b.order * (x + 1) by ring] at hpb hq
  rw [show 2 ^ b.order * 2 ^ d * y + 2 ^ b.order * 2 ^ d = 2 ^ b.order * (2 ^ d * (y + 1)) by ring]
    at hpc ⊢
  rw [mul_assoc] at hpc ⊢
  -- Both ends of the larger block are multiples of the size of the smaller one.
  have hlow : 2 ^ d * y ≤ x := by
    have := lt_of_le_of_lt hpc.1 hpb.2
    have := lt_of_mul_lt_mul_left this (zero_le _)
    omega
  have hhigh : x + 1 ≤ 2 ^ d * (y + 1) := by
    have := lt_of_le_of_lt hpb.1 hpc.2
    have := lt_of_mul_lt_mul_left this (zero_le _)
    omega
  constructor
  · apply le_trans (mul_le_mul_left _ hlow) hq.1
  · apply lt_of_lt_of_le hq.2 (mul_le_mul_left _ hhigh)

/-- An aligned block of order at most `k` that contains a multiple of `2 ^ k` starts
there. -/
lemma start_eq_of_mem (hb : b.Aligned) (hk : b.order ≤ k) (hp : 2 ^ k ∣ p) (hm : p ∈ b) :
  b.start = p
  := by
  obtain ⟨x, hx⟩ := hb
  obtain ⟨y, hy⟩ := (pow_dvd_pow 2 hk).trans hp
  rw [mem_iff, hx, hy] at hm
  rw [hx, hy]
  rw [show 2 ^ b.order * x + 2 ^ b.order = 2 ^ b.order * (x + 1) by ring] at hm
  have h1 := le_of_mul_le_mul_left hm.1 (Nat.two_pow_pos _)
  have h2 := lt_of_mul_lt_mul_left hm.2 (zero_le _)
  rw [show x = y by omega]

/-! ### Buddies -/

/-- The start of the other half of the aligned block of order `k + 1` around `p`. -/
def buddy (p k : ℕ) : ℕ := p ^^^ (1 <<< k)

/-- The start of the aligned block of order `k + 1` around `p`. -/
def lower (p k : ℕ) : ℕ := p / 2 ^ (k + 1) * 2 ^ (k + 1)

lemma lower_aligned (p k : ℕ) :
  Aligned ⟨lower p k, k + 1⟩
  := Dvd.intro_left _ rfl

lemma xor_one (n : ℕ) :
  n ^^^ 1 = if n % 2 = 0 then n + 1 else n - 1
  := by
  have hmod : (n ^^^ 1) % 2 = (n % 2) ^^^ 1 := xor_mod_two_pow (n := 1)
  have hdiv : (n ^^^ 1) / 2 = (n / 2) ^^^ 0 := xor_div_two_pow (n := 1)
  rw [xor_zero] at hdiv
  rcases mod_two_eq_zero_or_one n with h | h
  · rw [h] at hmod
    simp only [h, if_true]
    have : (0 ^^^ 1 : ℕ) = 1 := rfl
    omega
  · rw [h] at hmod
    simp only [h, one_ne_zero, if_false]
    have : (1 ^^^ 1 : ℕ) = 0 := rfl
    omega

lemma buddy_mul (q k : ℕ) :
  buddy (2 ^ k * q) k = 2 ^ k * (q ^^^ 1)
  := by
  rw [buddy, mul_comm, mul_comm (2 ^ k), ← shiftLeft_eq, ← shiftLeft_eq,
    shiftLeft_xor_distrib]

lemma lower_mul (q k : ℕ) :
  lower (2 ^ k * q) k = 2 ^ k * (2 * (q / 2))
  := by
  rw [lower, pow_succ, Nat.mul_div_mul_left _ _ (Nat.two_pow_pos k)]
  ring

/-- An aligned block and its buddy are the two halves of the enclosing block. -/
lemma halves (h : 2 ^ k ∣ p) :
  p = lower p k ∧ buddy p k = lower p k + 2 ^ k
    ∨ p = lower p k + 2 ^ k ∧ buddy p k = lower p k
  := by
  obtain ⟨q, rfl⟩ := h
  rw [buddy_mul, lower_mul, xor_one]
  rcases mod_two_eq_zero_or_one q with hq | hq
  · left
    rw [if_pos hq, show 2 * (q / 2) = q by omega]
    exact ⟨rfl, by ring⟩
  right
  rw [if_neg (by omega), show 2 * (q / 2) = q - 1 by omega]
  refine ⟨?_, rfl⟩
  obtain ⟨r, rfl⟩ : ∃ r, q = r + 1 := ⟨q - 1, by omega⟩
  rw [Nat.add_sub_cancel]
  ring

lemma buddy_aligned (h : 2 ^ k ∣ p) : 2 ^ k ∣ buddy p k
  := by
  obtain ⟨q, rfl⟩ := h
  rw [buddy_mul]
  apply Dvd.intro _ rfl

/-- Clearing bit `k` of the start of a block in a word of `w` bits gives the start of the
enclosing block. -/
lemma and_not_eq_lower {w : ℕ} (hw : p < 2 ^ w) (h : 2 ^ k ∣ p) :
  p &&& ((2 ^ w - 1) ^^^ (1 <<< k)) = lower p k
  := by
  have hlow : lower p k = (p >>> (k + 1)) <<< (k + 1) := by
    rw [lower, shiftLeft_eq, shiftRight_eq_div_pow]
  rw [hlow]
  apply eq_of_testBit_eq
  intro i
  rw [testBit_and, testBit_xor, testBit_two_pow_sub_one, one_shiftLeft,
    testBit_two_pow, testBit_shiftLeft, testBit_shiftRight]
  obtain ⟨q, rfl⟩ := h
  by_cases hik : k + 1 ≤ i
  · rw [show k + 1 + (i - (k + 1)) = i by omega]
    by_cases hiw : i < w
    · simp [hik, hiw, show k ≠ i by omega]
    have : (2 ^ k * q).testBit i = false := by
      apply testBit_lt_two_pow
      apply lt_of_lt_of_le hw (Nat.pow_le_pow_right (by omega) (by omega))
    simp [this]
  · rcases lt_or_ge i k with hi | hi
    · have : (2 ^ k * q).testBit i = false := by
        rw [mul_comm, testBit_mul_two_pow]
        simp [not_le.mpr hi]
      simp [this, hik]
    · obtain rfl : i = k := by omega
      by_cases hiw : i < w
      · simp [hiw]
      have : (2 ^ i * q).testBit i = false := by
        apply testBit_lt_two_pow
        apply lt_of_lt_of_le hw (Nat.pow_le_pow_right (by omega) (by omega))
      simp [this]

lemma mem_lower_iff (h : 2 ^ k ∣ p) {x : ℕ} :
  x ∈ (⟨lower p k, k + 1⟩ : Block) ↔ x ∈ (⟨p, k⟩ : Block) ∨ x ∈ (⟨buddy p k, k⟩ : Block)
  := by
  simp only [mem_iff]
  rcases halves h with ⟨hp, hb⟩ | ⟨hp, hb⟩ <;> omega

lemma buddy_disjoint (h : 2 ^ k ∣ p) : Disjoint ⟨p, k⟩ ⟨buddy p k, k⟩
  := by
  simp only [Disjoint]
  rcases halves h with ⟨hp, hb⟩ | ⟨hp, hb⟩ <;> omega

/-- In an aligned block, the first half of the order below is its own lower half. -/
lemma lower_of_aligned_succ (h : 2 ^ (k + 1) ∣ p) :
  lower p k = p
  := Nat.div_mul_cancel h

/-! ### Tilings -/

/-- The blocks are aligned, pairwise disjoint, and cover exactly `H`. -/
structure Tiles (H : Set ℕ) (bs : List Block) : Prop where
  aligned : ∀ b ∈ bs, b.Aligned
  disjoint : bs.Pairwise Disjoint
  cover : ∀ p, p ∈ H ↔ ∃ b ∈ bs, p ∈ b

namespace Tiles

variable {H : Set ℕ} {bs cs : List Block}

lemma perm (h : Tiles H bs) (hp : bs.Perm cs) :
  Tiles H cs
  := by
  constructor
  · intro b hb
    apply h.aligned b (hp.mem_iff.mpr hb)
  · apply (hp.pairwise_iff fun hbc => Disjoint.symm hbc).mp h.disjoint
  · intro p
    rw [h.cover]
    simp only [hp.mem_iff]

lemma nil : Tiles ∅ [] := by
  constructor <;> simp

variable {b : Block} {k p : ℕ}

/-- A natural lies in at most one block of a tiling. -/
lemma unique
    (h : Tiles H bs) {c : Block} (hb : b ∈ bs) (hc : c ∈ bs) (hpb : p ∈ b)
    (hpc : p ∈ c) :
  b = c
  := by
  by_contra hne
  have : Std.Symm Disjoint := ⟨fun _ _ => Disjoint.symm⟩
  apply (h.disjoint.forall hb hc hne).notMem hpb hpc

/-- Adding a block outside the covered set. -/
lemma cons
    (h : Tiles H bs) (ha : b.Aligned) (hb : ∀ p ∈ b, p ∉ H) :
  Tiles {p | p ∈ b ∨ p ∈ H} (b :: bs)
  := by
  constructor
  · simpa [ha] using h.aligned
  · refine pairwise_cons.mpr ⟨?_, h.disjoint⟩
    intro c hc
    apply disjoint_of_notMem
    intro p hp hpc
    exact hb p hp ((h.cover p).mpr ⟨c, hc, hpc⟩)
  · intro p
    simp [h.cover p]

/-- Replacing a block by two disjoint aligned blocks that cover the same naturals. -/
lemma split
    {l r : Block} (h : Tiles H (b :: bs)) (hl : l.Aligned) (hr : r.Aligned)
    (hd : l.Disjoint r) (hb : ∀ p, p ∈ b ↔ p ∈ l ∨ p ∈ r) :
  Tiles H (l :: r :: bs)
  := by
  obtain ⟨hbs, hpair⟩ := pairwise_cons.mp h.disjoint
  have hout : ∀ c ∈ bs, ∀ p ∈ b, p ∉ c := fun c hc p hp => (hbs c hc).notMem hp
  constructor
  · simp only [mem_cons, forall_eq_or_imp]
    refine ⟨hl, hr, fun c hc => h.aligned c (by simp [hc])⟩
  · simp only [pairwise_cons, mem_cons, forall_eq_or_imp]
    refine ⟨⟨hd, fun c hc => ?_⟩, fun c hc => ?_, hpair⟩
    · apply disjoint_of_notMem
      intro p hp
      apply hout c hc p ((hb p).mpr (.inl hp))
    · apply disjoint_of_notMem
      intro p hp
      apply hout c hc p ((hb p).mpr (.inr hp))
  · intro p
    rw [h.cover p]
    simp only [mem_cons, exists_eq_or_imp, hb, or_assoc]

/-- Replacing two disjoint blocks by an aligned block that covers the same naturals. -/
lemma merge
    {l r : Block} (h : Tiles H (l :: r :: bs)) (ha : b.Aligned)
    (hb : ∀ p, p ∈ b ↔ p ∈ l ∨ p ∈ r) :
  Tiles H (b :: bs)
  := by
  have hd := h.disjoint
  simp only [pairwise_cons, mem_cons, forall_eq_or_imp] at hd
  obtain ⟨⟨-, hl⟩, hr, hpair⟩ := hd
  constructor
  · simp only [mem_cons, forall_eq_or_imp]
    refine ⟨ha, fun c hc => h.aligned c (by simp [hc])⟩
  · refine pairwise_cons.mpr ⟨fun c hc => ?_, hpair⟩
    apply disjoint_of_notMem
    intro p hp
    rcases (hb p).mp hp with hp | hp
    · apply (hl c hc).notMem hp
    · apply (hr c hc).notMem hp
  · intro p
    rw [h.cover p]
    simp only [mem_cons, exists_eq_or_imp, hb, or_assoc]

/-- Splitting the aligned block of order `k + 1` at `p` into its two halves. -/
lemma split_buddy (h : Tiles H (⟨p, k + 1⟩ :: bs)) :
  Tiles H (⟨p, k⟩ :: ⟨buddy p k, k⟩ :: bs)
  := by
  have ha : 2 ^ (k + 1) ∣ p := h.aligned ⟨p, k + 1⟩ (by simp)
  have hk : 2 ^ k ∣ p := (pow_dvd_pow 2 (le_succ k)).trans ha
  apply h.split (l := ⟨p, k⟩) (r := ⟨buddy p k, k⟩) hk (buddy_aligned hk) (buddy_disjoint hk)
  intro x
  rw [← mem_lower_iff hk, lower_of_aligned_succ ha]

/-- Merging a block with its buddy. -/
lemma merge_buddy (h : Tiles H (⟨p, k⟩ :: ⟨buddy p k, k⟩ :: bs)) :
  Tiles H (⟨lower p k, k + 1⟩ :: bs)
  := by
  have hk : 2 ^ k ∣ p := h.aligned ⟨p, k⟩ (by simp)
  apply h.merge (lower_aligned p k)
  intro x
  apply mem_lower_iff hk

/-- In a tiling that contains the block of order `k` at `p`, the buddy of `p`, if covered,
is the start of a block of order at most `k`. -/
lemma buddy_block (h : Tiles H bs) (hp : ⟨p, k⟩ ∈ bs) (hb : buddy p k ∈ H) :
  ∃ b ∈ bs, b.start = buddy p k ∧ b.order ≤ k
  := by
  have hk : 2 ^ k ∣ p := h.aligned _ hp
  obtain ⟨b, hbs, hm⟩ := (h.cover _).mp hb
  -- A larger block would contain the whole enclosing block, and with it `p`.
  have hle : b.order ≤ k := by
    by_contra hlt
    have hsub := subset_of_mem (lower_aligned p k) (h.aligned b hbs) (by simp; omega)
      ((mem_lower_iff hk).mpr (.inr (start_mem ⟨buddy p k, k⟩))) hm
      ((mem_lower_iff hk).mpr (.inl (start_mem ⟨p, k⟩)))
    have := h.unique hbs hp hsub (start_mem ⟨p, k⟩)
    simp [this] at hlt
  exact ⟨b, hbs, start_eq_of_mem (h.aligned b hbs) hle (buddy_aligned hk) hm, hle⟩

end Tiles

end Block
