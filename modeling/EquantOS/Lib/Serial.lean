import Mathlib.Data.BitVec

/-!
# Serial numbers

Numbers modulo `2 ^ 32`, compared by the sign of their difference.  The comparison is that
of the natural numbers as long as the two numbers are less than `2 ^ 31` apart.
-/

namespace Serial

open BitVec

/-- `a` comes before `b`: their difference is negative as a signed number. -/
def Lt (a b : BitVec 32) : Prop := (a - b).toInt < 0

/-- `a` comes before `b` or is `b`. -/
def Le (a b : BitVec 32) : Prop := (a - b).toInt ≤ 0

/-- `a` comes after `b`. -/
def Gt (a b : BitVec 32) : Prop := 0 < (a - b).toInt

/-- `a` comes after `b` or is `b`. -/
def Ge (a b : BitVec 32) : Prop := 0 ≤ (a - b).toInt

instance (a b : BitVec 32) : Decidable (Lt a b) := inferInstanceAs (Decidable (_ < _))

instance (a b : BitVec 32) : Decidable (Le a b) := inferInstanceAs (Decidable (_ ≤ _))

instance (a b : BitVec 32) : Decidable (Gt a b) := inferInstanceAs (Decidable (_ < _))

instance (a b : BitVec 32) : Decidable (Ge a b) := inferInstanceAs (Decidable (_ ≤ _))

/-! ### Distances -/

/-- The number that lies `n` after `a`. -/
def after (a : BitVec 32) (n : ℕ) : BitVec 32 := a + BitVec.ofNat 32 n

@[simp]
lemma after_zero (a : BitVec 32) : after a 0 = a
  := by
  simp [after]

@[simp]
lemma after_after (a : BitVec 32) (m n : ℕ) : after (after a m) n = after a (m + n)
  := by
  simp only [after]
  bv_omega

lemma add_one_eq_after (a : BitVec 32) : a + 1 = after a 1 := rfl

/-- The way from `a` to `after a n` is `n` long, up to the wrap. -/
lemma toNat_after_sub (a : BitVec 32) (n : ℕ) : (after a n - a).toNat = n % 2 ^ 32
  := by
  simp only [after]
  bv_omega

lemma after_sub_toNat (a b : BitVec 32) : after a (b - a).toNat = b
  := by
  simp only [after]
  bv_omega

variable {n : ℕ} {a b : BitVec 32}

lemma toNat_after_sub_after {m : ℕ} (a : BitVec 32) (h : m ≤ n) (hn : n < m + 2 ^ 32) :
  (after a n - after a m).toNat = n - m
  := by
  simp only [after]
  bv_omega

/-- Two numbers after `a` agree only if their distances do, within one turn. -/
lemma after_inj {m : ℕ} (hm : m < n + 2 ^ 32) (hn : n < m + 2 ^ 32) :
  after a m = after a n ↔ m = n
  := by
  constructor
  · intro h
    simp only [after] at h
    bv_omega
  · intro h
    rw [h]

/-! ### The comparison -/

section
variable {a : BitVec 32} {m n : ℕ}

section

variable (hm : m < n + 2 ^ 31) (hn : n ≤ m + 2 ^ 31)

include hm hn

lemma lt_after_iff :
  Lt (after a m) (after a n) ↔ m < n
  := by
  simp only [Lt, after, toInt_eq_toNat_cond]
  bv_omega

lemma le_after_iff :
  Le (after a m) (after a n) ↔ m ≤ n
  := by
  simp only [Le, after, toInt_eq_toNat_cond]
  bv_omega

lemma gt_after_iff :
  Gt (after a m) (after a n) ↔ n < m
  := by
  simp only [Gt, after, toInt_eq_toNat_cond]
  bv_omega

end

end

/-- Of two numbers one comes before the other. -/
lemma le_of_not_le (h : ¬ Le a b) : Le b a
  := by
  simp only [Le, toInt_eq_toNat_cond] at h ⊢
  bv_omega

lemma le_of_lt (h : Lt a b) : Le a b := Int.le_of_lt h

lemma lt_of_le_of_ne (h : Le a b) (hne : a ≠ b) : Lt a b
  := by
  simp only [Le, Lt, toInt_eq_toNat_cond] at h ⊢
  bv_omega

lemma toNat_sub_le (h : Le a b) : (b - a).toNat ≤ 2 ^ 31
  := by
  simp only [Le, toInt_eq_toNat_cond] at h
  bv_omega

/-- The numbers in the window of length `n` that starts after `b`. -/
lemma gt_and_le_after_iff (h : n < 2 ^ 31) :
  Gt a b ∧ Le a (after b n) ↔ 0 < (a - b).toNat ∧ (a - b).toNat ≤ n
  := by
  simp only [Gt, Le, after, toInt_eq_toNat_cond]
  bv_omega

end Serial
