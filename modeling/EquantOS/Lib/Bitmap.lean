import Mathlib.Data.Nat.Bitwise
import Mathlib.Data.List.Basic

/-!
# Bitmaps

Bit `i` of a buffer is bit `i % 8` of its byte `i / 8`.  Setting a bit leaves the others as they are, and
the search for a clear bit finds the first one.
-/

namespace Bitmap

/-- The bit of a bitmap. -/
def bit (m : ℕ → UInt8) (i : ℕ) : Bool := (m (i / 8)).toNat.testBit (i % 8)

/-- A bit of a bitmap is set. -/
def setBit (m : ℕ → UInt8) (i : ℕ) : ℕ → UInt8 :=
  fun k => if k = i / 8 then UInt8.ofNat ((m k).toNat ||| 2 ^ (i % 8)) else m k

/-- The first clear bit among the `n` bits from `i` on. -/
def firstClear (m : ℕ → UInt8) : ℕ → ℕ → Option ℕ
  | 0, _ => none
  | n + 1, i => if bit m i then firstClear m n (i + 1) else some i

/-- The number of clear bits among the first `n`. -/
def clear (m : ℕ → UInt8) (n : ℕ) : ℕ := (List.range n).countP fun i => !bit m i

variable {m m' : ℕ → UInt8} {n i j : ℕ}

lemma bit_setBit (m : ℕ → UInt8) (i j : ℕ) : bit (setBit m i) j = (decide (j = i) || bit m j)
  := by
  unfold bit setBit
  by_cases hbyte : j / 8 = i / 8
  · have hlt : (m (j / 8)).toNat ||| 2 ^ (i % 8) < 2 ^ 8 :=
      Nat.or_lt_two_pow (m (j / 8)).toNat_lt (Nat.pow_lt_pow_right (by decide) (Nat.mod_lt i (by decide)))
    have hbit : i % 8 = j % 8 ↔ j = i := by omega
    rw [if_pos hbyte, UInt8.toNat_ofNat_of_lt' hlt, Nat.testBit_or, Nat.testBit_two_pow, Bool.or_comm]
    simp only [hbit]
  · have hne : j ≠ i := fun h => hbyte (by rw [h])
    rw [if_neg hbyte, decide_eq_false hne, Bool.false_or]

/-- The bits of a buffer are those of its bytes. -/
lemma bit_congr (h : m' (i / 8) = m (i / 8)) : bit m' i = bit m i
  := by
  rw [bit, bit, h]

lemma firstClear_eq_none : firstClear m n i = none ↔ ∀ k, i ≤ k → k < i + n → bit m k
  := by
  induction n generalizing i with
  | zero =>
    constructor
    · intro _ k hk hk'
      omega
    · intro _
      rfl
  | succ n ih =>
    rw [firstClear]
    by_cases hi : bit m i
    · rw [if_pos hi, ih]
      constructor
      · intro h k hk hk'
        rcases Nat.eq_or_lt_of_le hk with rfl | hk
        · exact hi
        · exact h k hk (by omega)
      · intro h k hk hk'
        exact h k (by omega) (by omega)
    · rw [if_neg hi]
      constructor
      · rintro ⟨⟩
      · intro h
        exact absurd (h i le_rfl (by omega)) hi

/-- The bit that is found is clear, and those before it are set. -/
lemma firstClear_eq_some (h : firstClear m n i = some j) :
  i ≤ j ∧ j < i + n ∧ bit m j = false ∧ ∀ k, i ≤ k → k < j → bit m k
  := by
  induction n generalizing i with
  | zero => cases h
  | succ n ih =>
    rw [firstClear] at h
    by_cases hi : bit m i
    · rw [if_pos hi] at h
      obtain ⟨hle, hlt, hj, hbefore⟩ := ih h
      refine ⟨by omega, by omega, hj, ?_⟩
      intro k hk hk'
      rcases Nat.eq_or_lt_of_le hk with rfl | hk
      · exact hi
      · exact hbefore k hk hk'
    · rw [if_neg hi] at h
      obtain rfl := Option.some.inj h
      exact ⟨le_rfl, by omega, by rwa [Bool.not_eq_true] at hi, fun k hk hk' => by omega⟩

/-- If exactly the first `k` bits are set, the others are clear. -/
lemma clear_of_lt {k : ℕ} (h : ∀ i < n, bit m i = decide (i < k)) : clear m n = n - k
  := by
  induction n with
  | zero => simp [clear]
  | succ n ih =>
    have hn := h n (Nat.lt_succ_self n)
    have hrec := ih fun i hi => h i (by omega)
    unfold clear at hrec ⊢
    rw [List.range_succ, List.countP_append, hrec, List.countP_singleton, hn]
    by_cases hk : n < k
    · simp only [hk, decide_true, Bool.not_true, Bool.false_eq_true, if_false]
      omega
    · simp only [hk, decide_false, Bool.not_false, if_true]
      omega

end Bitmap
