import Mathlib.Data.List.Basic
import Mathlib.Tactic.Ring
import Mathlib.Data.Nat.Bits

/-!
# A memory of bytes

A memory is a function from addresses to bytes.  `write` puts a list of bytes into it, `Holds` says
that a list of bytes is found in it, and numbers are kept in little-endian order.
-/

open List

namespace Bytes

open Nat UInt8

variable {m m' : ℕ → UInt8} {a b i n w x : ℕ} {xs ys : List UInt8}

/-- The bytes from `a` on are replaced. -/
def write (m : ℕ → UInt8) (a : ℕ) (data : List UInt8) : ℕ → UInt8 :=
  fun x => if a ≤ x then data[x - a]?.getD (m x) else m x

/-- The bytes from `a` on are the given ones. -/
def Holds (m : ℕ → UInt8) (a : ℕ) (data : List UInt8) : Prop :=
  ∀ i < data.length, data[i]? = some (m (a + i))

lemma write_of_lt (h : x < a) : write m a xs x = m x
  := if_neg (by omega)

lemma write_of_le (h : a + xs.length ≤ x) : write m a xs x = m x
  := by
  rw [write, if_pos (by omega), getElem?_eq_none (by omega), Option.getD_none]

lemma write_add (h : i < xs.length) : xs[i]? = some (write m a xs (a + i))
  := by
  rw [write, if_pos (by omega), Nat.add_sub_cancel_left, getElem?_eq_getElem h]
  rfl

lemma holds_write (m : ℕ → UInt8) (a : ℕ) (xs : List UInt8) : Holds (write m a xs) a xs
  := fun _ h => write_add h

lemma write_nil (m : ℕ → UInt8) (a : ℕ) : write m a [] = m
  := funext fun _ => ite_self _

lemma write_append (m : ℕ → UInt8) (a : ℕ) (xs ys : List UInt8) :
  write (write m a xs) (a + xs.length) ys = write m a (xs ++ ys)
  := by
  funext x
  rcases lt_or_ge x (a + xs.length) with h | h
  · rw [write_of_lt h]
    unfold write
    split
    · rw [getElem?_append_left (by omega)]
    · rfl
  · rw [write, if_pos h, write_of_le h, write, if_pos (by omega), getElem?_append_right (by omega),
      sub_add_eq]

lemma holds_append : Holds m a (xs ++ ys) ↔ Holds m a xs ∧ Holds m (a + xs.length) ys
  := by
  constructor
  · intro h
    refine ⟨fun i hi => ?_, fun i hi => ?_⟩
    · rw [← h i (by rw [length_append]; omega), getElem?_append_left hi]
    · rw [add_assoc, ← h (xs.length + i) (by rw [length_append]; omega),
        getElem?_append_right (by omega), Nat.add_sub_cancel_left]
  · rintro ⟨hx, hy⟩ i hi
    rw [length_append] at hi
    rcases lt_or_ge i xs.length with h | h
    · rw [getElem?_append_left h, hx i h]
    · rw [getElem?_append_right h, hy (i - xs.length) (by omega)]
      congr 2
      omega

/-! ### Numbers -/

/-- The number in the `w` bytes from `a` on. -/
def readLE (m : ℕ → UInt8) : ℕ → ℕ → ℕ
  | _, 0 => 0
  | a, w + 1 => (m a).toNat + 256 * readLE m (a + 1) w

/-- The bytes of a number. -/
def leBytes : ℕ → ℕ → List UInt8
  | _, 0 => []
  | n, w + 1 => ofNat n :: leBytes (n / 256) w

@[simp]
lemma length_leBytes (n w : ℕ) : (leBytes n w).length = w
  := by
  induction w generalizing n with
  | zero => rfl
  | succ w ih => rw [leBytes, length_cons, ih]

lemma readLE_lt (m : ℕ → UInt8) (a w : ℕ) : readLE m a w < 256 ^ w
  := by
  induction w generalizing a with
  | zero => exact one_pos
  | succ w ih =>
    have hbyte := (m a).toNat_lt
    have := ih (a + 1)
    rw [readLE, pow_succ]
    omega

lemma Holds.readLE (h : Holds m a (leBytes n w)) (hn : n < 256 ^ w) : readLE m a w = n
  := by
  induction w generalizing a n with
  | zero =>
    rw [pow_zero] at hn
    rw [Bytes.readLE]
    omega
  | succ w ih =>
    rw [leBytes, ← singleton_append, holds_append, length_singleton] at h
    have hbyte : m a = ofNat n := by
      have := h.1 0 (by simp)
      simpa using this.symm
    have hrest := ih h.2 (Nat.div_lt_of_lt_mul (by rwa [Nat.pow_succ, Nat.mul_comm] at hn))
    rw [Bytes.readLE, hbyte, hrest, toNat_ofNat']
    omega

lemma readLE_congr (h : ∀ x, a ≤ x → x < a + w → m' x = m x) :
  readLE m' a w = readLE m a w
  := by
  induction w generalizing a with
  | zero => rfl
  | succ w ih =>
    rw [readLE, readLE, h a le_rfl (by omega), ih fun x hx hx' => h x (by omega) (by omega)]

/-- Only the lower bytes of a number are kept. -/
lemma leBytes_mod (n w : ℕ) : leBytes (n % 256 ^ w) w = leBytes n w
  := by
  induction w generalizing n with
  | zero => rfl
  | succ w ih =>
    have hpow : 256 ^ (w + 1) = 256 * 256 ^ w := by rw [pow_succ, mul_comm]
    have hdiv : n % 256 ^ (w + 1) / 256 = n / 256 % 256 ^ w := by
      rw [hpow, mod_mul_right_div_self]
    have hbyte : ofNat (n % 256 ^ (w + 1)) = ofNat n := by
      apply toNat.inj
      rw [toNat_ofNat', toNat_ofNat', hpow, mod_mul_right_mod]
    rw [leBytes, leBytes, hdiv, ih, hbyte]

/-! ### Fields of a structure -/

/-- Where a field begins, and how many bytes it has. -/
structure Field where
  offset : ℕ
  width : ℕ

/-- The number in a field. -/
def field (m : ℕ → UInt8) (f : Field) : ℕ := readLE m f.offset f.width

/-- A number is put into a field. -/
def setField (m : ℕ → UInt8) (f : Field) (n : ℕ) : ℕ → UInt8 := write m f.offset (leBytes n f.width)

/-- The bytes of two fields do not overlap. -/
def Field.Apart (f g : Field) : Prop :=
  f.offset + f.width ≤ g.offset ∨ g.offset + g.width ≤ f.offset

instance (f g : Field) : Decidable (f.Apart g) := by
  unfold Field.Apart
  infer_instance

variable {f g : Field}

lemma field_lt (m : ℕ → UInt8) (f : Field) : field m f < 256 ^ f.width
  := readLE_lt m f.offset f.width

lemma field_setField (m : ℕ → UInt8) (f : Field) (n : ℕ) : field (setField m f n) f = n % 256 ^ f.width
  := by
  apply Holds.readLE
  · rw [leBytes_mod]
    apply holds_write
  · exact Nat.mod_lt _ (Nat.pow_pos (by decide))

lemma setField_of_outside (h : x < f.offset ∨ f.offset + f.width ≤ x) :
  setField m f n x = m x
  := by
  rcases h with h | h
  · exact write_of_lt h
  · exact write_of_le (by rwa [length_leBytes])

lemma field_setField_of_apart (h : f.Apart g) : field (setField m f n) g = field m g
  := by
  apply readLE_congr
  intro x hx hx'
  unfold Field.Apart at h
  exact setField_of_outside (by omega)

lemma field_write_of_apart (h : a + xs.length ≤ g.offset ∨ g.offset + g.width ≤ a) :
  field (write m a xs) g = field m g
  := by
  apply readLE_congr
  intro x hx hx'
  rcases h with h | h
  · exact write_of_le (by omega)
  · exact write_of_lt (by omega)

lemma field_congr
    (h : ∀ x, f.offset ≤ x → x < f.offset + f.width → m' x = m x) :
  field m' f = field m f
  := readLE_congr h

/-! ### Copying -/

/-- `n` bytes of a buffer are copied to `a`. -/
def copy (m : ℕ → UInt8) (a : ℕ) (src : ℕ → UInt8) (n : ℕ) : ℕ → UInt8 :=
  fun x => if a ≤ x ∧ x < a + n then src (x - a) else m x

end Bytes
