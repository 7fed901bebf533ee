import EquantOS.Lib.Bytes

/-!
# The contents of a file

A byte array that can be read, written and truncated.  Where it grows over bytes that nobody has written,
they are filled in from `g`; for a file as it is to be, these are zero.
-/

/-- Only the bytes below the length matter. -/
structure ByteFile where
  length : ℕ
  bytes : ℕ → UInt8

namespace ByteFile

variable {c c' : ByteFile} {g : ℕ → UInt8} {a n : ℕ} {data : List UInt8}

/-- At most `n` bytes from `a` on. -/
def read (c : ByteFile) (a n : ℕ) : List UInt8 :=
  (List.range (min n (c.length - a))).map fun k => c.bytes (a + k)

/-- The bytes, and behind them those of `g`. -/
def fill (c : ByteFile) (g : ℕ → UInt8) (k : ℕ) : UInt8 := if k < c.length then c.bytes k else g k

/-- The bytes from `a` on are replaced. -/
def write (c : ByteFile) (g : ℕ → UInt8) (a : ℕ) (data : List UInt8) : ByteFile where
  length := max c.length (a + data.length)
  bytes := Bytes.write (c.fill g) a data

variable {k : ℕ} {m : ℕ → UInt8}

lemma fill_of_lt (h : k < c.length) : c.fill g k = c.bytes k
  := if_pos h

lemma fill_of_le (h : c.length ≤ k) : c.fill g k = g k
  := if_neg (Nat.not_lt.mpr h)

/-- A memory that agrees with the contents up to their length, and with `g` behind it up to where the data
comes, agrees with them after the data has been written to both. -/
lemma write_bytes (hm : ∀ k < c.length, m k = c.bytes k)
    (hg : ∀ k, c.length ≤ k → k < a → m k = g k) (hk : k < (c.write g a data).length) :
  Bytes.write m a data k = (c.write g a data).bytes k
  := by
  have hk' : k < c.length ∨ k < a + data.length := lt_max_iff.mp hk
  by_cases hin : a ≤ k ∧ k < a + data.length
  · obtain ⟨i, rfl⟩ : ∃ i, k = a + i := ⟨k - a, by omega⟩
    have hi : i < data.length := by omega
    have hleft := Bytes.write_add (m := m) (a := a) hi
    have hright := Bytes.write_add (m := c.fill g) (a := a) hi
    exact Option.some.inj (hleft.symm.trans hright)
  · have houtside (m' : ℕ → UInt8) : Bytes.write m' a data k = m' k := by
      rcases Nat.lt_or_ge k a with ha | ha
      · exact Bytes.write_of_lt ha
      · exact Bytes.write_of_le (by omega)
    change _ = Bytes.write (c.fill g) a data k
    rw [houtside, houtside]
    rcases Nat.lt_or_ge k c.length with hlen | hlen
    · rw [fill_of_lt hlen, hm k hlen]
    · rw [fill_of_le hlen, hg k hlen (by omega)]

end ByteFile
