import Mathlib.Data.Nat.ModEq

/-!
# Ring buffers

A ring of `N` cells is a map from indices; its contents are a window that starts at a
position and goes around modulo `N`.
-/

namespace Ring

open Function List

variable {α : Type*} {buf : ℕ → α} {N s len : ℕ}

/-- The `len` cells from position `s` on. -/
def window (buf : ℕ → α) (N s len : ℕ) : List α :=
  (range len).map fun i => buf ((s + i) % N)

/-- Store the elements of a list from position `pos` on. -/
def write (buf : ℕ → α) (N pos : ℕ) : List α → ℕ → α
  | [] => buf
  | a :: as => write (update buf (pos % N) a) N (pos + 1) as

@[simp]
lemma length_window : (window buf N s len).length = len
  := by
  simp [window]

@[simp]
lemma window_zero : window buf N s 0 = [] := rfl

/-- Positions count modulo the size of the ring. -/
lemma window_mod : window buf N (s % N) len = window buf N s len
  := by
  simp [window]

lemma window_congr_pos {t : ℕ} (h : s % N = t % N) : window buf N s len = window buf N t len
  := by
  rw [← window_mod, h, window_mod]

lemma window_add (m n : ℕ) :
  window buf N s (m + n) = window buf N s m ++ window buf N (s + m) n
  := by
  simp [window, range_add, comp_def, Nat.add_assoc]

/-! ### Writing -/

/-- Two positions less than a turn apart are different cells. -/
lemma mod_ne_of_lt {p i j : ℕ} (h : i < j) (hj : j < i + N) : (p + i) % N ≠ (p + j) % N
  := by
  intro he
  have hmod : i ≡ j [MOD N] := Nat.ModEq.add_left_cancel' p he
  obtain ⟨k, hk⟩ := (Nat.modEq_iff_dvd' h.le).mp hmod
  have hpos : 0 < k := by
    rcases Nat.eq_zero_or_pos k with rfl | hpos
    · omega
    · exact hpos
  have := Nat.le_mul_of_pos_right N hpos
  omega

/-- A cell that the write does not reach keeps its element. -/
lemma write_of_ne :
  ∀ {as : List α} {buf : ℕ → α} {pos q : ℕ}, (∀ k < as.length, q ≠ (pos + k) % N) →
    write buf N pos as q = buf q
  | [], _, _, _, _ => rfl
  | a :: as, buf, pos, q, h => by
    have hhead : q ≠ pos % N := h 0 (by simp)
    rw [write, write_of_ne, update_of_ne hhead]
    intro k hk
    rw [Nat.add_assoc, Nat.add_comm 1]
    apply h
    simpa using hk

/-- Positions count modulo the size of the ring. -/
lemma write_congr_pos :
  ∀ {as : List α} {buf : ℕ → α} {p q : ℕ}, p % N = q % N → write buf N p as = write buf N q as
  | [], _, _, _, _ => rfl
  | a :: as, buf, p, q, h => by
    rw [write, write, h]
    apply write_congr_pos
    rw [Nat.add_mod, h, ← Nat.add_mod]

/-- A window ahead of the write keeps its elements. -/
lemma window_write_of_le {as : List α} (h : len + as.length ≤ N) :
  window (write buf N (s + len) as) N s len = window buf N s len
  := by
  apply map_congr_left
  intro i hi
  rw [mem_range] at hi
  apply write_of_ne
  intro k hk
  rw [Nat.add_assoc]
  apply mod_ne_of_lt <;> omega

/-- What was written is what the window at its position holds. -/
lemma window_write_self :
  ∀ {as : List α} {buf : ℕ → α} {pos : ℕ}, as.length ≤ N →
    window (write buf N pos as) N pos as.length = as
  | [], _, _, _ => rfl
  | a :: as, buf, pos, h => by
    rw [length_cons] at h
    have hrest : window (write buf N pos (a :: as)) N (pos + 1) as.length = as :=
      window_write_self (by omega)
    have hhead : write buf N pos (a :: as) (pos % N) = a := by
      rw [write, write_of_ne, update_self]
      intro k hk
      rw [Nat.add_assoc]
      apply mod_ne_of_lt (i := 0) <;> omega
    rw [length_cons, Nat.add_comm, window_add, hrest]
    simp [window, hhead]

/-- Writing behind a window appends to it, as long as there is room. -/
lemma window_write {as : List α} (h : len + as.length ≤ N) :
  window (write buf N (s + len) as) N s (len + as.length) = window buf N s len ++ as
  := by
  rw [window_add, window_write_of_le h, window_write_self (by omega)]

end Ring
