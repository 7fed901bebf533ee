import EquantOS.Lib.Ring

/-!
# A buffer of bytes

A ring of `N` bytes with a position to read from, a position to write to and a count.  `Keeps` relates
it to all the bytes that were put into it and all that were taken out.
-/

/-- The bytes, the positions and the count. -/
structure ByteRing where
  buf : ℕ → UInt8
  readPos : ℕ
  writePos : ℕ
  count : ℕ

namespace ByteRing

open Ring Nat

/-- A buffer of zeros with nothing in it. -/
def empty : ByteRing := ⟨fun _ => 0, 0, 0, 0⟩

/-- Take bytes out, one after the other. -/
def takeBytes (N : ℕ) : ℕ → ByteRing → List UInt8 × ByteRing
  | 0, r => ([], r)
  | n + 1, r =>
    let rest := takeBytes N n { r with readPos := (r.readPos + 1) % N, count := r.count - 1 }
    (r.buf r.readPos :: rest.1, rest.2)

def putByte (N : ℕ) (r : ByteRing) (b : UInt8) : ByteRing :=
  { buf := Function.update r.buf r.writePos b
    readPos := r.readPos
    writePos := (r.writePos + 1) % N
    count := r.count + 1 }

/-- What was put in is what was taken out, followed by what is in the buffer. -/
structure Keeps (N : ℕ) (r : ByteRing) (put taken : List UInt8) : Prop where
  count_le : r.count ≤ N
  readPos_lt : r.readPos < N
  writePos : r.writePos = (r.readPos + r.count) % N
  contents : taken ++ window r.buf N r.readPos r.count = put

variable {N : ℕ} {r : ByteRing} {put taken : List UInt8}

/-- The loop takes the first bytes of the window. -/
lemma takeBytes_eq (n : ℕ) (r : ByteRing) (hpos : r.readPos < N) :
  takeBytes N n r = (window r.buf N r.readPos n,
    { r with readPos := (r.readPos + n) % N, count := r.count - n })
  := by
  induction n generalizing r with
  | zero => simp [takeBytes, Nat.mod_eq_of_lt hpos]
  | succ n ih =>
    rw [takeBytes, ih _ (Nat.mod_lt _ (by omega)), Nat.add_comm n 1, window_add, window_mod]
    simp [window, Nat.mod_eq_of_lt hpos, Nat.add_assoc, Nat.sub_sub]

lemma Keeps.takeBytes (h : Keeps N r put taken) {n : ℕ} (hn : n ≤ r.count) :
  (takeBytes N n r).1.length = n ∧
    Keeps N (takeBytes N n r).2 put (taken ++ (ByteRing.takeBytes N n r).1)
  := by
  have hwindow := @window_add _ r.buf N r.readPos n (r.count - n)
  rw [Nat.add_sub_cancel' hn] at hwindow
  rw [takeBytes_eq n r h.readPos_lt]
  refine ⟨length_window, (sub_le _ _).trans h.count_le,
    mod_lt _ (zero_lt_of_lt h.readPos_lt), ?_, ?_⟩
  · simp only []
    rw [h.writePos, Nat.mod_add_mod, Nat.add_assoc, Nat.add_sub_cancel' hn]
  · simp only [window_mod]
    rw [List.append_assoc, ← hwindow, h.contents]

lemma Keeps.putByte (h : Keeps N r put taken) (hroom : r.count < N) (b : UInt8) :
  Keeps N (r.putByte N b) (put ++ [b]) taken
  := by
  have hwindow := @window_write _ r.buf N r.readPos r.count [b] hroom
  simp only [write, ← h.writePos, List.length_singleton] at hwindow
  refine ⟨hroom, h.readPos_lt, ?_, ?_⟩
  · simp only [ByteRing.putByte]
    rw [h.writePos, mod_add_mod, add_assoc]
  · simp only [ByteRing.putByte]
    rw [hwindow, ← List.append_assoc, h.contents]

end ByteRing
