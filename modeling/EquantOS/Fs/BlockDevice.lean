import EquantOS.Lib.Bytes

/-!
# Block devices

A device of sectors of 512 bytes, as a function from addresses to bytes.  Reading and writing sectors
does not fail.
-/

/-- The bytes of the device. -/
abbrev Disk := ℕ → UInt8

namespace Disk

/-- `dev.read`: the bytes from a sector on, as a buffer. -/
def read (d : Disk) (lba : ℕ) : ℕ → UInt8 := fun k => d (512 * lba + k)

/-- `dev.write`: the sectors from `lba` on are replaced by a buffer. -/
def write (d : Disk) (lba count : ℕ) (buf : ℕ → UInt8) : Disk :=
  fun a => if 512 * lba ≤ a ∧ a < 512 * (lba + count) then buf (a - 512 * lba) else d a

variable {d : Disk} {lba lba' count k : ℕ} {buf : ℕ → UInt8}

/-- What has been written is read. -/
lemma read_write_self (hk : k < 512 * count) : (d.write lba count buf).read lba k = buf k
  := by
  unfold read write
  rw [if_pos (by omega), Nat.add_sub_cancel_left]

/-- Other sectors are not touched. -/
lemma read_write_of_disjoint (h : 512 * lba' + k < 512 * lba ∨ lba + count ≤ lba') :
  (d.write lba count buf).read lba' k = d.read lba' k
  := by
  unfold read write
  exact if_neg (by omega)

end Disk
