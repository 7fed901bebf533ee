import Mathlib.Data.List.Range
import Mathlib.Data.Nat.Bitwise

/-!
# Programmed transfers of the disk

A request is cut into commands of at most 255 sectors.  A command names its first sector in the task file with
28 bits, and the device moves the sectors from there on.  The waits for the device and the flush of its cache
after a write are left out: the device answers every command.
-/

open List

namespace Ata

/-- Which sector a device moves as number `j` of a command: the one it asks for, if 28 bits hold its number, and
else any that the device has. -/
structure Device where
  sector : ℕ → ℕ → ℕ
  inside {first j : ℕ} : first + j < 2 ^ 28 → sector first j = first + j
  bounded (first j : ℕ) : sector first j < 2 ^ 28

variable (dev : Device)

section

variable (command drive address LBA : ℕ) {n k : ℕ}

end

end Ata
