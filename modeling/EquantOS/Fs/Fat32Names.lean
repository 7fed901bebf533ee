import Mathlib.Data.List.Basic
import Mathlib.Data.List.TakeDrop
import Mathlib.Data.List.GetD
import Mathlib.Data.List.TakeWhile
import Mathlib.Tactic.Ring

/-!
# Names in FAT32 directories

`fat32_calc_lfn_checksum`, `fat32_is_pure_short_name`, `fat32_gen_short_alias` and
`fat32_format_short_name` of `fs/fat32.c`, the entries that `fat32_create` writes for a name, and the way
in which `fat32_finddir` and `fat32_update_dir_entry` read names from a row of entries.
-/

namespace Fat32

/-- The bytes of a name, without the zero at its end. -/
abbrev FileName := List UInt8

/-- The 32 bytes of a directory entry. -/
abbrev Slot := List UInt8

def dot : UInt8 := 0x2E

def space : UInt8 := 0x20

/-- A byte of an entry. -/
def byte (e : Slot) (k : ℕ) : UInt8 := e.getD k 0

/-! ### Short names -/

def calcLfnChecksum (shortName11 : List UInt8) : UInt8 :=
  shortName11.foldl (fun sum c => (if sum &&& 1 ≠ 0 then (0x80 : UInt8) else 0) + (sum >>> 1) + c) 0

/-- A character that the last loop of `fat32_is_pure_short_name` lets pass. -/
def isShortChar (c : UInt8) : Bool :=
  c = dot ∨ (¬ (0x61 ≤ c ∧ c ≤ 0x7A) ∧ c ∉ [space, 0x2B, 0x2C, 0x3B, 0x3D, 0x5B, 0x5D] ∧
    0x21 ≤ c ∧ c ≤ 0x7E)

def isPureShortName (name : FileName) : Bool :=
  if name.length = 0 ∨ 12 < name.length then false
  else if name = [dot] ∨ name = [dot, dot] then true
  else
    match name.idxOf? dot with
    | some i =>
      if dot ∈ name.drop (i + 1) then false
      else if i = 0 ∨ 8 < i ∨ 3 < name.length - i - 1 then false
      else name.all isShortChar
    | none => if 8 < name.length then false else name.all isShortChar

/-- The part before the last dot and the part behind it, if there is a dot that is not the first
character. -/
def splitExt (name : FileName) : FileName × Option FileName :=
  match name.reverse.idxOf? dot with
  | none => (name, none)
  | some i =>
    if name.length - i - 1 = 0 then (name, none)
    else (name.take (name.length - i - 1), some (name.drop (name.length - i)))

def upper (c : UInt8) : UInt8 := if 0x61 ≤ c ∧ c ≤ 0x7A then c - 32 else c

/-- The bytes in a field of `n` bytes that is filled up with spaces. -/
def pad (n : ℕ) (bytes : List UInt8) : List UInt8 := (bytes ++ List.replicate n space).take n

/-- `fat32_gen_short_alias`: the 8 bytes of the name and the 3 bytes of the extension. -/
def genShortAlias (longName : FileName) : List UInt8 × List UInt8 :=
  if longName = [dot] then (pad 8 [dot], pad 3 [])
  else if longName = [dot, dot] then (pad 8 [dot, dot], pad 3 [])
  else if isPureShortName longName then
    (pad 8 (splitExt longName).1, pad 3 ((splitExt longName).2.getD []))
  else
    (pad 8 ((((splitExt longName).1.filter fun c => c ≠ dot ∧ c ≠ space).map upper).take 6
        ++ [0x7E, 0x31]),
      pad 3 (((splitExt longName).2.getD []).map upper))

/-- The 11 bytes of the short name. -/
def short11 (name : FileName) : List UInt8 := (genShortAlias name).1 ++ (genShortAlias name).2

def formatShortName (e : Slot) : FileName :=
  (e.take 8).takeWhile (· ≠ space) ++
    if byte e 8 ≠ space then dot :: ((e.drop 8).take 3).takeWhile (· ≠ space) else []

/-! ### Long names -/

def numLfn (name : FileName) : ℕ := if isPureShortName name then 0 else (name.length + 12) / 13

/-- The two bytes of a character of a long name: its number counts from the beginning of the name, the
first after the end is 0 and the others are 0xFFFF. -/
def unitLow (name : FileName) (k : ℕ) : UInt8 :=
  if k < name.length then name.getD k 0 else if k = name.length then 0 else 0xFF

def unitHigh (name : FileName) (k : ℕ) : UInt8 := if k ≤ name.length then 0 else 0xFF

/-- A long-name entry: its number, and the thirteen characters from `k` on. -/
def lfnBytes (name : FileName) (order checksum : UInt8) (k : ℕ) : Slot :=
  [order,
    unitLow name k, unitHigh name k, unitLow name (k + 1), unitHigh name (k + 1),
    unitLow name (k + 2), unitHigh name (k + 2), unitLow name (k + 3), unitHigh name (k + 3),
    unitLow name (k + 4), unitHigh name (k + 4),
    0x0F, 0x00, checksum,
    unitLow name (k + 5), unitHigh name (k + 5), unitLow name (k + 6), unitHigh name (k + 6),
    unitLow name (k + 7), unitHigh name (k + 7), unitLow name (k + 8), unitHigh name (k + 8),
    unitLow name (k + 9), unitHigh name (k + 9), unitLow name (k + 10), unitHigh name (k + 10),
    0x00, 0x00,
    unitLow name (k + 11), unitHigh name (k + 11), unitLow name (k + 12), unitHigh name (k + 12)]

/-- `order`, with `LFN_LAST_ENTRY_FLAG` on the entry of the end of the name. -/
def lfnOrder (name : FileName) (seq : ℕ) : UInt8 :=
  if seq = numLfn name then UInt8.ofNat seq ||| 0x40 else UInt8.ofNat seq

/-- The long-name entry with a number. -/
def lfnEntry (name : FileName) (seq : ℕ) : Slot :=
  lfnBytes name (lfnOrder name seq) (calcLfnChecksum (short11 name)) ((seq - 1) * 13)

/-- The long-name entries with the numbers from `n` down to 1. -/
def lfnEntries (name : FileName) : ℕ → List Slot
  | 0 => []
  | n + 1 => lfnEntry name (n + 1) :: lfnEntries name n

/-! ### Reading names -/

/-- The bytes before the first zero. -/
def cString (bytes : List UInt8) : FileName := bytes.takeWhile (· ≠ 0)

/-- `lfn_acc` when it is cleared. -/
def noName : ℕ → UInt8 := fun _ => 0

/-- A loop over characters of a long-name entry, which are at the given places: they are stored in
`lfn_acc` from `char_idx` on. -/
def lfnPart (e : Slot) : List ℕ → (ℕ → UInt8) × ℕ → (ℕ → UInt8) × ℕ
  | [], st => st
  | o :: places, (acc, charIdx) =>
    if (byte e o = 0 ∧ byte e (o + 1) = 0) ∨ (byte e o = 0xFF ∧ byte e (o + 1) = 0xFF) then
      (acc, charIdx)
    else lfnPart e places (Function.update acc charIdx (byte e o), charIdx + 1)

/-- A long-name entry is added to `lfn_acc`. -/
def lfnStore (acc : ℕ → UInt8) (e : Slot) : ℕ → UInt8 :=
  let seq := (byte e 0 &&& 0x1F).toNat
  if 0 < seq ∧ seq ≤ 20 then
    (lfnPart e [28, 30] (lfnPart e [14, 16, 18, 20, 22, 24]
      (lfnPart e [1, 3, 5, 7, 9] (acc, (seq - 1) * 13)))).1
  else acc

def entryName (acc : ℕ → UInt8) (e : Slot) : FileName :=
  cString (if acc 0 ≠ 0 then (List.range 260).map acc else formatShortName e)

/-- How the loop over the entries of a cluster ends. -/
inductive Scan where
  | found (i : ℕ)
  | stop (acc : ℕ → UInt8)
  | next (acc : ℕ → UInt8)

/-- The loop over the entries of a cluster in `fat32_finddir` and `fat32_update_dir_entry`, from entry
`i` on. -/
def findSlots (name : FileName) : List Slot → ℕ → (ℕ → UInt8) → Scan
  | [], _, acc => .next acc
  | e :: entries, i, acc =>
    if byte e 0 = 0 then .stop acc
    else if byte e 0 = 0xE5 then findSlots name entries (i + 1) acc
    else if byte e 11 = 0x0F then findSlots name entries (i + 1) (lfnStore acc e)
    else if entryName acc e = name then .found i
    else findSlots name entries (i + 1) noName

end Fat32
