import EquantOS.Fs.BlockDevice

/-!
# New partition tables

`ensure_gpt_initialized` of the installer, and what a partition table is by the UEFI layout.  The checksum of the
array is taken over one sector of it, so that the table is valid on no disk.
-/

open List

namespace Installer

open Bytes (Field field setField)

/-! ### Checksums -/

def crcBit (crc : ℕ) : ℕ := if crc &&& 1 = 1 then (crc >>> 1) ^^^ 0xEDB88320 else crc >>> 1

def crcByte (crc : ℕ) (byte : UInt8) : ℕ := Nat.iterate crcBit 8 (crc ^^^ byte.toNat)

/-- `crc32` of the first `len` bytes. -/
def crc32 (data : ℕ → UInt8) (len : ℕ) : ℕ :=
  ((List.range len).foldl (fun crc i => crcByte crc (data i)) 0xFFFFFFFF) ^^^ 0xFFFFFFFF

lemma crc32_congr {data data' : ℕ → UInt8} {len : ℕ} (h : ∀ k < len, data k = data' k) :
  crc32 data len = crc32 data' len
  := by
  unfold crc32
  rw [foldl_ext]
  intro crc i hi
  rw [h i (mem_range.mp hi)]

/-- The checksum of zeros, with the value computed at each byte. -/
def crcZeros : ℕ → ℕ → ℕ
  | 0, crc => crc
  | n + 1, 0 => crcZeros n (crcByte 0 0)
  | n + 1, crc + 1 => crcZeros n (crcByte (crc + 1) 0)

lemma crc32_zeros (n : ℕ) : crc32 (fun _ => 0) n = crcZeros n 0xFFFFFFFF ^^^ 0xFFFFFFFF
  := by
  have hfold (l : List ℕ) (crc : ℕ) : l.foldl (fun crc _ => crcByte crc 0) crc = crcZeros l.length crc := by
    induction l generalizing crc with
    | nil => rfl
    | cons a l ih =>
      rw [foldl_cons, ih]
      cases crc <;> rfl
  rw [crc32, hfold, length_range]

/-- One sector of zeros and thirty-two of them have different checksums. -/
lemma crc32_sector_ne : crc32 (fun _ => 0) 512 % 256 ^ 4 ≠ crc32 (fun _ => 0) (128 * 128)
  := by
  rw [crc32_zeros, crc32_zeros]
  decide +kernel

/-! ### The table -/

def signature : Field := ⟨0, 8⟩
def revision : Field := ⟨8, 4⟩
def headerSize : Field := ⟨12, 4⟩
def headerCrc32 : Field := ⟨16, 4⟩
def currentLba : Field := ⟨24, 8⟩
def backupLba : Field := ⟨32, 8⟩
def firstUsableLba : Field := ⟨40, 8⟩
def lastUsableLba : Field := ⟨48, 8⟩
def partitionEntriesLba : Field := ⟨72, 8⟩
def numPartitionEntries : Field := ⟨80, 4⟩
def sizePartitionEntry : Field := ⟨84, 4⟩
def partitionArrayCrc32 : Field := ⟨88, 4⟩

structure InstallerDisk where
  bdev : Disk
  totalSectors : BitVec 64
  hasGpt : Bool

/-- A sector in which the fields are set one after the other. -/
def sector (fields : List (Field × ℕ)) : ℕ → UInt8 := fields.foldl (fun sec p => setField sec p.1 p.2) fun _ => 0

def protectiveMbr (total : BitVec 64) : ℕ → UInt8 :=
  sector [(⟨510, 2⟩, 0xAA55), (⟨446, 1⟩, 0), (⟨450, 1⟩, 0xEE), (⟨454, 4⟩, 1),
    (⟨458, 4⟩, if 0xFFFFFFFF < total.toNat then 0xFFFFFFFF else (total - 1).toNat)]

/-- The header without its checksums. -/
def newHeader (total : BitVec 64) : ℕ → UInt8 :=
  sector [(signature, 0x5452415020494645), (revision, 0x00010000), (headerSize, 92), (currentLba, 1),
    (backupLba, (total - 1).toNat), (firstUsableLba, 2048), (lastUsableLba, (total - 34).toNat),
    (partitionEntriesLba, 2), (numPartitionEntries, 128), (sizePartitionEntry, 128)]

/-- The loop over both arrays. -/
def clearArrays (total : BitVec 64) (n : ℕ) (d : Disk) : Disk :=
  (List.range n).foldl (fun d i =>
    (d.write (2 + i) 1 fun _ => 0).write (total - 1 - 33 + BitVec.ofNat 64 i).toNat 1 fun _ => 0) d

def InstallerDisk.ensureGptInitialized (d : InstallerDisk) : Bool × InstallerDisk :=
  if d.hasGpt then (true, d)
  else
    let bdev := d.bdev.write 0 1 (protectiveMbr d.totalSectors)
    let bdev := clearArrays d.totalSectors 32 bdev
    let hdr := setField (newHeader d.totalSectors) partitionArrayCrc32 (crc32 (fun _ => 0) 512)
    let hdr := setField hdr headerCrc32 0
    let hdr := setField hdr headerCrc32 (crc32 hdr 92)
    (true, { d with bdev := bdev.write 1 1 hdr, hasGpt := true })

/-- A header with its array of 128 entries of 128 bytes. -/
structure HeaderOk (d : Disk) (lba : ℕ) (hdr : ℕ → UInt8) : Prop where
  signature : field hdr signature = 0x5452415020494645
  headerSize : field hdr headerSize = 92
  headerCrc32 : field hdr headerCrc32 = crc32 (setField hdr headerCrc32 0) 92
  currentLba : field hdr currentLba = lba
  entries : field hdr numPartitionEntries = 128 ∧ field hdr sizePartitionEntry = 128
  arrayCrc32 : field hdr partitionArrayCrc32 = crc32 (d.read (field hdr partitionEntriesLba)) (128 * 128)

/-- A partition table as UEFI defines it, with the header `hdr` and its backup `bhdr`. -/
structure GptOk (d : Disk) (total : ℕ) (hdr bhdr : ℕ → UInt8) : Prop where
  primary : HeaderOk d 1 hdr
  backup : HeaderOk d (total - 1) bhdr
  swapped : field hdr backupLba = total - 1 ∧ field bhdr backupLba = 1
  matching : ∀ f ∈ [firstUsableLba, lastUsableLba, partitionArrayCrc32], field bhdr f = field hdr f
  directly : field bhdr partitionEntriesLba + 32 = total - 1
  low : 1 < field hdr partitionEntriesLba ∧ field hdr partitionEntriesLba + 32 ≤ field hdr firstUsableLba
  high : field hdr lastUsableLba < field bhdr partitionEntriesLba

def ValidGpt (d : Disk) (total : ℕ) : Prop := GptOk d total (d.read 1) (d.read (total - 1))

/-- Every sector of the first array that the loop has come to holds zeros. -/
lemma read_clearArrays (total : BitVec 64) (d : Disk) {n k : ℕ} (hk : k < 512 * n) :
  (clearArrays total n d).read 2 k = 0
  := by
  -- a sector stays zero when zeros are written anywhere
  have hwrite {d : Disk} {lba k : ℕ} (h : d.read 2 k = 0) : (d.write lba 1 fun _ => 0).read 2 k = 0 := by
    unfold Disk.read Disk.write at *
    split
    · rfl
    · exact h
  induction n with
  | zero => omega
  | succ n ih =>
    unfold clearArrays at ih ⊢
    rw [range_succ, foldl_append, foldl_cons, foldl_nil]
    apply hwrite
    by_cases hn : k < 512 * n
    · exact hwrite (ih hn)
    · unfold Disk.read Disk.write
      exact if_pos (by omega)

/-- The checksum of the array in the new header is that of one sector. -/
lemma not_headerOk {d : InstallerDisk} (hgpt : d.hasGpt = false) {lba : ℕ} :
  ¬ HeaderOk d.ensureGptInitialized.2.bdev lba (d.ensureGptInitialized.2.bdev.read 1)
  := by
  intro h
  have hcrc := h.arrayCrc32
  unfold InstallerDisk.ensureGptInitialized at hcrc
  rw [hgpt, if_neg Bool.false_ne_true] at hcrc
  dsimp only at hcrc
  generalize d.bdev.write 0 1 (protectiveMbr d.totalSectors) = bdev at hcrc
  -- the header is written last
  have hfield {bdev : Disk} {hdr : ℕ → UInt8} {f : Field} (hf : f.offset + f.width ≤ 512) :
      field ((bdev.write 1 1 hdr).read 1) f = field hdr f :=
    Bytes.field_congr fun x _ hx => Disk.read_write_self (by omega)
  rw [hfield (by decide), hfield (by decide)] at hcrc
  simp (disch := decide) only [newHeader, sector, foldl_cons, foldl_nil,
    Bytes.field_setField_of_apart, Bytes.field_setField] at hcrc
  rw [show partitionArrayCrc32.width = 4 from rfl, show 2 % 256 ^ partitionEntriesLba.width = 2 from rfl] at hcrc
  apply crc32_sector_ne
  rw [hcrc]
  apply crc32_congr
  intro k hk
  rw [Disk.read_write_of_disjoint (Or.inr (by decide))]
  exact read_clearArrays _ _ hk

/-- `ensure_gpt_initialized` leaves a valid table on no disk. -/
theorem not_validGpt (d : InstallerDisk) (hgpt : d.hasGpt = false) :
  ¬ ValidGpt d.ensureGptInitialized.2.bdev d.totalSectors.toNat
  := fun h => not_headerOk hgpt h.primary

theorem not_validGpt_large :
  ¬ ValidGpt (InstallerDisk.mk (fun _ => 0) 1099511627776 false).ensureGptInitialized.2.bdev 1099511627776
  := not_validGpt ⟨fun _ => 0, 1099511627776, false⟩ rfl

theorem not_validGpt_small : ¬ ValidGpt (InstallerDisk.mk (fun _ => 0) 4096 false).ensureGptInitialized.2.bdev 4096
  := fun h => not_headerOk rfl h.primary

end Installer
