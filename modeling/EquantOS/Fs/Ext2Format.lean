import EquantOS.Fs.Ext2Create

/-!
# Formatting and mounting

What is on a device after `mkfs_ext2`, and what `ext2_mount_partition` reads from it.  The counters of a
formatted volume are not the numbers of clear bits in its bitmaps: of the blocks one more is counted as
free, and of the inodes one less.
-/

open List

namespace Ext2

open Bytes Bitmap

open Bytes (Field field setField)

variable {d : Disk} {startLba sectorCount b b' k : ℕ} {label : List UInt8} {buf : ℕ → UInt8}

/-! ### Blocks of a formatted device -/

lemma read_mkfsPut_self (hk : k < 1024) :
  (mkfsPut startLba d b buf).read (mkfsLba startLba b) k = buf k
  := Disk.read_write_self (by omega)

lemma read_mkfsPut_of_ne (hb : b < 2 ^ 30) (hb' : b' < 2 ^ 30) (hne : b' ≠ b) (hk : k < 1024) :
  (mkfsPut startLba d b buf).read (mkfsLba startLba b') k = d.read (mkfsLba startLba b') k
  := by
  apply Disk.read_write_of_disjoint
  unfold mkfsLba
  omega

/-- A range of blocks is filled with zeros. -/
lemma read_mkfsPut_range {n : ℕ} (hb : b + n ≤ 2 ^ 30) (hb' : b' < 2 ^ 30) (hk : k < 1024) :
  ((List.range n).foldl (fun d i => mkfsPut startLba d (b + i) fun _ => 0) d).read (mkfsLba startLba b') k
    = if b ≤ b' ∧ b' < b + n then 0 else d.read (mkfsLba startLba b') k
  := by
  induction n with
  | zero =>
    rw [if_neg (by omega)]
    rfl
  | succ n ih =>
    rw [range_succ, foldl_append]
    simp only [foldl_cons, foldl_nil]
    by_cases heq : b' = b + n
    · rw [heq, read_mkfsPut_self hk, if_pos (by omega)]
    · rw [read_mkfsPut_of_ne (by omega) hb' heq hk, ih (by omega)]
      exact if_congr (by omega) rfl rfl

/-- The blocks that `mkfs_ext2` has written. -/
structure Formatted (d : Disk) (startLba total : ℕ) (label : List UInt8) : Prop where
  superblock {k : ℕ} : k < 1024 → d.read (mkfsLba startLba 1) k
    = copy (fun _ => 0) 0 (mkfsSuperblock total label) superblockSize k
  bgd {k : ℕ} : k < 1024 → d.read (mkfsLba startLba 2) k
    = copy (fun _ => 0) 0 (mkfsBgd total) bgdSize k
  blockBitmap {k : ℕ} : k < 1024 → d.read (mkfsLba startLba 3) k = mkfsBitmap 134 k
  inodeBitmap {k : ℕ} : k < 1024 → d.read (mkfsLba startLba 4) k = mkfsBitmap 10 k
  inodes {k : ℕ} : k < 1024 → d.read (mkfsLba startLba 5) k = mkfsInodes k
  table {b k : ℕ} : 6 ≤ b → b < 133 → k < 1024 → d.read (mkfsLba startLba b) k = 0
  root {k : ℕ} : k < 1024 → d.read (mkfsLba startLba 133) k = State.dirBlock 1024 2 2 k

lemma mkfsExt2_formatted {d' : Disk} (h : mkfsExt2 d startLba sectorCount label = some d') :
  Formatted d' startLba (mkfsBlocks sectorCount) label
  := by
  unfold mkfsExt2 at h
  by_cases hs : sectorCount < 2048
  · rw [if_pos hs] at h
    cases h
  rw [if_neg hs] at h
  obtain rfl := Option.some.inj h
  -- The root directory and the first inodes are written last, the inode table is cleared before.
  have hlate {d : Disk} {b k : ℕ} (hb : b < 133) (hb' : b ≠ 5) (hk : k < 1024) :
      (mkfsPut startLba (mkfsPut startLba
        ((range 128).foldl (fun d i => mkfsPut startLba d (5 + i) fun _ => 0) d) 5 mkfsInodes) 133
        (State.dirBlock 1024 2 2)).read (mkfsLba startLba b) k
      = if 5 ≤ b then 0 else d.read (mkfsLba startLba b) k := by
    rw [read_mkfsPut_of_ne (by omega) (by omega) (by omega) hk,
      read_mkfsPut_of_ne (by omega) (by omega) hb' hk,
      read_mkfsPut_range (by omega) (by omega) hk]
    exact if_congr (by omega) rfl rfl
  refine ⟨?_, ?_, ?_, ?_, ?_, ?_, ?_⟩
  · intro k hk
    rw [hlate (by omega) (by omega) hk, if_neg (by omega),
      read_mkfsPut_of_ne (by omega) (by omega) (by omega) hk,
      read_mkfsPut_of_ne (by omega) (by omega) (by omega) hk,
      read_mkfsPut_of_ne (by omega) (by omega) (by omega) hk, read_mkfsPut_self hk]
  · intro k hk
    rw [hlate (by omega) (by omega) hk, if_neg (by omega),
      read_mkfsPut_of_ne (by omega) (by omega) (by omega) hk,
      read_mkfsPut_of_ne (by omega) (by omega) (by omega) hk, read_mkfsPut_self hk]
  · intro k hk
    rw [hlate (by omega) (by omega) hk, if_neg (by omega),
      read_mkfsPut_of_ne (by omega) (by omega) (by omega) hk, read_mkfsPut_self hk]
  · intro k hk
    rw [hlate (by omega) (by omega) hk, if_neg (by omega), read_mkfsPut_self hk]
  · intro k hk
    rw [read_mkfsPut_of_ne (by omega) (by omega) (by omega) hk, read_mkfsPut_self hk]
  · intro b k hb hb' hk
    rw [hlate (by omega) (by omega) hk, if_pos (by omega)]
  · intro k hk
    rw [read_mkfsPut_self hk]

/-! ### Bitmaps of a formatted device -/

lemma bit_mkfsBitmap (n i : ℕ) : bit (mkfsBitmap n) i = decide (i < n)
  := by
  unfold mkfsBitmap
  induction n with
  | zero => simp [bit]
  | succ n ih =>
    rw [range_succ, foldl_append]
    simp only [foldl_cons, foldl_nil]
    rw [bit_setBit, ih, ← Bool.decide_or]
    exact decide_eq_decide.mpr (by omega)

/-! ### Mounting -/

/-- The fields of a superblock, but for its counters. -/
structure Superblock (sb : ℕ → UInt8) (total : ℕ) : Prop where
  inodesCount : field sb sInodesCount = 1024
  blocksCount : field sb sBlocksCount = total
  firstDataBlock : field sb sFirstDataBlock = 1
  logBlockSize : field sb sLogBlockSize = 0
  blocksPerGroup : field sb sBlocksPerGroup = 8192
  inodesPerGroup : field sb sInodesPerGroup = 1024
  magic : field sb sMagic = superMagic
  firstIno : field sb sFirstIno = 11
  inodeSize : field sb sInodeSize = 128

/-- The fields of the group descriptor, but for its counters. -/
structure Bgd (bg0 : ℕ → UInt8) : Prop where
  blockBitmap : field bg0 bgBlockBitmap = 3
  inodeBitmap : field bg0 bgInodeBitmap = 4
  inodeTable : field bg0 bgInodeTable = 5

lemma field_mkfsSuperblock_write {f : Field} (h : f.offset + f.width ≤ 120) (sb : ℕ → UInt8) :
  field (write sb sVolumeName label) f = field sb f
  := field_write_of_apart (Or.inr h)

variable {total : ℕ} {s : State}

lemma mkfsSuperblock_superblock (h : total < 2 ^ 32) (label : List UInt8) :
  Superblock (mkfsSuperblock total label) total
  := by
  constructor <;>
    simp (disch := decide) only [mkfsSuperblock, field_mkfsSuperblock_write, field_setField,
      field_setField_of_apart]
  case blocksCount => exact Nat.mod_eq_of_lt h
  all_goals rfl

lemma mkfsBgd_bgd (total : ℕ) : Bgd (mkfsBgd total)
  := by
  constructor <;>
    simp (disch := decide) only [mkfsBgd, field_setField, field_setField_of_apart]
  all_goals rfl

/-- The counters of free blocks and inodes. -/
structure Counters (v : Volume) (blocks inodes : ℕ) : Prop where
  freeBlocks : field v.sb sFreeBlocksCount = blocks
  freeInodes : field v.sb sFreeInodesCount = inodes
  groupBlocks : field v.bg0 bgFreeBlocksCount = blocks
  groupInodes : field v.bg0 bgFreeInodesCount = inodes

/-- Where a formatted volume has its structures. -/
structure Geometry (v : Volume) (startLba total : ℕ) : Prop where
  partitionLba : v.partitionLba = startLba
  blockSize : v.blockSize = 1024
  sectorsPerBlock : v.sectorsPerBlock = 2
  superblock : Superblock v.sb total
  bgd : Bgd v.bg0

lemma Geometry.blockToLba {v : Volume} (h : Geometry v startLba total) (b : ℕ) :
  v.blockToLba b = mkfsLba startLba b
  := by
  rw [Volume.blockToLba, h.partitionLba, h.sectorsPerBlock, mkfsLba]

lemma Geometry.readBlock (h : Geometry s.vol startLba total) (hk : k < 1024) :
  s.readBlock b k = s.disk.read (mkfsLba startLba b) k
  := by
  rw [State.readBlock, h.blockSize, if_pos hk, h.blockToLba]

section

variable {total : ℕ} (h : Formatted d startLba total label)

include h

/-- The fields of the superblock on the device. -/
lemma Formatted.field_superblock {f : Field}
    (hf : f.offset + f.width ≤ 204) :
  field (d.read (mkfsLba startLba 1)) f = field (mkfsSuperblock total label) f
  := by
  apply field_congr
  intro x _ hx
  rw [h.superblock (by omega), copy, if_pos (by unfold superblockSize; omega), Nat.sub_zero]

lemma Formatted.field_bgd {f : Field}
    (hf : f.offset + f.width ≤ 32) :
  field (d.read (mkfsLba startLba 2)) f = field (mkfsBgd total) f
  := by
  apply field_congr
  intro x _ hx
  rw [h.bgd (by omega), copy, if_pos (by unfold bgdSize; omega), Nat.sub_zero]

lemma Formatted.superblock_read (htotal : total < 2 ^ 32) :
  Superblock (d.read (mkfsLba startLba 1)) total
  := by
  have hsb := mkfsSuperblock_superblock htotal label
  constructor <;> rw [h.field_superblock (by decide)]
  exacts [hsb.inodesCount, hsb.blocksCount, hsb.firstDataBlock, hsb.logBlockSize, hsb.blocksPerGroup,
    hsb.inodesPerGroup, hsb.magic, hsb.firstIno, hsb.inodeSize]

lemma Formatted.bgd_read :
  Bgd (d.read (mkfsLba startLba 2))
  := by
  have hbgd := mkfsBgd_bgd total
  constructor <;> rw [h.field_bgd (by decide)]
  exacts [hbgd.blockBitmap, hbgd.inodeBitmap, hbgd.inodeTable]

end

/-- A formatted partition that has been mounted. -/
structure MountedNew (s s' : State) (startLba total : ℕ) : Prop where
  geometry : Geometry s'.vol startLba total
  counters : Counters s'.vol (total - 134) 1013
  disk : s'.disk = s.disk
  lastAllocBlock : s'.lastAllocBlock = 0
  memory : s'.memory = s.memory
  allocations : s'.allocations = s.allocations

lemma Formatted.mountPartition (h : Formatted s.disk startLba total label) (htotal : total ≤ 8192) :
  (s.mountPartition startLba).1 = some 2 ∧ MountedNew s (s.mountPartition startLba).2 startLba total
  := by
  have hsb := h.superblock_read (by omega)
  have hsize : 1024 * 2 ^ field (s.disk.read (mkfsLba startLba 1)) sLogBlockSize % 2 ^ 32 = 1024 := by
    rw [hsb.logBlockSize]
    rfl
  have hmount : s.mountPartition startLba
      = (some 2, { s with
          vol :=
            { partitionLba := startLba
              blockSize := 1024
              sectorsPerBlock := 2
              sb := s.disk.read (mkfsLba startLba 1)
              bg0 := s.disk.read (mkfsLba startLba 2) }
          lastAllocBlock := 0 }) := by
    unfold State.mountPartition
    rw [show (startLba + 2) % 2 ^ 32 = mkfsLba startLba 1 from rfl]
    dsimp only
    rw [if_neg (by rw [hsb.magic]; exact not_not_intro rfl), hsize]
    rfl
  rw [hmount]
  refine ⟨rfl, ⟨rfl, rfl, rfl, hsb, h.bgd_read⟩, ⟨?_, ?_, ?_, ?_⟩, rfl, rfl, rfl, rfl⟩
  · rw [h.field_superblock (by decide)]
    simp (disch := decide) only [mkfsSuperblock, field_mkfsSuperblock_write, field_setField,
      field_setField_of_apart]
    exact Nat.mod_eq_of_lt (show total - 134 < 256 ^ 4 by omega)
  · rw [h.field_superblock (by decide)]
    simp (disch := decide) only [mkfsSuperblock, field_mkfsSuperblock_write, field_setField,
      field_setField_of_apart]
    rfl
  · rw [h.field_bgd (by decide)]
    simp (disch := decide) only [mkfsBgd, field_setField, field_setField_of_apart]
    exact Nat.mod_eq_of_lt (show total - 134 < 256 ^ 2 by omega)
  · rw [h.field_bgd (by decide)]
    simp (disch := decide) only [mkfsBgd, field_setField, field_setField_of_apart]
    rfl

/-! ### The counters -/

/-- The counters are the numbers of clear bits in the valid parts of the bitmaps. -/
def CountersExact (s : State) : Prop :=
  Counters s.vol
    (clear (s.readBlock (field s.vol.bg0 bgBlockBitmap))
      (field s.vol.sb sBlocksCount - field s.vol.sb sFirstDataBlock))
    (clear (s.readBlock (field s.vol.bg0 bgInodeBitmap)) (field s.vol.sb sInodesCount))

/-- On a formatted volume one block too many and one inode too few are counted as free. -/
lemma clear_of_formatted (h : Formatted s.disk startLba total label)
    (hg : Geometry s.vol startLba total) (htotal : total ≤ 8192) :
  clear (s.readBlock (field s.vol.bg0 bgBlockBitmap))
      (field s.vol.sb sBlocksCount - field s.vol.sb sFirstDataBlock) = total - 135
    ∧ clear (s.readBlock (field s.vol.bg0 bgInodeBitmap)) (field s.vol.sb sInodesCount) = 1014
  := by
  rw [hg.bgd.blockBitmap, hg.bgd.inodeBitmap, hg.superblock.blocksCount, hg.superblock.firstDataBlock,
    hg.superblock.inodesCount]
  constructor
  · rw [clear_of_lt (k := 134)]
    · omega
    · intro i hi
      rw [← bit_mkfsBitmap]
      apply bit_congr
      rw [hg.readBlock (by omega), h.blockBitmap (by omega)]
  · rw [clear_of_lt (k := 10)]
    intro i hi
    rw [← bit_mkfsBitmap]
    apply bit_congr
    rw [hg.readBlock (by omega), h.inodeBitmap (by omega)]

lemma not_countersExact_of_mounted (h : Formatted s.disk startLba total label) (htotal : total ≤ 8192) :
  ¬ CountersExact (s.mountPartition startLba).2
  := by
  obtain ⟨-, hm⟩ := h.mountPartition htotal
  have hclear := clear_of_formatted (by rw [hm.disk]; exact h) hm.geometry htotal
  intro hexact
  have hinodes := hexact.freeInodes
  rw [hclear.2, hm.counters.freeInodes] at hinodes
  cases hinodes

lemma mkfsBlocks_le (sectorCount : ℕ) : mkfsBlocks sectorCount ≤ 8192
  := by
  unfold mkfsBlocks
  omega

/-- A formatted partition can be mounted, but its counters are not exact: no run on it, not even the empty
one, keeps them exact. -/
theorem formatted_counters_not_exact {s : State}
    (h : mkfsExt2 d startLba sectorCount label = some s.disk) (acts : List Act) :
  (s.mountPartition startLba).1 = some 2
    ∧ ¬ ∀ k, CountersExact ((s.mountPartition startLba).2.run (acts.take k))
  := by
  have hf := mkfsExt2_formatted h
  refine ⟨(hf.mountPartition (mkfsBlocks_le sectorCount)).1, fun hall => ?_⟩
  exact not_countersExact_of_mounted hf (mkfsBlocks_le sectorCount) (hall 0)

/-- A device with a formatted partition of 2048 sectors, before it is mounted. -/
def smallVolume : State where
  vol := ⟨0, 0, 0, fun _ => 0, fun _ => 0⟩
  lastAllocBlock := 0
  disk := (mkfsExt2 (fun _ => 0) 0 2048 []).getD fun _ => 0
  memory := fun _ => true
  allocations := 0
  heap := fun _ => 0

lemma mkfsExt2_smallVolume : mkfsExt2 (fun _ => 0) 0 2048 [] = some smallVolume.disk
  := by
  unfold smallVolume mkfsExt2
  rw [if_neg (by decide), Option.getD_some]

/-- Reading the root directory of this volume. -/
theorem smallVolume_counters_not_exact :
  mkfsExt2 (fun _ => 0) 0 2048 [] = some smallVolume.disk
    ∧ (smallVolume.mountPartition 0).1 = some 2
    ∧ ¬ ∀ k, CountersExact ((smallVolume.mountPartition 0).2.run ([.read 2 0 1024].take k))
  := ⟨mkfsExt2_smallVolume, formatted_counters_not_exact mkfsExt2_smallVolume _⟩

/-- It has 1014 free inodes, and its counter says 1013. -/
theorem smallVolume_freeInodes :
  mkfsExt2 (fun _ => 0) 0 2048 [] = some smallVolume.disk
    ∧ field (smallVolume.mountPartition 0).2.vol.sb sFreeInodesCount = 1013
    ∧ clear ((smallVolume.mountPartition 0).2.readBlock
        (field (smallVolume.mountPartition 0).2.vol.bg0 bgInodeBitmap))
        (field (smallVolume.mountPartition 0).2.vol.sb sInodesCount) = 1014
  := by
  have hf := mkfsExt2_formatted mkfsExt2_smallVolume
  obtain ⟨-, hm⟩ := hf.mountPartition (mkfsBlocks_le 2048)
  exact ⟨mkfsExt2_smallVolume, hm.counters.freeInodes,
    (clear_of_formatted (by rw [hm.disk]; exact hf) hm.geometry (mkfsBlocks_le 2048)).2⟩

end Ext2
