import EquantOS.Fs.Ext2

/-!
# What a failing create leaves behind

`ext2_create` allocates an inode first.  If this fails nothing has changed; if anything fails later the
inode stays allocated, since no function of the driver gives one back.
-/

namespace Ext2

open Bitmap

open Bytes (Field field setField)

namespace State

/-! ### The number of free inodes -/

/-- `s_free_inodes_count`. -/
def freeInodes (s : State) : ℕ := field s.vol.sb sFreeInodesCount

lemma field_decrement_of_apart {bytes : ℕ → UInt8} {f g : Field} (h : f.Apart g) :
  field (decrement bytes f) g = field bytes g
  := Bytes.field_setField_of_apart h

lemma field_decrement_ne {bytes : ℕ → UInt8} {f : Field} (h : 0 < f.width) :
  field (decrement bytes f) f ≠ field bytes f
  := by
  have hlt := Bytes.field_lt bytes f
  have hpow : 256 ^ 1 ≤ 256 ^ f.width := Nat.pow_le_pow_right (by decide) h
  unfold decrement
  rw [Bytes.field_setField]
  rcases Nat.eq_zero_or_pos (field bytes f) with h0 | hpos
  · rw [h0, Nat.zero_add, Nat.mod_eq_of_lt (by omega)]
    omega
  · rw [show field bytes f + 256 ^ f.width - 1 = field bytes f - 1 + 256 ^ f.width by omega,
      Nat.add_mod_right, Nat.mod_eq_of_lt (by omega)]
    omega

@[simp]
lemma vol_kmalloc (s : State) : s.kmalloc.2.vol = s.vol := rfl

@[simp]
lemma vol_writeBlock (s : State) (block : ℕ) (buf : ℕ → UInt8) : (s.writeBlock block buf).vol = s.vol :=
  rfl

@[simp]
lemma vol_writeSuperblock (s : State) : s.writeSuperblock.vol = s.vol := rfl

@[simp]
lemma vol_writeBgd (s : State) : s.writeBgd.vol = s.vol
  := by
  unfold writeBgd
  rcases h : s.kmalloc with ⟨_ | _, s'⟩
  · rw [← vol_kmalloc s, h]
  · rw [← vol_kmalloc s, h]
    rfl

@[simp]
lemma vol_readInode (s : State) (inodeNum : ℕ) : (s.readInode inodeNum).2.vol = s.vol
  := by
  unfold readInode
  by_cases h0 : inodeNum = 0
  · rw [if_pos h0]
  rw [if_neg h0]
  rcases h : s.kmalloc with ⟨_ | _, s'⟩
  · rw [← vol_kmalloc s, h]
  · rw [← vol_kmalloc s, h]

@[simp]
lemma vol_writeInode (s : State) (inodeNum : ℕ) (inode : ℕ → UInt8) :
  (s.writeInode inodeNum inode).vol = s.vol
  := by
  unfold writeInode
  by_cases h0 : inodeNum = 0
  · rw [if_pos h0]
  rw [if_neg h0]
  rcases h : s.kmalloc with ⟨_ | _, s'⟩
  · rw [← vol_kmalloc s, h]
  · rw [← vol_kmalloc s, h]
    rfl

/-- An allocation changes its two counters. -/
lemma vol_takeBit (s : State) (bitmapBlock i : ℕ) (bitmap : ℕ → UInt8) (bgCount sCount : Field) :
  (s.takeBit bitmapBlock i bitmap bgCount sCount).vol
    = { s.vol with bg0 := decrement s.vol.bg0 bgCount, sb := decrement s.vol.sb sCount }
  := by
  unfold takeBit
  simp only [vol_writeSuperblock, vol_writeBgd, vol_writeBlock]

lemma vol_allocBlock (s : State) :
  s.allocBlock.2.vol = s.vol
    ∨ s.allocBlock.2.vol = { s.vol with
        bg0 := decrement s.vol.bg0 bgFreeBlocksCount
        sb := decrement s.vol.sb sFreeBlocksCount }
  := by
  unfold allocBlock
  rcases h : s.kmalloc with ⟨_ | _, s'⟩
  · left
    rw [← vol_kmalloc s, h]
  obtain rfl : s' = s.kmalloc.2 := by rw [h]
  dsimp only
  split
  · exact .inl rfl
  split
  · exact .inl rfl
  · right
    rw [vol_takeBit]
    rfl

@[simp]
lemma freeInodes_allocBlock (s : State) : s.allocBlock.2.freeInodes = s.freeInodes
  := by
  unfold freeInodes
  rcases vol_allocBlock s with h | h
  · rw [h]
  · rw [h]
    exact field_decrement_of_apart (by decide)

lemma freeInodes_addLoop (dirInodeNum inodeNum fileType : ℕ) (name : List UInt8) (n b : ℕ)
    (dirInode : ℕ → UInt8) (s : State) :
  (addLoop dirInodeNum inodeNum fileType name n b dirInode s).2.freeInodes = s.freeInodes
  := by
  induction n generalizing b with
  | zero => rfl
  | succ n ih =>
    unfold addLoop
    split
    · have halloc := freeInodes_allocBlock s
      rcases h : s.allocBlock with ⟨_ | block, s'⟩
      · rwa [h] at halloc
      · rw [h] at halloc
        unfold freeInodes at halloc ⊢
        simpa only [vol_writeBlock, vol_writeInode] using halloc
    · dsimp only
      split
      · rfl
      · exact ih (b + 1)

lemma freeInodes_addDirEntry (s : State) (dirInodeNum inodeNum : ℕ) (name : List UInt8) (fileType : ℕ) :
  (s.addDirEntry dirInodeNum inodeNum name fileType).2.freeInodes = s.freeInodes
  := by
  unfold addDirEntry
  have hread := vol_readInode s dirInodeNum
  rcases hr : s.readInode dirInodeNum with ⟨dirInode, s'⟩
  have hs' : s'.freeInodes = s.freeInodes := by
    unfold freeInodes
    rw [← hread, hr]
  dsimp only
  rcases h : s'.kmalloc with ⟨_ | _, s''⟩
  · obtain rfl : s'' = s'.kmalloc.2 := by rw [h]
    exact hs'
  · obtain rfl : s'' = s'.kmalloc.2 := by rw [h]
    exact (freeInodes_addLoop ..).trans hs'

lemma freeInodes_newInode (s : State) (inodeNum dirInodeNum : ℕ) (isDir : Bool) :
  (s.newInode inodeNum dirInodeNum isDir).2.freeInodes = s.freeInodes
  := by
  unfold newInode
  cases isDir
  · rfl
  have halloc := freeInodes_allocBlock s
  rw [if_pos rfl]
  rcases h : s.allocBlock with ⟨_ | block, s'⟩
  · rw [h] at halloc
    exact halloc
  rw [h] at halloc
  dsimp only
  rcases h' : s'.kmalloc with ⟨_ | _, s''⟩
  · obtain rfl : s'' = s'.kmalloc.2 := by rw [h']
    exact halloc
  · obtain rfl : s'' = s'.kmalloc.2 := by rw [h']
    exact halloc

/-! ### The atomicity of create -/

/-- There is no memory for the bitmap, or no clear bit in it. -/
def NoInode (s : State) : Prop :=
  s.memory s.allocations = false
    ∨ ∀ i, s.vol.startIno ≤ i → i < field s.vol.sb sInodesPerGroup →
        bit (s.readBlock (field s.vol.bg0 bgInodeBitmap)) i = true

/-- Without a free inode nothing changes; otherwise there is one less. -/
lemma allocInode_cases (s : State) :
  (s.NoInode ∧ s.allocInode = (none, s.kmalloc.2))
    ∨ (¬ s.NoInode ∧ s.allocInode.1 ≠ none ∧ s.allocInode.2.freeInodes ≠ s.freeInodes)
  := by
  unfold allocInode NoInode
  rcases hmem : s.memory s.allocations with _ | _
  · left
    refine ⟨.inl rfl, ?_⟩
    rw [show s.kmalloc = (false, s.kmalloc.2) from Prod.ext hmem rfl]
  rw [show s.kmalloc = (true, s.kmalloc.2) from Prod.ext hmem rfl]
  dsimp only
  rcases hscan : firstClear (s.kmalloc.2.readBlock (field s.kmalloc.2.vol.bg0 bgInodeBitmap))
    (field s.kmalloc.2.vol.sb sInodesPerGroup - s.kmalloc.2.vol.startIno) s.kmalloc.2.vol.startIno with _ | i
  · left
    refine ⟨.inr ?_, rfl⟩
    intro i hi hi'
    apply firstClear_eq_none.mp hscan i hi
    rw [vol_kmalloc]
    omega
  · right
    obtain ⟨hle, hlt, hclear, -⟩ := firstClear_eq_some hscan
    rw [vol_kmalloc] at hle hlt
    refine ⟨?_, Option.some_ne_none (i + 1), ?_⟩
    · rintro (h | h)
      · cases h
      · have hset := h i hle (by omega)
        rw [show s.readBlock (field s.vol.bg0 bgInodeBitmap)
          = s.kmalloc.2.readBlock (field s.kmalloc.2.vol.bg0 bgInodeBitmap) from rfl, hclear] at hset
        cases hset
    · unfold freeInodes
      rw [vol_takeBit]
      exact field_decrement_ne (by decide)

/-- The inode with the given number. -/
def inodeAt (s : State) (inodeNum : ℕ) : ℕ → UInt8 :=
  fun k => s.readBlock (s.vol.inodeBlock inodeNum) (s.vol.inodeByte inodeNum + k)

/-- The contents of a directory: its blocks. -/
def dirBlocks (s : State) (inodeNum : ℕ) : List (ℕ → UInt8) :=
  (List.range 12).map fun b => s.readBlock (field (s.inodeAt inodeNum) (iBlock b))

/-- The bitmaps, the counters of free blocks and inodes, and the directories are the same. -/
structure Unchanged (s s' : State) : Prop where
  blockBitmap : s'.readBlock (field s'.vol.bg0 bgBlockBitmap) = s.readBlock (field s.vol.bg0 bgBlockBitmap)
  inodeBitmap : s'.readBlock (field s'.vol.bg0 bgInodeBitmap) = s.readBlock (field s.vol.bg0 bgInodeBitmap)
  freeBlocks : field s'.vol.sb sFreeBlocksCount = field s.vol.sb sFreeBlocksCount
  freeInodes : field s'.vol.sb sFreeInodesCount = field s.vol.sb sFreeInodesCount
  groupBlocks : field s'.vol.bg0 bgFreeBlocksCount = field s.vol.bg0 bgFreeBlocksCount
  groupInodes : field s'.vol.bg0 bgFreeInodesCount = field s.vol.bg0 bgFreeInodesCount
  dirs (inodeNum : ℕ) : field (s.inodeAt inodeNum) iMode &&& sIfdir ≠ 0 →
    s'.inodeAt inodeNum = s.inodeAt inodeNum ∧ s'.dirBlocks inodeNum = s.dirBlocks inodeNum

lemma unchanged_kmalloc (s : State) : Unchanged s s.kmalloc.2
  where
  blockBitmap := rfl
  inodeBitmap := rfl
  freeBlocks := rfl
  freeInodes := rfl
  groupBlocks := rfl
  groupInodes := rfl
  dirs _ _ := ⟨rfl, rfl⟩

/-- After an inode has been allocated, a create that fails leaves it allocated. -/
lemma freeInodes_create {s : State} {dir : ℕ} {name : List UInt8} {isDir : Bool}
    (halloc : s.allocInode.1 ≠ none) (hnull : (s.create dir name isDir).1 = .null) :
  (s.create dir name isDir).2.freeInodes = s.allocInode.2.freeInodes
  := by
  unfold create at hnull ⊢
  rcases hinode : s.allocInode with ⟨_ | inodeNum, s₁⟩
  · exact absurd (congrArg Prod.fst hinode) halloc
  rw [hinode] at hnull
  dsimp only at hnull ⊢
  have hnew := freeInodes_newInode s₁ inodeNum dir isDir
  rcases hinit : s₁.newInode inodeNum dir isDir with ⟨_ | inode, s₂⟩
  · rwa [hinit] at hnew
  rw [hinit] at hnull hnew
  dsimp only at hnull hnew ⊢
  have hwrite : (s₂.writeInode inodeNum inode).freeInodes = s₁.freeInodes := by
    unfold freeInodes at hnew ⊢
    rwa [vol_writeInode]
  have hadd := freeInodes_addDirEntry (s₂.writeInode inodeNum inode) dir inodeNum name
    (if isDir then ftDir else ftRegFile)
  rcases hentry : (s₂.writeInode inodeNum inode).addDirEntry dir inodeNum name
    (if isDir then ftDir else ftRegFile) with ⟨_ | _, s₃⟩
  · rw [hentry] at hadd
    exact hadd.trans hwrite
  -- The entry has been added: a node is returned, or there is a fault.
  rw [hentry] at hnull
  dsimp only at hnull
  rcases hnode : s₃.kmalloc with ⟨_ | _, s₄⟩
  · rw [hnode] at hnull
    cases hnull
  · rw [hnode] at hnull
    cases hnull

/-- A create that fails has changed nothing exactly if there was no inode to allocate. -/
theorem create_null_unchanged_iff {s : State} {dir : ℕ} {name : List UInt8} {isDir : Bool}
    (hnull : (s.create dir name isDir).1 = .null) :
  Unchanged s (s.create dir name isDir).2 ↔ s.NoInode
  := by
  rcases allocInode_cases s with ⟨hno, halloc⟩ | ⟨hno, halloc, hcount⟩
  · refine iff_of_true ?_ hno
    unfold create
    rw [halloc]
    exact unchanged_kmalloc s
  · refine iff_of_false ?_ hno
    intro h
    exact hcount ((freeInodes_create halloc hnull).symm.trans h.freeInodes)

/-- A volume on which the last block has been allocated. -/
def fullVolume : State where
  vol :=
    { partitionLba := 0
      blockSize := 1024
      sectorsPerBlock := 2
      sb := mkfsSuperblock 8192 []
      bg0 := mkfsBgd 8192 }
  lastAllocBlock := 8192
  disk := fun _ => 0
  memory := fun _ => true
  allocations := 0
  heap := fun _ => 0

/-- A create that fails on this volume. -/
theorem fullVolume_unchanged_iff :
  (fullVolume.create 2 [0x64] true).1 = .null
    ∧ (Unchanged fullVolume (fullVolume.create 2 [0x64] true).2 ↔ fullVolume.NoInode)
  := ⟨rfl, create_null_unchanged_iff rfl⟩

/-- There is no block for a new directory, and the inode stays allocated. -/
theorem fullVolume_create :
  (fullVolume.create 2 [0x64] true).1 = .null
    ∧ ¬ Unchanged fullVolume (fullVolume.create 2 [0x64] true).2
  := by
  refine ⟨rfl, fun h => ?_⟩
  have := h.freeInodes
  revert this
  decide

end State

end Ext2
