import EquantOS.Fs.BlockDevice
import EquantOS.Lib.Bitmap

/-!
# The ext2 driver

The functions of `fs/ext2.c`.  The structures of the driver are kept as their bytes, as they are copied
from and to the device, and their fields are read and written in place.  Every allocation of memory may
fail; the state says which ones do.  What is behind the end of a buffer, and in a structure that has not
been filled, are bytes of the heap.  A write behind the end of a buffer is lost: what it hits is not
modelled.
-/

open Bytes (Field field setField)

namespace Ext2

open Bytes Bitmap

/-! ### Structures on the device -/

/-- Fields of `ext2_superblock_t`. -/
def sInodesCount : Field := ⟨0, 4⟩

def sBlocksCount : Field := ⟨4, 4⟩

def sRBlocksCount : Field := ⟨8, 4⟩

def sFreeBlocksCount : Field := ⟨12, 4⟩

def sFreeInodesCount : Field := ⟨16, 4⟩

def sFirstDataBlock : Field := ⟨20, 4⟩

def sLogBlockSize : Field := ⟨24, 4⟩

def sLogFragSize : Field := ⟨28, 4⟩

def sBlocksPerGroup : Field := ⟨32, 4⟩

def sFragsPerGroup : Field := ⟨36, 4⟩

def sInodesPerGroup : Field := ⟨40, 4⟩

def sMagic : Field := ⟨56, 2⟩

def sState : Field := ⟨58, 2⟩

def sErrors : Field := ⟨60, 2⟩

def sFirstIno : Field := ⟨84, 4⟩

def sInodeSize : Field := ⟨88, 2⟩

def sBlockGroupNr : Field := ⟨90, 2⟩

def sVolumeName : ℕ := 120

/-- `sizeof(ext2_superblock_t)`. -/
def superblockSize : ℕ := 204

/-- Fields of `ext2_bgd_t`. -/
def bgBlockBitmap : Field := ⟨0, 4⟩

def bgInodeBitmap : Field := ⟨4, 4⟩

def bgInodeTable : Field := ⟨8, 4⟩

def bgFreeBlocksCount : Field := ⟨12, 2⟩

def bgFreeInodesCount : Field := ⟨14, 2⟩

def bgUsedDirsCount : Field := ⟨16, 2⟩

/-- `sizeof(ext2_bgd_t)`. -/
def bgdSize : ℕ := 32

/-- Fields of `ext2_inode_t`. -/
def iMode : Field := ⟨0, 2⟩

def iSize : Field := ⟨4, 4⟩

def iLinksCount : Field := ⟨26, 2⟩

def iBlocks : Field := ⟨28, 4⟩

def iBlock (k : ℕ) : Field := ⟨40 + 4 * k, 4⟩

/-- `sizeof(ext2_inode_t)`. -/
def inodeBytes : ℕ := 128

/-- Fields of the directory entry at `offset` of a block. -/
def deInode (offset : ℕ) : Field := ⟨offset, 4⟩

def deRecLen (offset : ℕ) : Field := ⟨offset + 4, 2⟩

def deNameLen (offset : ℕ) : Field := ⟨offset + 6, 1⟩

def deFileType (offset : ℕ) : Field := ⟨offset + 7, 1⟩

/-- Entry `i` of a table of block numbers. -/
def tableEntry (i : ℕ) : Field := ⟨4 * i, 4⟩

def superMagic : ℕ := 0xEF53

def ftRegFile : ℕ := 1

def ftDir : ℕ := 2

def sIfreg : ℕ := 0x8000

def sIfdir : ℕ := 0x4000

/-- The name of a directory entry. -/
def deName (buf : ℕ → UInt8) (offset : ℕ) : List UInt8 :=
  (List.range (field buf (deNameLen offset))).map fun k => buf (offset + 8 + k)

/-- A directory entry is filled in. -/
def putEntry (buf : ℕ → UInt8) (offset inode recLen fileType : ℕ) (name : List UInt8) : ℕ → UInt8 :=
  let buf := setField buf (deInode offset) inode
  let buf := setField buf (deRecLen offset) recLen
  let buf := setField buf (deNameLen offset) name.length
  let buf := setField buf (deFileType offset) fileType
  write buf (offset + 8) (name.take (name.length % 256))

/-! ### The volume -/

/-- `ext2_volume_t`, but for the device. -/
structure Volume where
  partitionLba : ℕ
  blockSize : ℕ
  sectorsPerBlock : ℕ
  sb : ℕ → UInt8
  bg0 : ℕ → UInt8

/-- `ext2_vol` and `ext2_last_alloc_block`, the device, and the memory of the kernel: which of the
allocations succeed, how many there have been, and the bytes that nobody has filled. -/
structure State where
  vol : Volume
  lastAllocBlock : ℕ
  disk : Disk
  memory : ℕ → Bool
  allocations : ℕ
  heap : ℕ → UInt8

namespace Volume

def blockToLba (v : Volume) (block : ℕ) : ℕ := (v.partitionLba + block * v.sectorsPerBlock) % 2 ^ 32

/-- The block of the group descriptors. -/
def bgdBlock (v : Volume) : ℕ := if v.blockSize = 1024 then 2 else 1

def inodeSize (v : Volume) : ℕ := if field v.sb sInodeSize ≠ 0 then field v.sb sInodeSize else 128

def inodeOffset (v : Volume) (inodeNum : ℕ) : ℕ :=
  (inodeNum - 1) % field v.sb sInodesPerGroup * v.inodeSize % 2 ^ 32

/-- `target_block`. -/
def inodeBlock (v : Volume) (inodeNum : ℕ) : ℕ :=
  (field v.bg0 bgInodeTable + v.inodeOffset inodeNum / v.blockSize) % 2 ^ 32

/-- `byte_offset`. -/
def inodeByte (v : Volume) (inodeNum : ℕ) : ℕ := v.inodeOffset inodeNum % v.blockSize

def startIno (v : Volume) : ℕ := if field v.sb sFirstIno ≠ 0 then field v.sb sFirstIno - 1 else 10

end Volume

namespace State

/-- `kmalloc`: whether there is memory. -/
def kmalloc (s : State) : Bool × State :=
  (s.memory s.allocations, { s with allocations := s.allocations + 1 })

/-- A block, in a buffer of its size. -/
def readBlock (s : State) (block : ℕ) : ℕ → UInt8 :=
  fun k => if k < s.vol.blockSize then s.disk.read (s.vol.blockToLba block) k else s.heap k

def writeBlock (s : State) (block : ℕ) (buf : ℕ → UInt8) : State :=
  { s with disk := s.disk.write (s.vol.blockToLba block) s.vol.sectorsPerBlock buf }

def writeSuperblock (s : State) : State :=
  let buf := copy (fun _ => 0) 0 s.vol.sb superblockSize
  { s with disk := s.disk.write ((s.vol.partitionLba + 2) % 2 ^ 32) 2 buf }

def writeBgd (s : State) : State :=
  match s.kmalloc with
  | (false, s) => s
  | (true, s) =>
    s.writeBlock s.vol.bgdBlock (copy (s.readBlock s.vol.bgdBlock) 0 s.vol.bg0 bgdSize)

def readInode (s : State) (inodeNum : ℕ) : (ℕ → UInt8) × State :=
  if inodeNum = 0 then (s.heap, s)
  else
    match s.kmalloc with
    | (false, s) => (s.heap, s)
    | (true, s) =>
      (fun k => s.readBlock (s.vol.inodeBlock inodeNum) (s.vol.inodeByte inodeNum + k), s)

def writeInode (s : State) (inodeNum : ℕ) (inode : ℕ → UInt8) : State :=
  if inodeNum = 0 then s
  else
    match s.kmalloc with
    | (false, s) => s
    | (true, s) =>
      s.writeBlock (s.vol.inodeBlock inodeNum)
        (copy (s.readBlock (s.vol.inodeBlock inodeNum)) (s.vol.inodeByte inodeNum) inode inodeBytes)

/-! ### Allocation -/

/-- A counter in a field goes down by one. -/
def decrement (bytes : ℕ → UInt8) (f : Field) : ℕ → UInt8 :=
  setField bytes f (field bytes f + 256 ^ f.width - 1)

/-- The end of an allocation: the bitmap, the counters, the group descriptor and the superblock. -/
def takeBit (s : State) (bitmapBlock i : ℕ) (bitmap : ℕ → UInt8) (bgCount sCount : Field) : State :=
  let s := s.writeBlock bitmapBlock (setBit bitmap i)
  let s := { s with vol := { s.vol with
    bg0 := decrement s.vol.bg0 bgCount
    sb := decrement s.vol.sb sCount } }
  s.writeBgd.writeSuperblock

/-- `ext2_alloc_block`; `none` is 0. -/
def allocBlock (s : State) : Option ℕ × State :=
  match s.kmalloc with
  | (false, s) => (none, s)
  | (true, s) =>
    let bitmapBlock := field s.vol.bg0 bgBlockBitmap
    let bitmap := s.readBlock bitmapBlock
    match firstClear bitmap (field s.vol.sb sBlocksPerGroup - s.lastAllocBlock) s.lastAllocBlock with
    | none => (none, s)
    | some i =>
      let block := (field s.vol.sb sFirstDataBlock + i) % 2 ^ 32
      let s := { s with lastAllocBlock := (i + 1) % 2 ^ 32 }
      if block = 0 then (none, s)
      else (some block, s.takeBit bitmapBlock i bitmap bgFreeBlocksCount sFreeBlocksCount)

/-- `ext2_alloc_inode`; `none` is 0. -/
def allocInode (s : State) : Option ℕ × State :=
  match s.kmalloc with
  | (false, s) => (none, s)
  | (true, s) =>
    let bitmapBlock := field s.vol.bg0 bgInodeBitmap
    let bitmap := s.readBlock bitmapBlock
    match firstClear bitmap (field s.vol.sb sInodesPerGroup - s.vol.startIno) s.vol.startIno with
    | none => (none, s)
    | some i => (some (i + 1), s.takeBit bitmapBlock i bitmap bgFreeInodesCount sFreeInodesCount)

/-! ### The blocks of a file -/

/-- A new block of pointers is filled with zeros, if there is memory. -/
def zeroBlock (s : State) (block : ℕ) : State :=
  match s.kmalloc with
  | (false, s) => s
  | (true, s) => s.writeBlock block fun _ => 0

/-- The block `i_block[k]`, which is allocated if there is none: its number and whether it is new. -/
def inodeSlot (s : State) (inodeNum : ℕ) (inode : ℕ → UInt8) (k : ℕ) :
    Option (ℕ × Bool) × (ℕ → UInt8) × State :=
  if field inode (iBlock k) = 0 then
    match s.allocBlock with
    | (none, s) => (none, inode, s)
    | (some block, s) =>
      let inode := setField inode (iBlock k) block
      (some (block, true), inode, s.writeInode inodeNum inode)
  else (some (field inode (iBlock k), false), inode, s)

/-- The block in entry `i` of a table, which is allocated if there is none: its number and whether it is
new. -/
def tableSlot (s : State) (table i : ℕ) : Option (ℕ × Bool) × State :=
  match s.kmalloc with
  | (false, s) => (none, s)
  | (true, s) =>
    let buf := s.readBlock table
    if field buf (tableEntry i) = 0 then
      match s.allocBlock with
      | (none, s) => (none, s)
      | (some block, s) => (some (block, true), s.writeBlock table (setField buf (tableEntry i) block))
    else (some (field buf (tableEntry i), false), s)

/-- A block of pointers that is new is filled with zeros. -/
def clearNew (s : State) (block : ℕ) (new : Bool) : State := if new then s.zeroBlock block else s

/-- `ext2_get_or_alloc_file_block`: the block, and the inode; `none` is 0. -/
def getOrAllocFileBlock (s : State) (inodeNum : ℕ) (inode : ℕ → UInt8) (blockIdx : ℕ) :
    Option ℕ × (ℕ → UInt8) × State :=
  let perBlock := s.vol.blockSize / 4
  if blockIdx < 12 then
    match s.inodeSlot inodeNum inode blockIdx with
    | (slot, inode, s) => (slot.map Prod.fst, inode, s)
  else if blockIdx - 12 < perBlock then
    match s.inodeSlot inodeNum inode 12 with
    | (none, inode, s) => (none, inode, s)
    | (some (indir, new), inode, s) =>
      match (s.clearNew indir new).tableSlot indir (blockIdx - 12) with
      | (slot, s) => (slot.map Prod.fst, inode, s)
  else
    let blockIdx := blockIdx - 12 - perBlock
    match s.inodeSlot inodeNum inode 13 with
    | (none, inode, s) => (none, inode, s)
    | (some (dIndir, new), inode, s) =>
      match (s.clearNew dIndir new).tableSlot dIndir (blockIdx / perBlock) with
      | (none, s) => (none, inode, s)
      | (some (d2, new), s) =>
        match (s.clearNew d2 new).tableSlot d2 (blockIdx % perBlock) with
        | (slot, s) => (slot.map Prod.fst, inode, s)

/-! ### Reading and writing -/

/-- Where a byte of a file is: the index of its block, and its place in the block. -/
def blockIdx (s : State) (fileOff : ℕ) : ℕ := fileOff / s.vol.blockSize % 2 ^ 32

/-- `n` bytes of a buffer. -/
def bytesAt (buf : ℕ → UInt8) (a n : ℕ) : List UInt8 := (List.range n).map fun k => buf (a + k)

/-- The loop of `ext2_read`, with the bytes that have been read. -/
def readLoop (inodeNum offset total : ℕ) : ℕ → (ℕ → UInt8) → List UInt8 → State → List UInt8 × State
  | 0, _, acc, s => (acc, s)
  | fuel + 1, inode, acc, s =>
    if acc.length < total then
      let fileOff := (offset + acc.length) % 2 ^ 64
      match s.getOrAllocFileBlock inodeNum inode (s.blockIdx fileOff) with
      | (none, _, s) => (acc, s)
      | (some block, inode, s) =>
        let chunkOff := fileOff % s.vol.blockSize
        let chunk := min (s.vol.blockSize - chunkOff) (total - acc.length)
        readLoop inodeNum offset total fuel inode (acc ++ bytesAt (s.readBlock block) chunkOff chunk) s
    else (acc, s)

def bytesToRead (length offset size : ℕ) : ℕ :=
  if length < (offset + size) % 2 ^ 64 then length - offset else size

/-- `ext2_read` on a node with the given `ptr`; `none` is -1. -/
def read (s : State) (inodeNum offset size : ℕ) : Option (List UInt8) × State :=
  match s.readInode inodeNum with
  | (inode, s) =>
    if field inode iSize ≤ offset then (some [], s)
    else
      match s.kmalloc with
      | (false, s) => (none, s)
      | (true, s) =>
        let total := bytesToRead (field inode iSize) offset size
        match readLoop inodeNum offset total total inode [] s with
        | (bytes, s) => (some bytes, s)

/-- The loop of `ext2_write`, with the bytes that are left and the number of those that are written. -/
def writeLoop (inodeNum offset : ℕ) : ℕ → (ℕ → UInt8) → List UInt8 → ℕ → State →
    ℕ × (ℕ → UInt8) × State
  | 0, inode, _, written, s => (written, inode, s)
  | fuel + 1, inode, rest, written, s =>
    if rest = [] then (written, inode, s)
    else
      let fileOff := (offset + written) % 2 ^ 64
      match s.getOrAllocFileBlock inodeNum inode (s.blockIdx fileOff) with
      | (none, inode, s) => (written, inode, s)
      | (some block, inode, s) =>
        match s.kmalloc with
        | (false, s) => (written, inode, s)
        | (true, s) =>
          let chunkOff := fileOff % s.vol.blockSize
          let chunk := rest.take (s.vol.blockSize - chunkOff)
          let s := s.writeBlock block (write (s.readBlock block) chunkOff chunk)
          let written := written + chunk.length
          let fileEnd := (offset + written) % 2 ^ 64
          let inode := if field inode iSize < fileEnd then setField inode iSize fileEnd else inode
          writeLoop inodeNum offset fuel inode (rest.drop chunk.length) written s

/-- `ext2_write` on a node with the given `ptr`: the number of bytes, and the `length` of the node. -/
def write (s : State) (inodeNum offset : ℕ) (data : List UInt8) : (ℕ × ℕ) × State :=
  match s.readInode inodeNum with
  | (inode, s) =>
    match writeLoop inodeNum offset data.length inode data 0 s with
    | (written, inode, s) =>
      let inode := setField inode iBlocks ((field inode iSize + 511) % 2 ^ 32 / 512)
      ((written, field inode iSize), (s.writeInode inodeNum inode).writeBgd.writeSuperblock)

/-! ### Directories -/

/-- The bytes that an entry with a name of the given length takes. -/
def entryLen (nameLen : ℕ) : ℕ := (8 + nameLen + 3) / 4 * 4

/-- The loop over the entries of a block in `ext2_add_dir_entry`: the first entry with enough room. -/
def findRoom (buf : ℕ → UInt8) (bs required : ℕ) : ℕ → ℕ → Option ℕ
  | 0, _ => none
  | fuel + 1, offset =>
    if offset < bs then
      let recLen := field buf (deRecLen offset)
      if recLen = 0 ∨ bs < offset + recLen then none
      else
        let actual := if field buf (deInode offset) = 0 then 8
          else entryLen (field buf (deNameLen offset))
        if actual + required ≤ recLen then some offset
        else findRoom buf bs required fuel (offset + recLen)
    else none

/-- The entry with enough room is split. -/
def splitEntry (buf : ℕ → UInt8) (offset inodeNum fileType : ℕ) (name : List UInt8) : ℕ → UInt8 :=
  let recLen := field buf (deRecLen offset)
  let actual := if field buf (deInode offset) = 0 then 8 else entryLen (field buf (deNameLen offset))
  putEntry (setField buf (deRecLen offset) actual) (offset + actual) inodeNum (recLen - actual)
    fileType name

/-- The loop over the blocks of the directory in `ext2_add_dir_entry`, for `n` blocks from `b` on. -/
def addLoop (dirInodeNum inodeNum fileType : ℕ) (name : List UInt8) :
    ℕ → ℕ → (ℕ → UInt8) → State → Bool × State
  | 0, _, _, s => (false, s)
  | n + 1, b, dirInode, s =>
    if field dirInode (iBlock b) = 0 then
      match s.allocBlock with
      | (none, s) => (false, s)
      | (some block, s) =>
        let dirInode := setField dirInode (iBlock b) block
        let dirInode := setField dirInode iSize (field dirInode iSize + s.vol.blockSize)
        let dirInode := setField dirInode iBlocks (field dirInode iBlocks + s.vol.sectorsPerBlock)
        let s := s.writeInode dirInodeNum dirInode
        (true, s.writeBlock block (putEntry (fun _ => 0) 0 inodeNum s.vol.blockSize fileType name))
    else
      let block := field dirInode (iBlock b)
      let buf := s.readBlock block
      match findRoom buf s.vol.blockSize (entryLen (name.length % 256)) s.vol.blockSize 0 with
      | some offset => (true, s.writeBlock block (splitEntry buf offset inodeNum fileType name))
      | none => addLoop dirInodeNum inodeNum fileType name n (b + 1) dirInode s

def addDirEntry (s : State) (dirInodeNum inodeNum : ℕ) (name : List UInt8) (fileType : ℕ) :
    Bool × State :=
  match s.readInode dirInodeNum with
  | (dirInode, s) =>
    match s.kmalloc with
    | (false, s) => (false, s)
    | (true, s) => addLoop dirInodeNum inodeNum fileType name 12 0 dirInode s

/-- The loop over the entries of a block in `ext2_finddir`: the first entry with the name. -/
def findName (buf : ℕ → UInt8) (bs : ℕ) (name : List UInt8) : ℕ → ℕ → Option ℕ
  | 0, _ => none
  | fuel + 1, offset =>
    if offset < bs then
      let recLen := field buf (deRecLen offset)
      if recLen = 0 ∨ bs < offset + recLen then none
      else if field buf (deInode offset) ≠ 0 ∧ deName buf offset = name then some offset
      else findName buf bs name fuel (offset + recLen)
    else none

/-- The loop over the blocks of the directory in `ext2_finddir`: the block, and the place in it. -/
def findLoop (s : State) (dirInode : ℕ → UInt8) (name : List UInt8) : ℕ → ℕ → Option ((ℕ → UInt8) × ℕ)
  | 0, _ => none
  | n + 1, b =>
    if field dirInode (iBlock b) = 0 then none
    else
      let buf := s.readBlock (field dirInode (iBlock b))
      match findName buf s.vol.blockSize name s.vol.blockSize 0 with
      | some offset => some (buf, offset)
      | none => s.findLoop dirInode name n (b + 1)

end State

/-- A node: `name`, whether `FS_DIRECTORY` and `FS_CACHEABLE` are among its `flags`, `ptr` and
`length`. -/
structure Node where
  name : List UInt8
  isDir : Bool
  cacheable : Bool
  ptr : ℕ
  length : ℕ

/-- What `ext2_finddir` and `ext2_create` return.  There is a fault if there is no memory for the node, or
if the name is copied over its end. -/
inductive Lookup where
  | null
  | fault
  | node (n : Node)

namespace State

/-- `ext2_finddir` on a node with the given `ptr`. -/
def finddir (s : State) (inodeNum : ℕ) (name : List UInt8) : Lookup × State :=
  match s.readInode inodeNum with
  | (inode, s) =>
    if field inode iMode &&& sIfdir = 0 then (.null, s)
    else
      match s.kmalloc with
      | (false, s) => (.null, s)
      | (true, s) =>
        match s.findLoop inode name 12 0 with
        | none => (.null, s)
        | some (buf, offset) =>
          match s.kmalloc with
          | (false, s) => (.fault, s)
          | (true, s) =>
            match s.readInode (field buf (deInode offset)) with
            | (child, s) =>
              if 128 ≤ name.length then (.fault, s)
              else
                let isDir : Bool := field buf (deFileType offset) = ftDir
                (.node ⟨name, isDir, !isDir, field buf (deInode offset), field child iSize⟩, s)

/-- The first block of a new directory. -/
def dirBlock (bs inodeNum dirInodeNum : ℕ) : ℕ → UInt8 :=
  putEntry (putEntry (fun _ => 0) 0 inodeNum 12 ftDir [0x2E]) 12 dirInodeNum (bs - 12) ftDir [0x2E, 0x2E]

/-- The inode of a new directory. -/
def dirInode (bs sectors block : ℕ) : ℕ → UInt8 :=
  let inode := setField (fun _ => 0) iMode (sIfdir ||| 0o755)
  let inode := setField inode iSize bs
  let inode := setField inode iLinksCount 2
  let inode := setField inode iBlocks sectors
  setField inode (iBlock 0) block

/-- The inode of a new file. -/
def fileInode : ℕ → UInt8 :=
  setField (setField (fun _ => 0) iMode (sIfreg ||| 0o644)) iLinksCount 1

/-- The inode of a new file or directory; for a directory a block is allocated and filled in. -/
def newInode (s : State) (inodeNum dirInodeNum : ℕ) (isDir : Bool) : Option (ℕ → UInt8) × State :=
  if isDir then
    match s.allocBlock with
    | (none, s) => (none, s)
    | (some block, s) =>
      let inode := dirInode s.vol.blockSize s.vol.sectorsPerBlock block
      match s.kmalloc with
      | (false, s) => (some inode, s)
      | (true, s) => (some inode, s.writeBlock block (dirBlock s.vol.blockSize inodeNum dirInodeNum))
  else (some fileInode, s)

/-- `ext2_create` in a directory with the given `ptr`. -/
def create (s : State) (dirInodeNum : ℕ) (name : List UInt8) (isDir : Bool) : Lookup × State :=
  match s.allocInode with
  | (none, s) => (.null, s)
  | (some inodeNum, s) =>
    match s.newInode inodeNum dirInodeNum isDir with
    | (none, s) => (.null, s)
    | (some inode, s) =>
      let s := s.writeInode inodeNum inode
      match s.addDirEntry dirInodeNum inodeNum name (if isDir then ftDir else ftRegFile) with
      | (false, s) => (.null, s)
      | (true, s) =>
        match s.kmalloc with
        | (false, s) => (.fault, s)
        | (true, s) => (.node ⟨name.take 127, isDir, false, inodeNum, field inode iSize⟩, s)

/-! ### Mounting and formatting -/

/-- `ext2_mount_partition`: the `ptr` of the root directory.  The device and the place of the partition are
already changed when the magic number turns out to be wrong. -/
def mountPartition (s : State) (partitionLba : ℕ) : Option ℕ × State :=
  let s := { s with vol := { s.vol with
    partitionLba := partitionLba
    sb := s.disk.read ((partitionLba + 2) % 2 ^ 32) } }
  if field s.vol.sb sMagic ≠ superMagic then (none, s)
  else
    let blockSize := 1024 * 2 ^ field s.vol.sb sLogBlockSize % 2 ^ 32
    let s := { s with vol := { s.vol with
      blockSize := blockSize
      sectorsPerBlock := blockSize / 512 } }
    (some 2,
      { s with
        vol := { s.vol with bg0 := s.disk.read (s.vol.blockToLba s.vol.bgdBlock) }
        lastAllocBlock := 0 })

end State

/-- `total_blocks` of `mkfs_ext2`. -/
def mkfsBlocks (sectorCount : ℕ) : ℕ := min (sectorCount / 2) 8192

def mkfsSuperblock (totalBlocks : ℕ) (label : List UInt8) : ℕ → UInt8 :=
  let sb := setField (fun _ => 0) sInodesCount 1024
  let sb := setField sb sBlocksCount totalBlocks
  let sb := setField sb sRBlocksCount 0
  let sb := setField sb sFreeBlocksCount (totalBlocks - 134)
  let sb := setField sb sFreeInodesCount (1024 - 11)
  let sb := setField sb sFirstDataBlock 1
  let sb := setField sb sLogBlockSize 0
  let sb := setField sb sLogFragSize 0
  let sb := setField sb sBlocksPerGroup 8192
  let sb := setField sb sFragsPerGroup 8192
  let sb := setField sb sInodesPerGroup 1024
  let sb := setField sb sMagic superMagic
  let sb := setField sb sState 1
  let sb := setField sb sErrors 1
  let sb := setField sb sFirstIno 11
  let sb := setField sb sInodeSize 128
  let sb := setField sb sBlockGroupNr 0
  write sb sVolumeName (label.take 15)

/-- The descriptor of the only group. -/
def mkfsBgd (totalBlocks : ℕ) : ℕ → UInt8 :=
  let bgd := setField (fun _ => 0) bgBlockBitmap 3
  let bgd := setField bgd bgInodeBitmap 4
  let bgd := setField bgd bgInodeTable 5
  let bgd := setField bgd bgFreeBlocksCount (totalBlocks - 134)
  let bgd := setField bgd bgFreeInodesCount (1024 - 11)
  setField bgd bgUsedDirsCount 1

/-- A bitmap with its first `n` bits set. -/
def mkfsBitmap (n : ℕ) : ℕ → UInt8 := (List.range n).foldl setBit fun _ => 0

/-- The first block of the inode table, with the root directory. -/
def mkfsInodes : ℕ → UInt8 := copy (fun _ => 0) 128 (State.dirInode 1024 2 133) inodeBytes

/-- The sector of a block, for blocks of 1024 bytes. -/
def mkfsLba (startLba block : ℕ) : ℕ := (startLba + block * 2) % 2 ^ 32

/-- A block is written. -/
def mkfsPut (startLba : ℕ) (d : Disk) (block : ℕ) (buf : ℕ → UInt8) : Disk :=
  d.write (mkfsLba startLba block) 2 buf

/-- `mkfs_ext2`, with memory for its buffer.  Blocks have 1024 bytes; the block bitmap, the inode bitmap and
the inode table are the blocks from 3, 4 and 5 on, and block 133 is the root directory. -/
def mkfsExt2 (d : Disk) (startLba sectorCount : ℕ) (label : List UInt8) : Option Disk :=
  if sectorCount < 2048 then none
  else
    let put := mkfsPut startLba
    let total := mkfsBlocks sectorCount
    let d := put d 1 (copy (fun _ => 0) 0 (mkfsSuperblock total label) superblockSize)
    let d := put d 2 (copy (fun _ => 0) 0 (mkfsBgd total) bgdSize)
    let d := put d 3 (mkfsBitmap 134)
    let d := put d 4 (mkfsBitmap 10)
    let d := (List.range 128).foldl (fun d i => put d (5 + i) fun _ => 0) d
    let d := put d 5 mkfsInodes
    some (put d 133 (State.dirBlock 1024 2 2))

/-! ### Runs -/

inductive Act where
  | finddir (inodeNum : ℕ) (name : List UInt8)
  | create (dirInodeNum : ℕ) (name : List UInt8) (isDir : Bool)
  | write (inodeNum offset : ℕ) (data : List UInt8)
  | read (inodeNum offset size : ℕ)

inductive Reply where
  | lookup (l : Lookup)
  | written (n length : ℕ)
  | bytes (b : Option (List UInt8))

namespace State

def call (s : State) : Act → Reply × State
  | .finddir inodeNum name => (.lookup (s.finddir inodeNum name).1, (s.finddir inodeNum name).2)
  | .create dirInodeNum name isDir =>
    (.lookup (s.create dirInodeNum name isDir).1, (s.create dirInodeNum name isDir).2)
  | .write inodeNum offset data =>
    (.written (s.write inodeNum offset data).1.1 (s.write inodeNum offset data).1.2,
      (s.write inodeNum offset data).2)
  | .read inodeNum offset size => (.bytes (s.read inodeNum offset size).1, (s.read inodeNum offset size).2)

def step (s : State) (a : Act) : State := (s.call a).2

def run (s : State) (acts : List Act) : State := acts.foldl step s

end State

end Ext2
