import EquantOS.Fs.Fat32Names
import EquantOS.Fs.BlockDevice

/-!
# The FAT32 driver

The file allocation table, `fat32_finddir`, `fat32_create`, `fat32_write` and `fat32_update_dir_entry` of
`fs/fat32.c`, with `mkfs_fat32` and `fat32_mount_partition`.  The device is a function from addresses to
bytes; its sectors have 512 bytes, and reading and writing them does not fail.  A loop over the clusters of
a chain goes on for at most as many steps as the volume has clusters: a longer chain has a cycle, and the
loop over it does not end.
-/

namespace Fat32

open Bytes

structure Volume where
  partitionLba : ℕ
  bytesPerSector : ℕ
  sectorsPerCluster : ℕ
  numFats : ℕ
  fatSizeSectors : ℕ
  rootCluster : ℕ
  firstFatSector : ℕ
  firstDataSector : ℕ
  totalClusters : ℕ

/-- A mounted volume: `current_vol` and `fat32_last_alloc`, with the device. -/
structure Fat where
  vol : Volume
  disk : Disk
  lastAlloc : ℕ

/-! ### The file allocation table -/

namespace Volume

def clusterSize (v : Volume) : ℕ := v.sectorsPerCluster * v.bytesPerSector

def entriesPerCluster (v : Volume) : ℕ := v.clusterSize / 32

/-- The sector of a table with the entry of a cluster. -/
def fatLba (v : Volume) (f cluster : ℕ) : ℕ :=
  (v.partitionLba + (v.firstFatSector + cluster * 4 % 2 ^ 32 / v.bytesPerSector)
    + f * v.fatSizeSectors) % 2 ^ 32

def entOffset (v : Volume) (cluster : ℕ) : ℕ := cluster * 4 % 2 ^ 32 % v.bytesPerSector

def clusterToLba (v : Volume) (cluster : ℕ) : ℕ :=
  (v.partitionLba + v.firstDataSector + (cluster + (2 ^ 32 - 2)) * v.sectorsPerCluster) % 2 ^ 32

/-- The clusters that have an entry. -/
def InRange (v : Volume) (cluster : ℕ) : Prop :=
  2 ≤ cluster ∧ cluster < (v.totalClusters + 2) % 2 ^ 32

instance (v : Volume) (cluster : ℕ) : Decidable (v.InRange cluster) := by
  unfold InRange
  infer_instance

end Volume

namespace Fat

/-- What is on the device changes. -/
def setDisk (s : Fat) (d : Disk) : Fat := { s with disk := d }

@[simp]
lemma vol_setDisk (s : Fat) (d : Disk) : (s.setDisk d).vol = s.vol := rfl

@[simp]
lemma disk_setDisk (s : Fat) (d : Disk) : (s.setDisk d).disk = d := rfl

/-- The entry of a cluster in a table, with its upper four bits. -/
def entry32 (s : Fat) (f cluster : ℕ) : ℕ :=
  readLE (s.disk.read (s.vol.fatLba f cluster)) (s.vol.entOffset cluster) 4

/-- The entry of a cluster in a table. -/
def entry (s : Fat) (f cluster : ℕ) : ℕ := s.entry32 f cluster % 2 ^ 28

def getNextCluster (s : Fat) (cluster : ℕ) : ℕ :=
  if s.vol.InRange cluster then s.entry 0 cluster else 0x0FFFFFFF

/-- The write to one of the tables in `fat32_set_next_cluster`. -/
def setEntry (s : Fat) (cluster nextCluster f : ℕ) : Fat :=
  let lba := s.vol.fatLba f cluster
  let ent := s.entry32 f cluster / 2 ^ 28 * 2 ^ 28 + nextCluster % 2 ^ 28
  let buf := write (s.disk.read lba) (s.vol.entOffset cluster) (leBytes ent 4)
  s.setDisk (s.disk.write lba 1 buf)

def setNextCluster (s : Fat) (cluster nextCluster : ℕ) : Fat :=
  if s.vol.InRange cluster then
    (List.range s.vol.numFats).foldl (fun s f => s.setEntry cluster nextCluster f) s
  else s

/-- The cluster that step `i` of `fat32_alloc_cluster` looks at. -/
def probe (start total i : ℕ) : ℕ :=
  let cluster := (start + i) % 2 ^ 32
  if total ≤ cluster then 2 + (cluster - total) else cluster

/-- The loop of `fat32_alloc_cluster`, with `n` steps left from step `i` on. -/
def allocLoop (s : Fat) (start total : ℕ) : ℕ → ℕ → Option ℕ
  | 0, _ => none
  | n + 1, i =>
    if s.entry 0 (probe start total i) = 0 then some (probe start total i)
    else allocLoop s start total n (i + 1)

def allocCluster (s : Fat) : Option ℕ × Fat :=
  let total := (s.vol.totalClusters + 2) % 2 ^ 32
  let start := if 2 ≤ s.lastAlloc ∧ s.lastAlloc < total then s.lastAlloc else 2
  match s.allocLoop start total total 0 with
  | none => (none, s)
  | some cluster =>
    (some cluster, { s.setNextCluster cluster 0x0FFFFFFF with lastAlloc := (cluster + 1) % 2 ^ 32 })

/-- A cluster that belongs to no chain ends the loops. -/
def Valid (cluster : ℕ) : Prop := 2 ≤ cluster ∧ cluster < 0x0FFFFFF8

instance (cluster : ℕ) : Decidable (Valid cluster) := by
  unfold Valid
  infer_instance

/-- The bytes of a cluster, in `cluster_buf`. -/
def readCluster (s : Fat) (cluster : ℕ) : ℕ → UInt8 := s.disk.read (s.vol.clusterToLba cluster)

def writeCluster (s : Fat) (cluster : ℕ) (buf : ℕ → UInt8) : Fat :=
  s.setDisk (s.disk.write (s.vol.clusterToLba cluster) s.vol.sectorsPerCluster buf)

@[simp]
lemma vol_writeCluster (s : Fat) (cluster : ℕ) (buf : ℕ → UInt8) :
  (s.writeCluster cluster buf).vol = s.vol
  := vol_setDisk ..

@[simp]
lemma vol_setEntry (s : Fat) (cluster nextCluster f : ℕ) :
  (s.setEntry cluster nextCluster f).vol = s.vol
  := vol_setDisk ..

@[simp]
lemma vol_setNextCluster (s : Fat) (cluster nextCluster : ℕ) :
  (s.setNextCluster cluster nextCluster).vol = s.vol
  := by
  have hfold : ∀ (fs : List ℕ) (s : Fat),
      (fs.foldl (fun s f => s.setEntry cluster nextCluster f) s).vol = s.vol := by
    intro fs
    induction fs with
    | nil => exact fun _ => rfl
    | cons f fs ih => exact fun s => (ih _).trans (vol_setEntry ..)
  unfold setNextCluster
  split
  · exact hfold _ s
  · rfl

@[simp]
lemma vol_allocCluster (s : Fat) : s.allocCluster.2.vol = s.vol
  := by
  unfold allocCluster
  dsimp only
  split
  · rfl
  · exact vol_setNextCluster ..

/-- The cluster behind another one; at the end of a chain a new one is allocated and linked. -/
def nextOrAlloc (s : Fat) (cluster : ℕ) : Option ℕ × Fat :=
  let next := s.getNextCluster cluster
  if 0x0FFFFFF8 ≤ next then
    match s.allocCluster with
    | (none, s) => (none, s)
    | (some new, s) =>
      (some new, (s.setNextCluster cluster new).setNextCluster new 0x0FFFFFFF)
  else (some next, s)

@[simp]
lemma vol_nextOrAlloc (s : Fat) (cluster : ℕ) : (s.nextOrAlloc cluster).2.vol = s.vol
  := by
  unfold nextOrAlloc
  dsimp only
  split
  · have halloc := vol_allocCluster s
    rcases h : s.allocCluster with ⟨_ | new, s'⟩
    · rwa [h] at halloc
    · rw [h] at halloc
      rwa [vol_setNextCluster, vol_setNextCluster]
  · rfl

/-! ### Directories -/

end Fat

/-- Entry `i` of a buffer. -/
def slotAt (buf : ℕ → UInt8) (i : ℕ) : Slot := (List.range 32).map fun k => buf (32 * i + k)

/-- The entries of a buffer. -/
def slots (buf : ℕ → UInt8) (n : ℕ) : List Slot := (List.range n).map (slotAt buf)

/-- The number of a cluster in an entry. -/
def firstCluster (e : Slot) : ℕ :=
  (byte e 20).toNat * 2 ^ 16 + (byte e 21).toNat * 2 ^ 24 + (byte e 26).toNat + (byte e 27).toNat * 2 ^ 8

def fileSize (e : Slot) : ℕ := readLE (byte e) 28 4

/-- `FAT32_ATTR_DIRECTORY`. -/
def isDirEntry (e : Slot) : Bool := byte e 11 &&& 0x10 ≠ 0

/-- The bytes of an entry from the time of creation on. -/
def entryTail (accessDate first size : ℕ) : List UInt8 :=
  leBytes 0x6000 2 ++ leBytes 0x5D31 2 ++ leBytes accessDate 2 ++
    leBytes (first / 2 ^ 16) 2 ++ leBytes 0x6000 2 ++ leBytes 0x5D31 2 ++
    leBytes first 2 ++ leBytes size 4

/-- A node: `name`, whether `FS_DIRECTORY` is among its `flags`, `ptr`, `length`, and the number of its
`parent`. -/
structure Node where
  name : FileName
  isDir : Bool
  ptr : ℕ
  length : ℕ
  parent : Option ℕ

/-- What `fat32_finddir` returns.  A name of 128 bytes or more is copied over the end of the node. -/
inductive Lookup where
  | null
  | overflow
  | node (n : Node)

/-- The loop over the clusters in `fat32_finddir`, with the number of the directory's node. -/
def Fat.finddirLoop (s : Fat) (dir : ℕ) (name : FileName) : ℕ → ℕ → (ℕ → UInt8) → Lookup
  | 0, _, _ => .null
  | fuel + 1, cluster, acc =>
    if Fat.Valid cluster then
      match findSlots name (slots (s.readCluster cluster) s.vol.entriesPerCluster) 0 acc with
      | .found i =>
        let e := slotAt (s.readCluster cluster) i
        if 128 ≤ name.length then .overflow
        else .node ⟨name, isDirEntry e, firstCluster e, fileSize e, some dir⟩
      | .stop _ => .null
      | .next acc => s.finddirLoop dir name fuel (s.getNextCluster cluster) acc
    else .null

/-- The loop over the clusters in `fat32_update_dir_entry`. -/
def Fat.updateLoop (s : Fat) (filename : FileName) (first size : ℕ) : ℕ → ℕ → (ℕ → UInt8) → Fat
  | 0, _, _ => s
  | fuel + 1, cluster, acc =>
    if Fat.Valid cluster then
      let buf := s.readCluster cluster
      match findSlots filename (slots buf s.vol.entriesPerCluster) 0 acc with
      | .found i => s.writeCluster cluster
          (write buf (32 * i) ((slotAt buf i).take 14 ++ entryTail 0x5D31 first size))
      | .stop acc => s.updateLoop filename first size fuel (s.getNextCluster cluster) acc
      | .next acc => s.updateLoop filename first size fuel (s.getNextCluster cluster) acc
    else s

@[simp]
lemma Fat.vol_updateLoop (s : Fat) (filename : FileName) (first size fuel cluster : ℕ) (acc : ℕ → UInt8) :
  (s.updateLoop filename first size fuel cluster acc).vol = s.vol
  := by
  induction fuel generalizing cluster acc with
  | zero => rfl
  | succ fuel ih =>
    unfold Fat.updateLoop
    split
    · dsimp only
      split
      · exact vol_writeCluster ..
      · exact ih ..
      · exact ih ..
    · rfl

/-- The loops over the clusters of a chain take at most as many steps as there are clusters. -/
def Fat.fuel (s : Fat) : ℕ := s.vol.totalClusters + 2

/-- `fat32_update_dir_entry`, and whether there is memory for its buffer. -/
def Fat.updateDirEntry (s : Fat) (mem : Bool) (parentCluster : ℕ) (filename : FileName)
    (first size : ℕ) : Fat :=
  if mem then s.updateLoop filename first size s.fuel parentCluster noName else s

/-! ### Free slots -/

/-- The entry is neither never-used nor deleted. -/
def inUse (e : Slot) : Bool := byte e 0 ≠ 0 ∧ byte e 0 ≠ 0xE5

/-- How a search for free slots ends; `outside` if it reads behind the end of the buffer. -/
inductive Search where
  | outside
  | none
  | found (i : ℕ)

/-- The inner loop of the search, for the `n` slots from `i + j` on: the first `j` that is in use. -/
def slotRun (buf : ℕ → UInt8) (perCluster i : ℕ) : ℕ → ℕ → Option (Option ℕ)
  | 0, _ => some none
  | n + 1, j =>
    if perCluster ≤ i + j then none
    else if inUse (slotAt buf (i + j)) then some (some j)
    else slotRun buf perCluster i n (j + 1)

/-- The last slot from which the search for free slots starts: `entries_per_cluster - slots_needed`. -/
def lastStart (perCluster needed : ℕ) : ℕ := (perCluster + 2 ^ 32 - needed) % 2 ^ 32

/-- The outer loop of the search, from `i` on. -/
def slotSearch (buf : ℕ → UInt8) (perCluster needed last : ℕ) : ℕ → ℕ → Search
  | 0, _ => .outside
  | fuel + 1, i =>
    if last < i then .none
    else
      match slotRun buf perCluster i needed 0 with
      | none => .outside
      | some none => .found i
      | some (some j) => slotSearch buf perCluster needed last fuel (i + j + 1)

/-- Where `fat32_create` puts the entries: the cluster, its bytes, and the first slot. -/
inductive Place where
  | outside
  | none
  | found (cluster : ℕ) (buf : ℕ → UInt8) (slot : ℕ)

/-- The loop over the clusters in `fat32_create`. -/
def Fat.placeLoop (s : Fat) (needed last : ℕ) : ℕ → ℕ → Place × Fat
  | 0, _ => (.none, s)
  | fuel + 1, cluster =>
    if Fat.Valid cluster then
      let buf := s.readCluster cluster
      match slotSearch buf s.vol.entriesPerCluster needed last (s.vol.entriesPerCluster + 1) 0 with
      | .outside => (.outside, s)
      | .found i => (.found cluster buf i, s)
      | .none =>
        if 0x0FFFFFF8 ≤ s.getNextCluster cluster then
          match s.nextOrAlloc cluster with
          | (none, s) => (.none, s)
          | (some new, s) => (.found new (fun _ => 0) 0, s.writeCluster new fun _ => 0)
        else s.placeLoop needed last fuel (s.getNextCluster cluster)
    else (.none, s)

@[simp]
lemma Fat.vol_placeLoop (s : Fat) (needed last fuel cluster : ℕ) :
  (s.placeLoop needed last fuel cluster).2.vol = s.vol
  := by
  induction fuel generalizing cluster with
  | zero => rfl
  | succ fuel ih =>
    unfold Fat.placeLoop
    split
    · dsimp only
      split
      · rfl
      · rfl
      split
      · have hnext := vol_nextOrAlloc s cluster
        rcases h : s.nextOrAlloc cluster with ⟨_ | new, s'⟩
        · rwa [h] at hnext
        · rw [h] at hnext
          exact (vol_writeCluster ..).trans hnext
      · exact ih _
    · rfl

/-! ### Creating and writing -/

def slotsNeeded (name : FileName) : ℕ := numLfn name + 1

/-- The 8.3 entry of a new file or directory. -/
def newEntry (name : FileName) (isDir : Bool) (first : ℕ) : Slot :=
  short11 name ++ [if isDir then 0x10 else 0x20, 0, 0] ++ entryTail 0x5D31 first 0

/-- The entries of a new file or directory. -/
def newEntries (name : FileName) (isDir : Bool) (first : ℕ) : List Slot :=
  lfnEntries name (numLfn name) ++ [newEntry name isDir first]

/-- The entry `.` or `..` of a new directory. -/
def dotEntry (name : FileName) (first : ℕ) : Slot :=
  short11 name ++ [0x10, 0, 0] ++ entryTail 0 first 0

/-- The first cluster of a new directory. -/
def dirData (first parent : ℕ) : ℕ → UInt8 :=
  write (fun _ => 0) 0 (dotEntry [dot] first ++ dotEntry [dot, dot] parent)

/-- The allocations of a call that succeed: the buffer of `fat32_finddir`, the one of `fat32_create`, and
the contents of a new directory. -/
structure Memory where
  finddir : Bool
  create : Bool
  dirData : Bool

/-- The mounted volume and its nodes. -/
structure Sys extends Fat where
  nodes : List Node

/-- What `fat32_create` returns. -/
inductive Created where
  | outside
  | null
  | node (n : Node)

namespace Sys

/-- `fat32_finddir` on a node. -/
def finddir (s : Sys) (mem : Bool) (dir : ℕ) (name : FileName) : Lookup :=
  match s.nodes[dir]? with
  | none => .null
  | some node =>
    if node.isDir ∧ mem then s.toFat.finddirLoop dir name s.fuel node.ptr noName else .null

/-- The cluster of a new directory with its entries `.` and `..`, or no cluster for a file. -/
def initialCluster (s : Fat) (parentCluster : ℕ) (isDir mem : Bool) : Option ℕ × Fat :=
  if isDir then
    match s.allocCluster with
    | (none, s) => (none, s)
    | (some cluster, s) =>
      let s := s.setNextCluster cluster 0x0FFFFFFF
      let parent := if parentCluster = s.vol.rootCluster then 0 else parentCluster
      (some cluster, if mem then s.writeCluster cluster (Fat32.dirData cluster parent) else s)
  else (some 0, s)

/-- `fat32_create` when there is no such entry yet. -/
def createNew (s : Fat) (mem : Memory) (dir parentCluster : ℕ) (name : FileName) (isDir : Bool) :
    Created × Fat :=
  if mem.create then
    let needed := slotsNeeded name
    match s.placeLoop needed (lastStart s.vol.entriesPerCluster needed) s.fuel parentCluster with
    | (.outside, s) => (.outside, s)
    | (.none, s) => (.null, s)
    | (.found cluster buf slot, s) =>
      match initialCluster s parentCluster isDir mem.dirData with
      | (none, s) => (.null, s)
      | (some first, s) =>
        (.node ⟨name.take 127, isDir, first, 0, some dir⟩,
          s.writeCluster cluster
            (write buf (32 * slot) (newEntries name isDir first).flatten))
  else (.null, s)

/-- The node is added to those that are in use. -/
def addNode (s : Sys) (n : Node) : Sys := { s with nodes := s.nodes ++ [n] }

def create (s : Sys) (mem : Memory) (dir : ℕ) (name : FileName) (isDir : Bool) : Created × Sys :=
  match s.nodes[dir]? with
  | none => (.null, s)
  | some parent =>
    match s.finddir mem.finddir dir name with
    | .overflow => (.outside, s)
    | .node n => (.node n, s.addNode n)
    | .null =>
      match createNew s.toFat mem dir parent.ptr name isDir with
      | (.node n, fat) => (.node n, { s with toFat := fat }.addNode n)
      | (r, fat) => (r, { s with toFat := fat })

end Sys

/-- The first loop of `fat32_write`: `n` clusters forward. -/
def Fat.seek : ℕ → ℕ → Fat → Option ℕ × Fat
  | 0, cluster, s => (some cluster, s)
  | n + 1, cluster, s =>
    match s.nextOrAlloc cluster with
    | (none, s) => (none, s)
    | (some next, s) => Fat.seek n next s

/-- The second loop of `fat32_write`, with the bytes that are left.  A chunk that fills the cluster
replaces the whole buffer, so it does not matter that the code does not read it then. -/
def Fat.writeLoop (offset : ℕ) : ℕ → List UInt8 → ℕ → ℕ → Fat → ℕ × Fat
  | 0, _, written, _, s => (written, s)
  | fuel + 1, rest, written, cluster, s =>
    if rest = [] then (written, s)
    else
      let chunkOff := (offset + written) % s.vol.clusterSize
      let chunk := rest.take (s.vol.clusterSize - chunkOff)
      let s := s.writeCluster cluster (write (s.readCluster cluster) chunkOff chunk)
      let rest := rest.drop chunk.length
      let written := written + chunk.length
      if rest = [] then (written, s)
      else
        match s.nextOrAlloc cluster with
        | (none, s) => (written, s)
        | (some next, s) => Fat.writeLoop offset fuel rest written next s

@[simp]
lemma Fat.vol_seek (n cluster : ℕ) (s : Fat) : (Fat.seek n cluster s).2.vol = s.vol
  := by
  induction n generalizing cluster s with
  | zero => rfl
  | succ n ih =>
    unfold Fat.seek
    have hnext := vol_nextOrAlloc s cluster
    rcases h : s.nextOrAlloc cluster with ⟨_ | next, s'⟩
    · rwa [h] at hnext
    · rw [h] at hnext
      exact (ih _ _).trans hnext

@[simp]
lemma Fat.vol_writeLoop (offset fuel : ℕ) (rest : List UInt8) (written cluster : ℕ) (s : Fat) :
  (Fat.writeLoop offset fuel rest written cluster s).2.vol = s.vol
  := by
  induction fuel generalizing rest written cluster s with
  | zero => rfl
  | succ fuel ih =>
    unfold Fat.writeLoop
    split
    · rfl
    dsimp only
    split
    · exact vol_writeCluster ..
    obtain ⟨s', hs'⟩ : ∃ s', s' = s.writeCluster cluster (write (s.readCluster cluster)
      ((offset + written) % s.vol.clusterSize)
      (rest.take (s.vol.clusterSize - (offset + written) % s.vol.clusterSize))) := ⟨_, rfl⟩
    have hvol : s'.vol = s.vol := by rw [hs', vol_writeCluster]
    rw [← hs']
    have hnext := vol_nextOrAlloc s' cluster
    rcases h : s'.nextOrAlloc cluster with ⟨_ | next, s''⟩
    · rw [h] at hnext
      exact hnext.trans hvol
    · rw [h] at hnext
      exact (ih _ _ _ _).trans (hnext.trans hvol)

/-- The first loop of `fat32_read`: at most `n` clusters forward. -/
def Fat.skip (s : Fat) : ℕ → ℕ → ℕ → ℕ × ℕ
  | 0, cluster, offset => (cluster, offset)
  | n + 1, cluster, offset =>
    if s.vol.clusterSize ≤ offset ∧ cluster < 0x0FFFFFF8 then
      s.skip n (s.getNextCluster cluster) (offset - s.vol.clusterSize)
    else (cluster, offset)

/-- The second loop of `fat32_read`, with the bytes that have been read. -/
def Fat.readLoop (s : Fat) (total : ℕ) : ℕ → ℕ → ℕ → List UInt8 → List UInt8
  | 0, _, _, acc => acc
  | fuel + 1, cluster, chunkOff, acc =>
    if acc.length < total ∧ Fat.Valid cluster then
      let chunk := min (s.vol.clusterSize - chunkOff) (total - acc.length)
      s.readLoop total fuel (s.getNextCluster cluster) 0
        (acc ++ (List.range chunk).map fun k => s.readCluster cluster (chunkOff + k))
    else acc

namespace Sys

/-- `fat32_read`, and whether there is memory for its buffer; `none` is -1.  The number of bytes is cut at
the length with the offset that the first loop has left. -/
def read (s : Sys) (mem : Bool) (i offset size : ℕ) : Option (List UInt8) :=
  match s.nodes[i]? with
  | none => some []
  | some node =>
    if node.length ≤ offset then some []
    else
      match s.skip (offset / s.vol.clusterSize) node.ptr offset with
      | (cluster, offset) =>
        let total := if node.length < (offset + size) % 2 ^ 64 then node.length - offset else size
        if mem then some (s.readLoop total total cluster offset []) else none

/-- The first cluster of a node, which is allocated if there is none. -/
def headCluster (s : Sys) (i : ℕ) (node : Node) : Option ℕ × Sys :=
  if node.ptr = 0 then
    match s.allocCluster with
    | (none, fat) => (none, { s with toFat := fat })
    | (some cluster, fat) =>
      (some cluster, { s with
        toFat := fat.setNextCluster cluster 0x0FFFFFFF
        nodes := s.nodes.set i { node with ptr := cluster } })
  else (some node.ptr, s)

/-- The end of `fat32_write`: the length, and the directory entry. -/
def finishWrite (s : Sys) (mem : Bool) (i : ℕ) (node : Node) (cluster offset written : ℕ) : Sys :=
  let end64 := (offset + written) % 2 ^ 64
  let length := if node.length < end64 then end64 else node.length
  let fat :=
    match node.parent.bind fun p => s.nodes[p]? with
    | none => s.toFat
    | some parent => s.updateDirEntry mem parent.ptr node.name cluster (length % 2 ^ 32)
  { s with toFat := fat, nodes := s.nodes.set i { node with ptr := cluster, length := length } }

/-- `fat32_write`, and whether there is memory for its buffer and for the one of
`fat32_update_dir_entry`. -/
def write (s : Sys) (mem update : Bool) (i offset : ℕ) (data : List UInt8) : Option ℕ × Sys :=
  match s.nodes[i]? with
  | none => (none, s)
  | some node =>
    match s.headCluster i node with
    | (none, s) => (none, s)
    | (some cluster, s) =>
      if mem then
        match Fat.seek (offset / s.vol.clusterSize) cluster s.toFat with
        | (none, fat) => (none, { s with toFat := fat })
        | (some current, fat) =>
          let (written, fat) := Fat.writeLoop offset data.length data 0 current fat
          (some written, { s with toFat := fat }.finishWrite update i node cluster offset written)
      else (none, s)

end Sys

/-! ### Mounting -/

/-- `fat32_mount_partition`: the volume, and the node of its root directory. -/
def mountPartition (d : Disk) (partitionLba partitionSectors : ℕ) : Option Sys :=
  let bpb := d.read partitionLba
  let bytesPerSector := readLE bpb 11 2
  let sectorsPerCluster := readLE bpb 13 1
  let reserved := readLE bpb 14 2
  let numFats := readLE bpb 16 1
  let total16 := readLE bpb 19 2
  let total32 := readLE bpb 32 4
  let fatSize16 := readLE bpb 22 2
  let fatSize := if fatSize16 ≠ 0 then fatSize16 else readLE bpb 36 4
  let rootCluster := readLE bpb 44 4
  if bytesPerSector ∉ [512, 1024, 2048, 4096] then none
  else if sectorsPerCluster &&& (sectorsPerCluster - 1) ≠ 0 ∨ sectorsPerCluster = 0 then none
  else if reserved = 0 ∨ numFats = 0 then none
  else if fatSize = 0 ∨ rootCluster < 2 then none
  else
    let total := if total16 ≠ 0 then total16 else if total32 ≠ 0 then total32 else partitionSectors
    let rootSectors := (readLE bpb 17 2 * 32 + (bytesPerSector - 1)) / bytesPerSector
    let dataSectors := (total + 2 ^ 32 - (reserved + numFats * fatSize % 2 ^ 32 + rootSectors) % 2 ^ 32)
      % 2 ^ 32
    some
      { vol :=
          { partitionLba := partitionLba
            bytesPerSector := bytesPerSector
            sectorsPerCluster := sectorsPerCluster
            numFats := numFats
            fatSizeSectors := fatSize
            rootCluster := rootCluster
            firstFatSector := reserved
            firstDataSector := (reserved + numFats * fatSize) % 2 ^ 32
            totalClusters := dataSectors / sectorsPerCluster }
        disk := d
        lastAlloc := 2
        nodes := [⟨[0x2F], true, rootCluster, 0, none⟩] }

/-! ### Runs -/

inductive Act where
  | finddir (mem : Bool) (dir : ℕ) (name : FileName)
  | create (mem : Memory) (dir : ℕ) (name : FileName) (isDir : Bool)
  | write (mem update : Bool) (i offset : ℕ) (data : List UInt8)
  | read (mem : Bool) (i offset size : ℕ)

inductive Reply where
  | lookup (l : Lookup)
  | created (c : Created)
  | written (n : Option ℕ)
  | bytes (b : Option (List UInt8))

namespace Sys

/-- The node that a lookup returns is in use then. -/
def addFound (s : Sys) : Lookup → Sys
  | .node n => s.addNode n
  | _ => s

def call (s : Sys) : Act → Reply × Sys
  | .finddir mem dir name => (.lookup (s.finddir mem dir name), s.addFound (s.finddir mem dir name))
  | .create mem dir name isDir =>
    (.created (s.create mem dir name isDir).1, (s.create mem dir name isDir).2)
  | .write mem update i offset data =>
    (.written (s.write mem update i offset data).1, (s.write mem update i offset data).2)
  | .read mem i offset size => (.bytes (s.read mem i offset size), s)

end Sys

end Fat32
