import EquantOS.Lib.Bytes

/-!
# The virtual file system

The tree of nodes and the resolution of paths of `fs/vfs.c`, the files of `fs/ramfs.c`, and the calls of
`proc/syscall.c` that take a path or a descriptor of a file.  Nodes and the contents of files are known by
numbers; a number without a node is memory that is not allocated.  The drivers of disks, with the page cache
in front of them, are a parameter: they know the entries of their directories, and every entry that is found
becomes a new node.  The state says which allocations of memory succeed, and what is in new memory.
-/

namespace Vfs

open Function

abbrev Name := List UInt8

/-- `ops` of a node. -/
inductive Driver where
  | ramfs
  | fat32
  | ext2
  | iso9660
  deriving DecidableEq

/-- `vfs_node_t`.  A mount point has the root of what is mounted there; a file of ramfs has its contents in
`fdata`, and one on a disk is known by `ptr`. -/
structure Node where
  name : Name
  isDir : Bool
  driver : Driver
  mounted : Option ℕ
  fdata : Option ℕ
  ptr : ℕ
  length : ℕ
  parent : Option ℕ
  children : List ℕ

/-- What a directory on a disk has for a name. -/
structure Entry where
  isDir : Bool
  ptr : ℕ
  length : ℕ

/-- The drivers of the disks.  A write returns the number of bytes, and the `ptr` and `length` that it leaves
in the node. -/
structure Drivers (δ : Type) where
  find : δ → Driver → ℕ → Name → Option Entry
  read : δ → Node → ℕ → ℕ → δ × List UInt8
  write : δ → Node → ℕ → List UInt8 → δ × Option ℕ × ℕ × ℕ

/-- `ramfs_file_data_t`.  The buffer has `room` bytes; without a buffer there are none. -/
structure FileData where
  capacity : ℕ
  room : ℕ
  bytes : ℕ → UInt8

/-- The nodes, the contents of the files of ramfs, the descriptors of the processes, and the memory. -/
structure Sys (δ : Type) where
  nodes : ℕ → Option Node
  nextNode : ℕ
  root : ℕ
  devices : List UInt8 → Option ℕ
  data : ℕ → FileData
  files : ℕ × ℕ → Option ℕ
  offsets : ℕ × ℕ → ℕ
  append : ℕ × ℕ → Bool
  disks : δ
  usedMemory : ℕ
  memory : ℕ → Bool
  allocations : ℕ
  heap : ℕ → ℕ → UInt8

/-! ### Memory -/

def bucketSizes : List ℕ := [16, 32, 64, 128, 256, 512, 1024, 2048]

/-- `pages_needed` in `kmalloc`; its sums are in 64 bits. -/
def pagesNeeded (size : ℕ) : ℕ := ((size + 32) % 2 ^ 64 + 4095) % 2 ^ 64 / 4096

/-- What an allocation adds to `used_memory`. -/
def extent (size : ℕ) : ℕ := (bucketSizes.find? (size ≤ ·)).getD (pagesNeeded size * 4096)

/-- The bytes that belong to a block. -/
def blockRoom (size : ℕ) : ℕ := (bucketSizes.find? (size ≤ ·)).getD (pagesNeeded size * 4096 - 32)

/-- `old_size` in `krealloc`: the size of the bucket, or that in the header of a large block. -/
def oldSize (size : ℕ) : ℕ := (bucketSizes.find? (size ≤ ·)).getD size

/-- `sizeof(vfs_node_t)`. -/
def nodeSize : ℕ := 200

namespace Sys

variable {δ : Type} (drv : Drivers δ)

def kmalloc (s : Sys δ) (size : ℕ) : Bool × Sys δ :=
  let s' := { s with allocations := s.allocations + 1 }
  if s.memory s.allocations then (true, { s' with usedMemory := s.usedMemory + extent size }) else (false, s')

/-- `kfree` of a block of the given size. -/
def kfree (s : Sys δ) (size : ℕ) : Sys δ := { s with usedMemory := s.usedMemory - extent size }

/-- Buffers are taken and given back: whether there is memory for them. -/
def buffers (s : Sys δ) : Bool × Sys δ :=
  (s.memory s.allocations, { s with allocations := s.allocations + 1 })

def setNode (s : Sys δ) (id : ℕ) (node : Option Node) : Sys δ :=
  { s with nodes := update s.nodes id node }

/-- The node gets the next number. -/
def addNode (s : Sys δ) (node : Node) : Sys δ :=
  { s.setNode s.nextNode (some node) with nextNode := s.nextNode + 1 }

/-! ### Looking up a name -/

end Sys

/-- What a lookup returns.  There is a fault if a driver uses a node for which there was no memory. -/
inductive Result where
  | null
  | fault
  | node (id : ℕ)

namespace Sys

variable {δ : Type} (drv : Drivers δ)

/-- A mount point stands for what is mounted there. -/
def enter (s : Sys δ) (id : ℕ) : ℕ := ((s.nodes id).bind Node.mounted).getD id

/-- `ramfs_finddir`: the first child with the name. -/
def findChild (s : Sys δ) (children : List ℕ) (name : Name) : Option ℕ :=
  children.find? fun c => (s.nodes c).map Node.name = some name

/-- The node for an entry of a directory on a disk.  ext2 does not set `parent`. -/
def entryNode (driver : Driver) (dir : ℕ) (name : Name) (e : Entry) : Node where
  name := name
  isDir := e.isDir
  driver := driver
  mounted := none
  fdata := none
  ptr := e.ptr
  length := e.length
  parent := if driver = .ext2 then none else some dir
  children := []

/-- `fat32_finddir`, `ext2_finddir` and `iso9660_finddir`.  Only iso9660 looks whether there is memory for the
node. -/
def findEntry (s : Sys δ) (dir : ℕ) (node : Node) (name : Name) : Result × Sys δ :=
  match s.buffers with
  | (false, s) => (.null, s)
  | (true, s) =>
    match drv.find s.disks node.driver node.ptr name with
    | none => (.null, s)
    | some e =>
      match s.kmalloc nodeSize with
      | (false, s) => (if node.driver = .iso9660 then .null else .fault, s)
      | (true, s) => (.node s.nextNode, s.addNode (entryNode node.driver dir name e))

def finddir (s : Sys δ) (id : ℕ) (name : Name) : Result × Sys δ :=
  match s.nodes (s.enter id) with
  | none => (.null, s)
  | some node =>
    if node.isDir then
      if node.driver = .ramfs then
        match s.findChild node.children name with
        | none => (.null, s)
        | some c => (.node c, s)
      else s.findEntry drv (s.enter id) node name
    else (.null, s)

/-- The loop of `vfs_resolve_path` over the components of the path. -/
def walk (s : Sys δ) (current : ℕ) : List Name → Result × Sys δ
  | [] => (.node current, s)
  | token :: rest =>
    if token = [] ∨ token = [0x2E] then s.walk current rest
    else if token = [0x2E, 0x2E] then s.walk (((s.nodes current).bind Node.parent).getD current) rest
    else
      match s.finddir drv current token with
      | (.node next, s) => s.walk (s.enter next) rest
      | (r, s) => (r, s)

/-- `vfs_resolve_path`.  A path below `/dev` is looked up among the devices first; a long path is copied to
a buffer. -/
def resolvePath (s : Sys δ) (path : List UInt8) : Result × Sys δ :=
  if path.head? = some 0x2F then
    match s.devices path with
    | some id => (.node id, s)
    | none =>
      if path.length < 256 then s.walk drv (s.enter s.root) ((path.drop 1).splitOn 0x2F)
      else
        match s.kmalloc (path.length + 1) with
        | (false, s) => (.null, s)
        | (true, s) =>
          match s.walk drv (s.enter s.root) ((path.drop 1).splitOn 0x2F) with
          | (r, s) => (r, s.kfree (path.length + 1))
  else (.null, s)

/-! ### Descriptors -/

def maxOpenFiles : ℕ := 128

def allocFd (s : Sys δ) (pid id : ℕ) (append : Bool) : Option ℕ × Sys δ :=
  match (List.range maxOpenFiles).find? fun i => 3 ≤ i && (s.files (pid, i)).isNone with
  | none => (none, s)
  | some i =>
    (some i, { s with
      files := update s.files (pid, i) (some id)
      offsets := update s.offsets (pid, i) 0
      append := update s.append (pid, i) append })

/-- `sys_close_handler`.  The drivers have no close operation. -/
def close (s : Sys δ) (pid fd : ℕ) : Sys δ :=
  { s with
    files := update s.files (pid, fd) none
    offsets := update s.offsets (pid, fd) 0
    append := update s.append (pid, fd) false }

def setLength (s : Sys δ) (id length : ℕ) : Sys δ :=
  s.setNode id ((s.nodes id).map fun node => { node with length := length })

/-- `sys_openat_handler` for a path that exists, without `O_EXCL`. -/
def openat (s : Sys δ) (pid : ℕ) (path : List UInt8) (trunc append : Bool) : Option ℕ × Sys δ :=
  match s.resolvePath drv path with
  | (.node id, s) => (if trunc then s.setLength id 0 else s).allocFd pid id append
  | (_, s) => (none, s)

/-! ### Reading and writing -/

/-- `ramfs_read`.  A byte that is not in the buffer is `none`. -/
def ramfsRead (s : Sys δ) (node : Node) (offset size : ℕ) : List (Option UInt8) :=
  match node.fdata with
  | none => []
  | some f =>
    if node.length ≤ offset then []
    else
      let bytesToRead := if node.length < (offset + size) % 2 ^ 64 then node.length - offset else size
      (List.range bytesToRead).map fun k =>
        if offset + k < (s.data f).room then some ((s.data f).bytes (offset + k)) else none

/-- A byte of the next block that `kmalloc` returns.  A slab has room for one object of 2048 bytes, which
begins with the link of the free list; it is the last one, so the link is `NULL`. -/
def newByte (s : Sys δ) (size k : ℕ) : UInt8 :=
  if 1024 < size ∧ size ≤ 2048 ∧ k < 8 then 0 else s.heap s.allocations k

/-- `krealloc` in `ramfs_write`.  For a size of 0 it frees the buffer. -/
def grow (s : Sys δ) (f required : ℕ) : Bool × Sys δ :=
  let old := s.data f
  if old.capacity < required then
    let newCap := (required + 1024) % 2 ^ 64
    if newCap = 0 then
      (false, if old.room = 0 then s
        else { s.kfree old.capacity with data := update s.data f { old with room := 0 } })
    else
      let copySize := if old.room = 0 then 0 else min newCap (oldSize old.capacity)
      let new : FileData :=
        { capacity := newCap
          room := blockRoom newCap
          bytes := fun k => if k < copySize then old.bytes k else s.newByte newCap k }
      match s.kmalloc newCap with
      | (false, s) => (false, s)
      | (true, s) =>
        let s := if old.room = 0 then s else s.kfree old.capacity
        (true, { s with data := update s.data f new })
  else (true, s)

/-- `ramfs_write`; `none` is -1. -/
def ramfsWrite (s : Sys δ) (id : ℕ) (node : Node) (offset : ℕ) (data : List UInt8) : Option ℕ × Sys δ :=
  match node.fdata with
  | none => (none, s)
  | some f =>
    let requiredSize := (offset + data.length) % 2 ^ 64
    match s.grow f requiredSize with
    | (false, s) => (none, s)
    | (true, s) =>
      let new : FileData := { s.data f with bytes := Bytes.write (s.data f).bytes offset data }
      (some data.length,
        { s with data := update s.data f new }.setLength id (max node.length requiredSize))

def vfsRead (s : Sys δ) (id offset size : ℕ) : List (Option UInt8) × Sys δ :=
  match s.nodes id with
  | none => ([], s)
  | some node =>
    if node.driver = .ramfs then (s.ramfsRead node offset size, s)
    else
      match drv.read s.disks node offset size with
      | (disks, bytes) => (bytes.map some, { s with disks := disks })

def vfsWrite (s : Sys δ) (id offset : ℕ) (data : List UInt8) : Option ℕ × Sys δ :=
  match s.nodes id with
  | none => (none, s)
  | some node =>
    if node.driver = .ramfs then s.ramfsWrite id node offset data
    else
      match drv.write s.disks node offset data with
      | (disks, n, ptr, length) =>
        (n, { s.setNode id (some { node with ptr := ptr, length := length }) with disks := disks })

/-! ### Changing the tree -/

/-- The children of a node are replaced. -/
def setChildren (s : Sys δ) (id : ℕ) (children : List ℕ) : Sys δ :=
  s.setNode id ((s.nodes id).map fun node => { node with children := children })

/-- `sys_unlinkat_handler` after the path has been resolved. -/
def unlinkNode (s : Sys δ) (id : ℕ) : Sys δ :=
  match (s.nodes id).bind Node.parent with
  | none => s
  | some p =>
    match (s.nodes p).map Node.children with
    | none => s
    | some children =>
      if id ∈ children then
        ((s.setChildren p (children.erase id)).setNode id none).kfree nodeSize
      else s

/-- `sys_unlinkat_handler`; whether it returns 0. -/
def unlink (s : Sys δ) (path : List UInt8) : Bool × Sys δ :=
  match s.resolvePath drv path with
  | (.node id, s) => (true, s.unlinkNode id)
  | (_, s) => (false, s)

/-- The node gets a number and comes behind the children of the directory. -/
def addChild (s : Sys δ) (dir : ℕ) (node : Node) : Sys δ :=
  let children := ((s.nodes dir).map Node.children).getD []
  (s.addNode node).setChildren dir (children ++ [s.nextNode])

def ramfsNode (dir : ℕ) (name : Name) (isDir : Bool) (fdata : Option ℕ) : Node where
  name := name.take 127
  isDir := isDir
  driver := .ramfs
  mounted := none
  fdata := fdata
  ptr := 0
  length := 0
  parent := some dir
  children := []

/-- `ramfs_create_directory`.  If there is a child with the name, it is returned. -/
def createDirectory (s : Sys δ) (dir : ℕ) (name : Name) : Option ℕ × Sys δ :=
  if name = [] then (none, s)
  else
    match s.findChild (((s.nodes dir).map Node.children).getD []) name with
    | some c => (some c, s)
    | none =>
      match s.kmalloc nodeSize with
      | (false, s) => (none, s)
      | (true, s) => (some s.nextNode, s.addChild dir (ramfsNode dir name true none))

/-- `ramfs_create_file` without contents.  They get the number of the node. -/
def createFile (s : Sys δ) (dir : ℕ) (name : Name) : Option ℕ × Sys δ :=
  match s.kmalloc nodeSize with
  | (false, s) => (none, s)
  | (true, s) =>
    match s.kmalloc 16 with
    | (false, s) => (none, s.kfree nodeSize)
    | (true, s) =>
      let data : FileData := { capacity := 0, room := 0, bytes := fun _ => 0 }
      (some s.nextNode, { s with data := update s.data s.nextNode data }.addChild dir
        (ramfsNode dir name false (some s.nextNode)))

/-- `vfs_mount` after the first. -/
def mount (s : Sys δ) (path : List UInt8) (root : ℕ) : Sys δ :=
  match s.resolvePath drv path with
  | (.node id, s) => s.setNode id ((s.nodes id).map fun node => { node with mounted := some root })
  | (_, s) => s

/-- The end of `sys_link_handler`: a copy of the node with a new name, behind the children of the
directory. -/
def linkNode (s : Sys δ) (old dir : ℕ) (name : Name) : Sys δ :=
  match s.nodes old, s.nodes dir with
  | some node, some _ =>
    match s.kmalloc nodeSize with
    | (false, s) => s
    | (true, s) => s.addChild dir { node with name := name.take 127, parent := some dir }
  | _, _ => s

/-- `parent_path` and `filename` in `sys_link_handler`.  The name is left in the buffer of the path; if the
only slash is the first character, the path is cut off there, and with it the name. -/
def splitLink (path : List UInt8) : List UInt8 × Name :=
  let name := (path.reverse.takeWhile (· ≠ 0x2F)).reverse
  if path.length ≤ name.length then (path, path)
  else if path.length = name.length + 1 then ([0x2F], [])
  else (path.take (path.length - name.length - 1), name)

/-- `sys_link_handler` for paths that `resolve_user_path` has made absolute. -/
def link (s : Sys δ) (oldPath newPath : List UInt8) : Sys δ :=
  match s.resolvePath drv oldPath with
  | (.node old, s) =>
    match s.resolvePath drv (splitLink newPath).1 with
    | (.node dir, s) => s.linkNode old dir (splitLink newPath).2
    | (_, s) => s
  | (_, s) => s

end Sys

end Vfs
