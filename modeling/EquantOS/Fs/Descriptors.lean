import EquantOS.Lib.RefCount
import Mathlib.Data.BitVec
import Mathlib.Data.Finset.Prod

/-!
# File descriptors

The descriptor tables of the processes and the calls of `proc/syscall.c` and `proc/pipe.c` that
change them.  A slot is a process with a descriptor.  A process is known by a number, a node by
the number that it got when it was made.  The operations of the files change a world of their
own.  For every run of a close operation it is logged how many slots refer to the node at that
time, and of a node that a call has made it is known whether it has had a slot.  A call that
fails before it has made a node changes nothing, and is left out.
-/

def maxOpenFiles : ℕ := 128

def oRdonly : BitVec 32 := 0

def oWronly : BitVec 32 := 1

def oRdwr : BitVec 32 := 2

def oCreat : BitVec 32 := 0x40

def oExcl : BitVec 32 := 0x80

def oDirectory : BitVec 32 := 0x10000

def oCloexec : BitVec 32 := 0x80000

def ebadf : ℤ := -9

def einval : ℤ := -22

def emfile : ℤ := -24

/-- What `ops->open` and `ops->close` of a node do, if there are any. -/
structure FileOps (W : Type) where
  onOpen : ℕ → W → W
  onClose : ℕ → W → W

/-- The descriptor tables and the nodes. -/
structure FileTables (W : Type) where
  /-- The processes that have not exited. -/
  live : Finset ℕ
  files : ℕ × ℕ → Option ℕ
  fileOffsets : ℕ × ℕ → ℕ
  fileFlags : ℕ × ℕ → BitVec 32
  refcount : ℕ → BitVec 32
  /-- How many nodes and processes there have been. -/
  nodeCount : ℕ
  processCount : ℕ
  /-- The node has been made by a call and has not had a slot. -/
  unused : ℕ → Bool
  /-- The nodes whose close operation has run, and how many slots referred to them then. -/
  closed : List (ℕ × ℕ)
  world : W

namespace FileTables

open Function

variable {W : Type}

/-- The slots of a process. -/
def row (p : ℕ) : Finset (ℕ × ℕ) := {p} ×ˢ Finset.range maxOpenFiles

/-- The slots of the live processes. -/
def slots (k : FileTables W) : Finset (ℕ × ℕ) := k.live ×ˢ Finset.range maxOpenFiles

/-- How many slots of live processes refer to a node. -/
def refs (k : FileTables W) (n : ℕ) : ℕ := RefCount.refs k.slots k.files n

/-- How many slots of a process refer to a node. -/
def rowRefs (k : FileTables W) (p n : ℕ) : ℕ := RefCount.refs (row p) k.files n

/-! ### Slots -/

/-- Put a node into a slot. -/
def setSlot (k : FileTables W) (s : ℕ × ℕ) (n offset : ℕ) (flags : BitVec 32) : FileTables W :=
  { k with
    files := update k.files s (some n)
    fileOffsets := update k.fileOffsets s offset
    fileFlags := update k.fileFlags s flags
    unused := update k.unused n false }

def clearSlot (k : FileTables W) (s : ℕ × ℕ) : FileTables W :=
  { k with
    files := update k.files s none
    fileOffsets := update k.fileOffsets s 0
    fileFlags := update k.fileFlags s 0 }

def setRefcount (k : FileTables W) (n : ℕ) (count : BitVec 32) : FileTables W :=
  { k with refcount := update k.refcount n count }

/-- A slot gets a node, and the count of the node is raised. -/
def take (k : FileTables W) (s : ℕ × ℕ) (n offset : ℕ) (flags : BitVec 32) : FileTables W :=
  (k.setSlot s n offset flags).setRefcount n (k.refcount n + 1)

/-- A node of zeros is made; its number is `nodeCount`. -/
def newNode (k : FileTables W) : FileTables W :=
  { k with
    nodeCount := k.nodeCount + 1
    refcount := update k.refcount k.nodeCount 0
    unused := update k.unused k.nodeCount true }

def vfsClose (ops : FileOps W) (k : FileTables W) (n : ℕ) : FileTables W :=
  { k with closed := (n, k.refs n) :: k.closed, world := ops.onClose n k.world }

/-- The common part of `sys_close_handler` and `close_process_files`: the slot is emptied and the
node loses a reference, the last one with the close operation. -/
def release (ops : FileOps W) (k : FileTables W) (s : ℕ × ℕ) (n : ℕ) : FileTables W :=
  let k := k.clearSlot s
  if 1 < k.refcount n then k.setRefcount n (k.refcount n - 1)
  else vfsClose ops (k.setRefcount n 0) n

/-- The first free descriptor from `start` on. -/
def firstFree (k : FileTables W) (p start : ℕ) : Option ℕ :=
  (List.range maxOpenFiles).find? fun i => start ≤ i && (k.files (p, i)).isNone

def allocFd (k : FileTables W) (p n : ℕ) (flags : BitVec 32) : ℤ × FileTables W :=
  match k.firstFree p 3 with
  | none => (emfile, k)
  | some i =>
    (i, (k.setSlot (p, i) n 0 flags).setRefcount n
      (if k.refcount n = 0 then 1 else k.refcount n + 1))

/-- The node of a descriptor in range. -/
def fileAt (k : FileTables W) (p : ℕ) (fd : ℤ) : Option ℕ :=
  if fd < 0 ∨ maxOpenFiles ≤ fd then none else k.files (p, fd.toNat)

/-! ### Calls by process `p` -/

def sysClose (ops : FileOps W) (k : FileTables W) (p : ℕ) (fd : ℤ) : ℤ × FileTables W :=
  match k.fileAt p fd with
  | none => (ebadf, k)
  | some n => (0, release ops k (p, fd.toNat) n)

def sysDup (k : FileTables W) (p : ℕ) (oldfd : ℤ) : ℤ × FileTables W :=
  match k.fileAt p oldfd with
  | none => (ebadf, k)
  | some n =>
    match k.firstFree p 3 with
    | none => (emfile, k)
    | some i =>
      (i, k.take (p, i) n (k.fileOffsets (p, oldfd.toNat))
        (k.fileFlags (p, oldfd.toNat) &&& ~~~oCloexec))

def sysDup2 (ops : FileOps W) (k : FileTables W) (p : ℕ) (oldfd newfd : ℤ) : ℤ × FileTables W :=
  match k.fileAt p oldfd with
  | none => (ebadf, k)
  | some n =>
    if newfd < 0 ∨ maxOpenFiles ≤ newfd then (ebadf, k)
    else if oldfd = newfd then (newfd, k)
    else
      let k := if (k.files (p, newfd.toNat)).isSome then (sysClose ops k p newfd).2 else k
      (newfd, k.take (p, newfd.toNat) n (k.fileOffsets (p, oldfd.toNat))
        (k.fileFlags (p, oldfd.toNat) &&& ~~~oCloexec))

def setFlags (k : FileTables W) (s : ℕ × ℕ) (flags : BitVec 32) : FileTables W :=
  { k with fileFlags := update k.fileFlags s flags }

def sysDup3 (ops : FileOps W) (k : FileTables W) (p : ℕ) (oldfd newfd : ℤ) (flags : BitVec 32) :
    ℤ × FileTables W :=
  if oldfd = newfd then (einval, k)
  else
    let r := sysDup2 ops k p oldfd newfd
    if 0 ≤ r.1 ∧ flags &&& oCloexec ≠ 0 then
      (r.1, r.2.setFlags (p, newfd.toNat) (r.2.fileFlags (p, newfd.toNat) ||| oCloexec))
    else r

/-- `sys_fcntl_handler` for `F_DUPFD` and `F_DUPFD_CLOEXEC`.  The argument is cast to `int`, which changes nothing
below `2 ^ 31`; from there on the slots in front of the array are read. -/
def sysFcntlDupfd (k : FileTables W) (p : ℕ) (fd : ℤ) (cloexec : Bool) (arg : ℕ) :
    ℤ × FileTables W :=
  match k.fileAt p fd with
  | none => (ebadf, k)
  | some n =>
    match k.firstFree p arg with
    | none => (emfile, k)
    | some i =>
      (i, k.take (p, i) n (k.fileOffsets (p, fd.toNat))
        (if cloexec then k.fileFlags (p, fd.toNat) ||| oCloexec
        else k.fileFlags (p, fd.toNat) &&& ~~~oCloexec))

/-- `pipe_create` and `sys_pipe2_handler`: both nodes are made with a count of one, and freed again
without two free slots. -/
def sysPipe2 (k : FileTables W) (p : ℕ) (flags : BitVec 32) : ℤ × FileTables W :=
  match k.firstFree p 3 with
  | none => (emfile, k)
  | some rfd =>
    match k.firstFree p (rfd + 1) with
    | none => (emfile, k)
    | some wfd =>
      let reader := k.nodeCount
      let k := k.newNode.setRefcount reader 1
      let writer := k.nodeCount
      let k := k.newNode.setRefcount writer 1
      let cloexec := flags &&& oCloexec
      (0, (k.setSlot (p, rfd) reader 0 (oRdonly ||| cloexec)).setSlot (p, wfd) writer 0
        (oWronly ||| cloexec))

/-- `sys_socket_handler` and the end of `sys_accept_handler`: a node with a slot, if there is a
free one.  Without one the node is freed or forgotten. -/
def sysSocket (k : FileTables W) (p : ℕ) (flags : BitVec 32) : ℤ × FileTables W :=
  k.newNode.allocFd p k.nodeCount flags

/-- `SYS_EVENTFD`: without a free slot the close operation runs. -/
def sysEventfd (ops : FileOps W) (k : FileTables W) (p : ℕ) (flags : BitVec 32) :
    ℤ × FileTables W :=
  let r := k.newNode.allocFd p k.nodeCount flags
  if r.1 < 0 then (r.1, vfsClose ops r.2 k.nodeCount) else r

def sysSocketpair (ops : FileOps W) (k : FileTables W) (p : ℕ) : ℤ × FileTables W :=
  let fd1 := k.newNode.newNode.allocFd p k.nodeCount oRdwr
  let fd2 := fd1.2.allocFd p (k.nodeCount + 1) oRdwr
  if fd1.1 < 0 ∨ fd2.1 < 0 then
    let k := if 0 ≤ fd1.1 then (sysClose ops fd2.2 p fd1.1).2 else fd2.2
    (emfile, if 0 ≤ fd2.1 then (sysClose ops k p fd2.1).2 else k)
  else (0, fd2.2)

/-! ### Processes -/

/-- A process without open files. -/
def birth (k : FileTables W) : FileTables W :=
  { k with live := insert k.processCount k.live, processCount := k.processCount + 1 }

/-- One round of the loop of `sys_clone_handler` over the descriptors. -/
def copySlot (p child : ℕ) (k : FileTables W) (i : ℕ) : FileTables W :=
  match k.files (p, i) with
  | none => k
  | some n => k.take (child, i) n (k.fileOffsets (p, i)) (k.fileFlags (p, i))

/-- `sys_clone_handler` without `CLONE_THREAD`, if there is memory. -/
def sysClone (k : FileTables W) (p : ℕ) : FileTables W :=
  (List.range maxOpenFiles).foldl (copySlot p k.processCount) k.birth

/-- The loops of `sys_exit_handler` and `sys_execve_handler`: the slots that pass a test are
closed. -/
def closeSlots (ops : FileOps W) (p : ℕ) (test : BitVec 32 → Bool) (k : FileTables W) :
    FileTables W :=
  (List.range maxOpenFiles).foldl (fun k i =>
    if (k.files (p, i)).isSome && test (k.fileFlags (p, i)) then (sysClose ops k p i).2 else k) k

/-- `sys_execve_handler` of a program that can be loaded. -/
def sysExecve (ops : FileOps W) (k : FileTables W) (p : ℕ) : FileTables W :=
  closeSlots ops p (fun flags => flags &&& oCloexec != 0) k

/-- `sys_exit_handler` of the only task of a process. -/
def sysExit (ops : FileOps W) (k : FileTables W) (p : ℕ) : FileTables W :=
  let k := closeSlots ops p (fun _ => true) k
  { k with live := k.live.erase p }

/-- A call that makes, copies or closes descriptors.  `setFlags` is `F_SETFD`, `F_SETFL` or
`FIONBIO`. -/
inductive FileCall where
  | pipe2 (flags : BitVec 32)
  | socket (flags : BitVec 32)
  | accept (flags : BitVec 32)
  | eventfd (flags : BitVec 32)
  | socketpair
  | dup (oldfd : ℤ)
  | dup2 (oldfd newfd : ℤ)
  | dup3 (oldfd newfd : ℤ) (flags : BitVec 32)
  | fcntlDupfd (fd : ℤ) (cloexec : Bool) (arg : Fin (2 ^ 31))
  | setFlags (fd : ℕ) (flags : BitVec 32)
  | close (fd : ℤ)
  | clone
  | execve
  | exit

/-- The effect of a call by process `p`. -/
def FileCall.effect (ops : FileOps W) (k : FileTables W) (p : ℕ) : FileCall → FileTables W
  | .pipe2 flags => (k.sysPipe2 p flags).2
  | .socket flags => (k.sysSocket p flags).2
  | .accept flags => (k.sysSocket p flags).2
  | .eventfd flags => (sysEventfd ops k p flags).2
  | .socketpair => (sysSocketpair ops k p).2
  | .dup oldfd => (k.sysDup p oldfd).2
  | .dup2 oldfd newfd => (sysDup2 ops k p oldfd newfd).2
  | .dup3 oldfd newfd flags => (sysDup3 ops k p oldfd newfd flags).2
  | .fcntlDupfd fd cloexec arg => (k.sysFcntlDupfd p fd cloexec arg).2
  | .setFlags fd flags => k.setFlags (p, fd) flags
  | .close fd => (sysClose ops k p fd).2
  | .clone => k.sysClone p
  | .execve => sysExecve ops k p
  | .exit => sysExit ops k p

/-- A call by a process; only live processes make calls. -/
def FileCall.step (ops : FileOps W) (k : FileTables W) (c : ℕ × FileCall) : FileTables W :=
  if c.1 ∈ k.live then c.2.effect ops k c.1 else k

end FileTables
