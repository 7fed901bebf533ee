import EquantOS.Fs.RefCounting

/-!
# Terminals and the audio device

The pseudo-terminals of `drivers/tty/pty.c` and the audio device of `drivers/audio/ac97.c`, with the
calls of `proc/syscall.c` that open them or look them up.  `vfs_open` runs the open operation for
every path that is looked up; the close operation runs with the last slot.

The buffers of the terminals are left out.  What the audio driver does for writes and controls is
left open: it may set its state as it likes, as long as there is a descriptor for it.
-/

def ptyMaxPairs : ℕ := 32

def enoent : ℤ := -2

def eexist : ℤ := -17

def enotdir : ℤ := -20

def enospc : ℤ := -28

/-- What operations a node has, and the pair that it points to. -/
inductive NodeKind where
  | plain
  | master (pair : ℕ)
  | slave (pair : ℕ)
  | dsp
  deriving DecidableEq

structure PtyPair where
  allocated : Bool
  masterOpen : Bool
  slaveOpen : Bool
  masterRefs : ℤ
  slaveRefs : ℤ
  masterNode : Option ℕ
  slaveNode : Option ℕ
  deriving DecidableEq

/-- A pair of zeros. -/
def PtyPair.zero : PtyPair := ⟨false, false, false, 0, 0, none, none⟩

/-- A pair whose master has been made. -/
def PtyPair.opened (master slave : ℕ) : PtyPair := ⟨true, true, false, 1, 0, some master, some slave⟩

/-- The state of the audio driver. -/
structure Dsp where
  openCount : ℤ
  paused : Bool
  running : Bool
  queued : ℕ
  /-- How often the close operation has flushed and halted the engine. -/
  halts : ℕ
  deriving DecidableEq

structure Devices where
  kind : ℕ → NodeKind
  directory : ℕ → Bool
  /-- `g_pty_table`. -/
  pairs : ℕ → PtyPair
  dsp : Dsp
  dspNode : ℕ
  /-- The node that `/dev/tty` names by itself. -/
  ttyNode : ℕ
  controllingTty : ℕ → Option ℕ

namespace Devices

def setPair (w : Devices) (i : ℕ) (pair : PtyPair) : Devices :=
  { w with pairs := Function.update w.pairs i pair }

def ptySlaveOpen (w : Devices) (i : ℕ) : Devices :=
  let pair := w.pairs i
  w.setPair i { pair with slaveRefs := pair.slaveRefs + 1, slaveOpen := true }

/-- `pty_slave_close`; `pty_free_pair` clears the pair. -/
def ptySlaveClose (w : Devices) (i : ℕ) : Devices :=
  let pair := { w.pairs i with slaveRefs := (w.pairs i).slaveRefs - 1 }
  if pair.slaveRefs ≤ 0 then
    let pair := { pair with slaveOpen := false }
    if !pair.masterOpen ∧ pair.masterRefs ≤ 0 then w.setPair i .zero else w.setPair i pair
  else w.setPair i pair

def ptyMasterClose (w : Devices) (i : ℕ) : Devices :=
  let pair := { w.pairs i with masterRefs := (w.pairs i).masterRefs - 1 }
  if pair.masterRefs ≤ 0 then
    let pair := { pair with masterOpen := false }
    if !pair.slaveOpen ∧ pair.slaveRefs ≤ 0 then w.setPair i .zero else w.setPair i pair
  else w.setPair i pair

def ac97FopsOpen (w : Devices) : Devices :=
  let dsp := w.dsp
  if dsp.openCount = 0 then
    { w with dsp := { dsp with openCount := dsp.openCount + 1, paused := false, queued := 0 } }
  else { w with dsp := { dsp with openCount := dsp.openCount + 1 } }

def ac97FopsClose (w : Devices) : Devices :=
  let dsp := w.dsp
  if 0 < dsp.openCount then
    if dsp.openCount - 1 = 0 then
      { w with dsp :=
        { dsp with
          openCount := dsp.openCount - 1, queued := 0, running := false, paused := false
          halts := dsp.halts + 1 } }
    else { w with dsp := { dsp with openCount := dsp.openCount - 1 } }
  else w

/-- The open and close operations of the nodes. -/
def ops : FileOps Devices where
  onOpen n w :=
    match w.kind n with
    | .slave i => w.ptySlaveOpen i
    | .dsp => w.ac97FopsOpen
    | .plain | .master _ => w
  onClose n w :=
    match w.kind n with
    | .slave i => w.ptySlaveClose i
    | .master i => w.ptyMasterClose i
    | .dsp => w.ac97FopsClose
    | .plain => w

def ptyGetSlaveNode (w : Devices) (i : ℕ) : Option ℕ :=
  if ptyMaxPairs ≤ i then none
  else if !(w.pairs i).allocated || !(w.pairs i).masterOpen then none
  else (w.pairs i).slaveNode

end Devices

/-- What a path names: a terminal by its number, the audio device, another node that is there, or one
of the names that `sys_openat_handler` knows. -/
inductive DevicePath where
  | ptmx
  | tty
  | pts (i : ℕ)
  | dsp
  | other (n : ℕ)

abbrev DeviceTables := FileTables Devices

namespace DeviceTables

open FileTables Devices

/-- A node that is not made for a slot. -/
def newDevice (k : DeviceTables) (kind : NodeKind) : DeviceTables :=
  { k with
    nodeCount := k.nodeCount + 1
    refcount := Function.update k.refcount k.nodeCount 0
    unused := Function.update k.unused k.nodeCount false
    world := { k.world with kind := Function.update k.world.kind k.nodeCount kind } }

/-- The nodes of a pair are made, and the pair is written. -/
def newPair (k : DeviceTables) (i : ℕ) : DeviceTables :=
  let master := k.nodeCount
  let k := k.newDevice (.master i)
  let slave := k.nodeCount
  let k := k.newDevice (.slave i)
  { k with world := k.world.setPair i (.opened master slave) }

/-- `pty_create_master_node`, if there is memory: the number of the master. -/
def ptyCreateMasterNode (k : DeviceTables) : Option ℕ × DeviceTables :=
  match (List.range ptyMaxPairs).find? fun i => !(k.world.pairs i).allocated with
  | none => (none, k)
  | some i => (some k.nodeCount, k.newPair i)

/-- `vfs_resolve_path`; the paths with a node of their own are none of the devices. -/
def vfsResolvePath (k : DeviceTables) : DevicePath → Option ℕ
  | .ptmx | .tty => some k.world.ttyNode
  | .pts i => k.world.ptyGetSlaveNode i
  | .dsp => some k.world.dspNode
  | .other n => if n < k.nodeCount ∧ k.world.kind n = .plain then some n else none

/-- The open operation of a node runs. -/
def runOpen (k : DeviceTables) (n : ℕ) : DeviceTables :=
  { k with world := ops.onOpen n k.world }

def vfsOpen (k : DeviceTables) (path : DevicePath) : Option ℕ × DeviceTables :=
  match k.vfsResolvePath path with
  | none => (none, k)
  | some n => (some n, k.runOpen n)

/-- The part of `sys_openat_handler` that looks a path up.  What it does to make a missing file is
`FileCall.socket`. -/
def openPath (k : DeviceTables) (p : ℕ) (path : DevicePath) (flags : BitVec 32) :
    ℤ × DeviceTables :=
  match k.vfsOpen path with
  | (none, k) => (enoent, k)
  | (some n, k) =>
    if flags &&& oCreat ≠ 0 ∧ flags &&& oExcl ≠ 0 then (eexist, k)
    else if flags &&& oDirectory ≠ 0 ∧ !k.world.directory n then (enotdir, k)
    else k.allocFd p n flags

def sysOpenat (k : DeviceTables) (p : ℕ) (path : DevicePath) (flags : BitVec 32) :
    ℤ × DeviceTables :=
  match path with
  | .ptmx =>
    match k.ptyCreateMasterNode with
    | (none, k) => (enospc, k)
    | (some master, k) => k.allocFd p master flags
  | .tty =>
    match k.world.controllingTty p with
    | some n => (k.runOpen n).allocFd p n flags
    | none => k.openPath p path flags
  | _ => k.openPath p path flags

/-- `TIOCSCTTY` on a slave. -/
def setControllingTty (k : DeviceTables) (p : ℕ) (tty : Option ℕ) : DeviceTables :=
  { k with
    world := { k.world with controllingTty := Function.update k.world.controllingTty p tty } }

/-- A call that may be about a device. -/
inductive DeviceCall where
  | file (call : FileCall)
  | openat (path : DevicePath) (flags : BitVec 32)
  /-- `stat`, `access`, `chmod`, `execve` and all other calls that look a path up. -/
  | lookup (path : DevicePath)
  /-- `TIOCSCTTY`. -/
  | setTty (fd : ℤ)
  /-- `TIOCNOTTY` and `setsid`. -/
  | clearTty
  /-- A write to the audio device, or a control, and what the engine does until the next call. -/
  | play (fd : ℤ) (queued : ℕ) (running paused : Bool)

/-- The effect of a call by process `p`. -/
def DeviceCall.effect (k : DeviceTables) (p : ℕ) : DeviceCall → DeviceTables
  | .file .clone =>
    let child := k.processCount
    setControllingTty (FileCall.clone.effect ops k p) child (k.world.controllingTty p)
  | .file call => call.effect ops k p
  | .openat path flags => (sysOpenat k p path flags).2
  | .lookup path => (vfsOpen k path).2
  | .setTty fd =>
    match (k.fileAt p fd).map k.world.kind with
    | some (.slave i) => k.setControllingTty p (k.world.pairs i).slaveNode
    | _ => k
  | .clearTty => k.setControllingTty p none
  | .play fd queued running paused =>
    match (k.fileAt p fd).map k.world.kind with
    | some .dsp =>
      { k with world := { k.world with dsp :=
        { k.world.dsp with queued := queued, running := running, paused := paused } } }
    | _ => k

/-- A call by a process; only live processes make calls. -/
def DeviceCall.step (k : DeviceTables) (c : ℕ × DeviceCall) : DeviceTables :=
  if c.1 ∈ k.live then c.2.effect k c.1 else k

end DeviceTables
