import EquantOS.Lib.AssocMap
import Mathlib.Tactic.Ring

/-!
# The calls that map memory

`sys_mmap_handler`, `sys_munmap_handler` and `sys_mremap_handler` of `proc/syscall.c`,
`sys_shmat_handler` of `ipc/shm.c` and `dev_fb_mmap` of `fs/devfs.c`.  The page allocator is the list of
its free frames; when it has none, `oom_killer` of `core/mem/pmm.c` ends a process and frees its address
space.  An address space has the frames of its pages and of its page tables; the pages of both halves are
numbered by the 36 bits of an address that the tables use.
-/

namespace MemCalls

/-- An address space: the frame of each page, the frames of the tables of the three levels below the
PML4, found by the level and the bits of the page above it, and the frame of the PML4, or 0. -/
structure Space where
  pages : List (ℕ × ℕ)
  tables : List ((ℕ × ℕ) × ℕ)
  pml4 : ℕ

/-- A task, with its process and the parent of the process. -/
structure Task where
  id : ℕ
  pid : ℕ
  parentPid : ℕ
  zombie : Bool

/-- What is open at a descriptor. -/
inductive File where
  | none
  | plain
  | framebuffer
deriving DecidableEq

/-- The free frames, the number of frames of the machine, the framebuffer with its first frame and its
size, the tasks, the address spaces and the files of the processes, the next addresses, and the frames of
the segments. -/
structure Sys where
  free : List ℕ
  total : ℕ
  kernelFb : Option (ℕ × ℕ)
  tasks : List Task
  space : ℕ → Space
  files : ℕ → ℕ → File
  mmapBase : ℕ
  shmNext : ℕ
  segments : List (ℕ × List ℕ)

/-- What a call returns: an address, or an error. -/
inductive Result where
  | error
  | addr (v : ℕ)
deriving DecidableEq

/-- The arguments of `mmap`.  `fd` is a descriptor of the table or none, and `offsetOk` says whether the
offset is not negative and aligned.  `eaten` says how many frames the read of each page of a file takes
for the caches below it. -/
structure MmapArgs where
  addr : ℕ
  length : ℕ
  fixed : Bool
  anonymous : Bool
  fd : Option ℕ
  offsetOk : Bool
  offsetPages : ℕ
  eaten : ℕ → ℕ

/-- The frames the caches take for a page; anonymous memory is not read. -/
def MmapArgs.taken (a : MmapArgs) (i : ℕ) : ℕ := if a.anonymous then 0 else a.eaten i

/-- The first page of an address. -/
def pageOf (addr : ℕ) : ℕ := addr / 4096

/-- The number of pages of a length, as it is computed with 64 bits. -/
def pageCount (length : ℕ) : ℕ := (length + 4095) % 2 ^ 64 / 4096

/-- The score of a task in `oom_killer`. -/
def oomScore (tasks : List Task) (t : Task) : ℕ := 1 + 10 * tasks.countP (·.parentPid = t.pid)

/-- The victim of `oom_killer`: the first task with the highest score. -/
def oomVictim (tasks : List Task) : Option Task :=
  (tasks.foldl (fun (best : ℕ × Option Task) t =>
    if 1 < t.pid ∧ t.zombie = false ∧ best.1 < oomScore tasks t then (oomScore tasks t, some t) else best)
    (0, none)).2

namespace Sys

def pmmFree (s : Sys) (f : ℕ) : Sys :=
  if f = 0 ∨ s.total ≤ f ∨ f ∈ s.free then s else { s with free := f :: s.free }

def setSpace (s : Sys) (pid : ℕ) (space : Space) : Sys :=
  { s with space := Function.update s.space pid space }

/-- The frames that `vmm_destroy_address_space` frees: those of the lower half, and the PML4. -/
def lowerFrames (space : Space) : List ℕ :=
  (space.pages.filter fun p => p.1 < 2 ^ 35).map Prod.snd
    ++ (space.tables.filter fun t => t.1.2 * 512 ^ t.1.1 < 2 ^ 35).map Prod.snd ++ [space.pml4]

def vmmDestroyAddressSpace (s : Sys) (pid : ℕ) : Sys :=
  ((lowerFrames (s.space pid)).foldl pmmFree s).setSpace pid ⟨[], [], 0⟩

def oomKiller (s : Sys) : Sys :=
  match oomVictim s.tasks with
  | none => s
  | some victim =>
    let s := { s with
      tasks := s.tasks.map fun t => if t.id = victim.id then { t with zombie := true } else t }
    if (s.space victim.pid).pml4 = 0 then s else s.vmmDestroyAddressSpace victim.pid

/-- `pmm_alloc`.  It fails after `oom_killer`, whatever that has freed. -/
def pmmAlloc (s : Sys) : Option ℕ × Sys :=
  match s.free with
  | [] => (none, s.oomKiller)
  | f :: free => (some f, { s with free := free })

/-- Some allocations for caches. -/
def eat : ℕ → Sys → Sys
  | 0, s => s
  | n + 1, s => eat n s.pmmAlloc.2

/-- `get_next_level`, for the table of a level that a page needs.  Without memory it panics. -/
def getNextLevel (s : Sys) (pid level page : ℕ) : Option Sys :=
  if ((s.space pid).tables.lookup (level, page / 512 ^ level)).isSome then some s
  else
    match s.pmmAlloc with
    | (none, _) => none
    | (some f, s) =>
      some (s.setSpace pid { s.space pid with
        tables := AssocMap.put (level, page / 512 ^ level) f (s.space pid).tables })

def vmmMap (s : Sys) (pid page frame : ℕ) : Option Sys := do
  let page := page % 2 ^ 36
  let s ← s.getNextLevel pid 3 page
  let s ← s.getNextLevel pid 2 page
  let s ← s.getNextLevel pid 1 page
  some (s.setSpace pid { s.space pid with pages := AssocMap.put page frame (s.space pid).pages })

def vmmUnmap (s : Sys) (pid page : ℕ) : Sys :=
  s.setSpace pid { s.space pid with pages := AssocMap.erase (page % 2 ^ 36) (s.space pid).pages }

/-- `vmm_get_phys`, where no frame is frame 0. -/
def vmmGetPhys (s : Sys) (pid page : ℕ) : Option ℕ :=
  ((s.space pid).pages.lookup (page % 2 ^ 36)).filter (· ≠ 0)

/-- The loop of `sys_mmap_handler` over the pages of anonymous memory or of a file, with the number of
the page.  It returns whether there was a frame for every page. -/
def mapPages (pid : ℕ) (eaten : ℕ → ℕ) : ℕ → ℕ → ℕ → Sys → Option (Bool × Sys)
  | 0, _, _, s => some (true, s)
  | n + 1, i, page, s =>
    match s.pmmAlloc with
    | (none, s) => some (false, s)
    | (some f, s) =>
      match (eat (eaten i) s).vmmMap pid page f with
      | none => none
      | some s => mapPages pid eaten n (i + 1) (page + 1) s

/-- The loops of `dev_fb_mmap` and `sys_shmat_handler`. -/
def mapFrames (pid : ℕ) : List ℕ → ℕ → Sys → Option Sys
  | [], _, s => some s
  | f :: frames, page, s =>
    match s.vmmMap pid page f with
    | none => none
    | some s => mapFrames pid frames (page + 1) s

def devFbMmap (s : Sys) (pid addr length offsetPages : ℕ) : Option (Result × Sys) :=
  match s.kernelFb with
  | none => some (.error, s)
  | some (first, size) =>
    let length := if length = 0 ∨ size < length then size else length
    match mapFrames pid (List.range' (first + offsetPages) ((length + 4095) / 4096)) (pageOf addr) s with
    | none => none
    | some s => some (.addr addr, s)

/-- What is open at the descriptor of a call. -/
def fileAt (s : Sys) (pid : ℕ) (fd : Option ℕ) : File := fd.elim .none (s.files pid)

/-- `sys_mmap_handler` once the address is chosen. -/
def mmapAt (s : Sys) (pid virt : ℕ) (a : MmapArgs) : Option (Result × Sys) :=
  let count := pageCount a.length
  if s.fileAt pid a.fd = .framebuffer then s.devFbMmap pid virt (count * 4096) a.offsetPages
  else if a.anonymous ∨ s.fileAt pid a.fd = .plain then
    match mapPages pid a.taken count 0 (pageOf virt) s with
    | none => none
    | some (true, s) => some (.addr virt, s)
    | some (false, s) => some (.error, s)
  else some (.error, s)

/-- `sys_mmap_handler`.  It does not return if it panics. -/
def sysMmap (s : Sys) (pid : ℕ) (a : MmapArgs) : Option (Result × Sys) :=
  if a.length = 0 then some (.error, s)
  else if !a.offsetOk then some (.error, s)
  else if a.addr = 0 ∨ a.fixed = false then
    { s with mmapBase := (s.mmapBase + pageCount a.length * 4096) % 2 ^ 64 }.mmapAt pid s.mmapBase a
  else s.mmapAt pid a.addr a

/-- The loop of `sys_munmap_handler`. -/
def unmapPages (pid : ℕ) : ℕ → ℕ → Sys → Sys
  | 0, _, s => s
  | n + 1, page, s =>
    unmapPages pid n (page + 1) (match s.vmmGetPhys pid page with
      | none => s
      | some f => (s.pmmFree f).vmmUnmap pid page)

def sysMunmap (s : Sys) (pid addr length : ℕ) : Result × Sys :=
  if length = 0 ∨ addr % 4096 ≠ 0 then (.error, s)
  else (.addr 0, unmapPages pid (pageCount length) (pageOf addr) s)

/-- The arguments of the call of `sys_mmap_handler` in `sys_mremap_handler`. -/
def remapArgs (newSize : ℕ) : MmapArgs := ⟨0, newSize, false, true, none, true, 0, fun _ => 0⟩

def sysMremap (s : Sys) (pid oldAddr oldSize newSize : ℕ) : Option (Result × Sys) :=
  if newSize = 0 ∨ oldAddr % 4096 ≠ 0 then some (.error, s)
  else if newSize ≤ oldSize then
    some (.addr oldAddr,
      if 4096 ≤ oldSize - newSize then
        (s.sysMunmap pid ((oldAddr + newSize) % 2 ^ 64) (oldSize - newSize)).2
      else s)
  else
    match s.sysMmap pid (remapArgs newSize) with
    | none => none
    | some (.error, s) => some (.error, s)
    | some (.addr v, s) =>
      -- an address of the upper half is a negative number, which is taken for an error
      some (.addr v, if v < 2 ^ 63 ∧ oldAddr ≠ 0 ∧ oldSize ≠ 0 then
        (s.sysMunmap pid oldAddr oldSize).2
      else s)

def sysShmat (s : Sys) (pid shmid addr : ℕ) : Option (Result × Sys) :=
  match s.segments.lookup shmid with
  | none => some (.error, s)
  | some frames =>
    let virt := if addr = 0 then s.shmNext else addr
    let s := if addr = 0 then { s with shmNext := (s.shmNext + frames.length * 4096) % 2 ^ 64 } else s
    match mapFrames pid frames (pageOf virt) s with
    | none => none
    | some s => some (.addr virt, s)

end Sys

inductive Call where
  | mmap (pid : ℕ) (args : MmapArgs)
  | munmap (pid addr length : ℕ)
  | mremap (pid oldAddr oldSize newSize : ℕ)
  | shmat (pid shmid addr : ℕ)

/-- The state after a call; none if the kernel panics. -/
def Sys.call (s : Sys) : Call → Option Sys
  | .mmap pid args => (s.sysMmap pid args).map Prod.snd
  | .munmap pid addr length => some (s.sysMunmap pid addr length).2
  | .mremap pid oldAddr oldSize newSize => (s.sysMremap pid oldAddr oldSize newSize).map Prod.snd
  | .shmat pid shmid addr => (s.sysShmat pid shmid addr).map Prod.snd

end MemCalls
