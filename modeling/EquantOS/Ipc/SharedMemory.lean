import Mathlib.Data.Set.Card
import EquantOS.Lib.AssocMap

/-!
# Shared memory segments

The segments of `ipc/shm.c`, and the calls of any processes that make, attach, detach and remove them
or change the address space that they are attached to: `munmap`, `fork`, `execve` and the end of a
process.  A page of an address space has a frame of its own, or a frame of a segment.  The frames of
segments are numbered in the order of their allocation, so that a frame that is given back and
allocated again has a new number.
-/

open Function List

namespace SharedMemory

open Function List Nat Set

/-- `SHM_MAX_SEGMENTS`. -/
def maxSegments : ℕ := 32

/-- `SHM_MAX_SIZE`. -/
def maxSize : ℕ := 64 * 1024 * 1024

/-- `SHM_VIRT_BASE`. -/
def virtBase : ℕ := 0x600000000000

/-- The pages of the user half of an address space. -/
def userPages : ℕ := 2 ^ 35

/-- What a page is mapped to. -/
inductive Page where
  | own
  | shm (frame : ℕ)
deriving DecidableEq

/-- `shm_segment_t`, without what only `IPC_STAT` reports. -/
structure Segment where
  active : Bool
  marked : Bool
  key : ℕ
  shmid : ℕ
  pages : List ℕ
  nattch : ℕ
deriving DecidableEq

/-- The table of segments, the processes and their address spaces, how often each frame was given
back, and for the record the segments that are gone and the identifiers that were removed. -/
structure Sys where
  slots : ℕ → Segment
  nextShmid : ℕ
  nextVirt : ℕ
  nextFrame : ℕ
  live : ℕ → Bool
  space : ℕ → List (ℕ × Page)
  kernel : ℕ → Option Page
  returned : ℕ → ℕ
  past : List Segment
  removed : List ℕ

open Sys

inductive Result where
  | einval
  | eexist
  | enoent
  | enospc
  | enomem
  | value (n : ℕ)
deriving DecidableEq

/-- The calls of the processes.  `memOk` says whether all the memory of the call can be allocated;
`image` has the pages of the new program. -/
inductive Act where
  | shmget (pid key size : ℕ) (excl creat memOk : Bool)
  | shmat (pid shmid addr : ℕ)
  | shmdt (pid addr : ℕ)
  | rmid (pid shmid : ℕ)
  | munmap (pid addr length : ℕ)
  | fork (pid child : ℕ) (memOk : Bool)
  | execve (pid : ℕ) (memOk : Bool) (image : List ℕ)
  | exit (pid : ℕ)

namespace Sys

/-- No segments; the processes have pages of their own. -/
def boot (live : ℕ → Bool) (pages : ℕ → List ℕ) (kernel : ℕ → Option Page) : Sys where
  slots _ := ⟨false, false, 0, 0, [], 0⟩
  nextShmid := 1
  nextVirt := virtBase
  nextFrame := 0
  live := live
  space pid := (pages pid).map (·, .own)
  kernel := kernel
  returned _ := 0
  past := []
  removed := []

/-- What a page is mapped to; the upper half of the tables is the kernel's. -/
def lookup (s : Sys) (pid page : ℕ) : Option Page :=
  if page % 2 ^ 36 < userPages then (s.space pid).lookup (page % 2 ^ 36) else s.kernel (page % 2 ^ 36)

/-- `vmm_map` and `vmm_unmap`. -/
def setPage (s : Sys) (pid page : ℕ) (e : Option Page) : Sys :=
  if page % 2 ^ 36 < userPages then
    { s with
      space := update s.space pid (match e with
        | some e => AssocMap.put (page % 2 ^ 36) e (s.space pid)
        | none => AssocMap.erase (page % 2 ^ 36) (s.space pid)) }
  else { s with kernel := update s.kernel (page % 2 ^ 36) e }

/-- `pmm_free` of the frames of a segment. -/
def giveBack (s : Sys) (frames : List ℕ) : Sys :=
  { s with returned := fun f => s.returned f + frames.count f }

/-- The slot of the first active segment with a property. -/
def find (s : Sys) (p : Segment → Bool) : Option ℕ :=
  (range maxSegments).find? fun i => (s.slots i).active && p (s.slots i)

def setSlot (s : Sys) (i : ℕ) (seg : Segment) : Sys := { s with slots := update s.slots i seg }

/-- `sys_shmget_handler` after the search for the key. -/
def shmgetNew (s : Sys) (key size : ℕ) (memOk : Bool) : Sys × Result :=
  match (range maxSegments).find? fun i => !(s.slots i).active with
  | none => (s, .enospc)
  | some i =>
    if !memOk then (s, .enomem)
    else
      let n := (size + 4095) / 4096
      ({ s.setSlot i ⟨true, false, key % 2 ^ 32, s.nextShmid, range' s.nextFrame n, 0⟩ with
          nextShmid := (s.nextShmid + 1) % 2 ^ 32, nextFrame := s.nextFrame + n }, .value s.nextShmid)

def sysShmget (s : Sys) (key size : ℕ) (excl creat memOk : Bool) : Sys × Result :=
  if size = 0 ∨ maxSize < size then (s, .einval)
  else if key ≠ 0 then
    match s.find fun seg => seg.key = key % 2 ^ 32 with
    | some i => if excl then (s, .eexist) else (s, .value (s.slots i).shmid)
    | none => if !creat then (s, .enoent) else s.shmgetNew key size memOk
  else s.shmgetNew key size memOk

/-- The loop of `sys_shmat_handler`. -/
def mapFrames (pid : ℕ) : ℕ → List ℕ → Sys → Sys
  | _, [], s => s
  | page, f :: frames, s => mapFrames pid (page + 1) frames (s.setPage pid page (some (.shm f)))

def sysShmat (s : Sys) (pid shmid addr : ℕ) : Sys × Result :=
  match s.find fun seg => seg.shmid = shmid with
  | none => (s, .einval)
  | some i =>
    let seg := s.slots i
    let vaddr := if addr = 0 then s.nextVirt else addr
    let next := if addr = 0 then (s.nextVirt + seg.pages.length * 4096) % 2 ^ 64 else s.nextVirt
    ((mapFrames pid (vaddr / 4096) seg.pages { s with nextVirt := next }).setSlot i
      { seg with nattch := (seg.nattch + 1) % 2 ^ 32 }, .value vaddr)

/-- The frames of a segment are given back and its slot is free. -/
def destroy (s : Sys) (i : ℕ) : Sys :=
  { (s.giveBack (s.slots i).pages).setSlot i { s.slots i with active := false } with
    past := s.slots i :: s.past }

/-- The loop of `sys_shmdt_handler`. -/
def unmapPages (pid : ℕ) : ℕ → ℕ → Sys → Sys
  | _, 0, s => s
  | page, n + 1, s => unmapPages pid (page + 1) n (s.setPage pid page none)

def sysShmdt (s : Sys) (pid addr : ℕ) : Sys × Result :=
  if addr = 0 ∨ addr % 4096 ≠ 0 then (s, .einval)
  else
    match s.find fun seg =>
        match seg.pages with
        | [] => false
        | f :: _ => s.lookup pid (addr / 4096) = some (.shm f) with
    | none => (s, .einval)
    | some i =>
      let s := unmapPages pid (addr / 4096) (s.slots i).pages.length s
      let s := s.setSlot i { s.slots i with nattch := (s.slots i).nattch - 1 }
      if (s.slots i).marked && (s.slots i).nattch = 0 then (s.destroy i, .value 0) else (s, .value 0)

/-- `sys_shmctl_handler` with `IPC_RMID`. -/
def sysRmid (s : Sys) (shmid : ℕ) : Sys × Result :=
  match s.find fun seg => seg.shmid = shmid with
  | none => (s, .einval)
  | some i =>
    let s := { s with removed := shmid :: s.removed }
    if (s.slots i).nattch = 0 then (s.destroy i, .value 0)
    else (s.setSlot i { s.slots i with marked := true }, .value 0)

/-- A round of the loop of `sys_munmap_handler`: the frame of the page is freed, whose ever it is. -/
def munmapPage (s : Sys) (pid page : ℕ) : Sys :=
  match s.lookup pid page with
  | none => s
  | some .own => s.setPage pid page none
  | some (.shm f) => (s.giveBack [f]).setPage pid page none

/-- The loop of `sys_munmap_handler`. -/
def munmapPages (pid : ℕ) : ℕ → ℕ → Sys → Sys
  | _, 0, s => s
  | page, n + 1, s => munmapPages pid (page + 1) n (s.munmapPage pid page)

def sysMunmap (s : Sys) (pid addr length : ℕ) : Sys × Result :=
  if length = 0 ∨ addr % 4096 ≠ 0 then (s, .einval)
  else (munmapPages pid (addr / 4096) ((length + 4095) % 2 ^ 64 / 4096) s, .value 0)

/-- `vmm_destroy_address_space`, and the pages that the process has after it. -/
def replaceSpace (s : Sys) (pid : ℕ) (pages : List (ℕ × Page)) : Sys :=
  { s.giveBack ((s.space pid).filterMap fun e => match e.2 with
      | .own => none
      | .shm f => some f) with
    space := update s.space pid pages }

/-- `fork`: `vmm_clone_address_space` copies every page to a frame of its own. -/
def sysFork (s : Sys) (pid child : ℕ) (memOk : Bool) : Sys × Result :=
  if s.live child then (s, .einval)
  else if !memOk then (s, .enomem)
  else
    ({ s with
        live := update s.live child true
        space := update s.space child ((s.space pid).map fun e => (e.1, .own)) },
      .value child)

/-- A call of a process that lives. -/
def call (s : Sys) : Act → Sys × Result
  | .shmget pid key size excl creat memOk =>
    if s.live pid then s.sysShmget key size excl creat memOk else (s, .einval)
  | .shmat pid shmid addr => if s.live pid then s.sysShmat pid shmid addr else (s, .einval)
  | .shmdt pid addr => if s.live pid then s.sysShmdt pid addr else (s, .einval)
  | .rmid pid shmid => if s.live pid then s.sysRmid shmid else (s, .einval)
  | .munmap pid addr length => if s.live pid then s.sysMunmap pid addr length else (s, .einval)
  | .fork pid child memOk => if s.live pid then s.sysFork pid child memOk else (s, .einval)
  | .execve pid memOk image =>
    if s.live pid then
      if memOk then (s.replaceSpace pid (image.map (·, .own)), .value 0) else (s, .enomem)
    else (s, .einval)
  | .exit pid =>
    if s.live pid then
      ({ s.replaceSpace pid [] with live := update s.live pid false }, .value 0)
    else (s, .einval)

def step (s : Sys) (a : Act) : Sys := (s.call a).1

def run (s : Sys) (acts : List Act) : Sys := acts.foldl step s

end Sys

/-! ### The life of a segment -/

/-- The frames of a segment are mapped by a process, from a page on. -/
def Attached (s : Sys) (frames : List ℕ) (place : ℕ × ℕ) : Prop :=
  ∀ k f, frames[k]? = some f → (s.space place.1).lookup (place.2 + k) = some (.shm f)

/-- A segment that has been removed is marked, and it is there only while it is attached. -/
def Used (s : Sys) : Prop :=
  ∀ i, (s.slots i).active → (s.slots i).shmid ∈ s.removed →
    (s.slots i).marked ∧ (s.slots i).nattch ≠ 0

/-- The count of a segment is the number of its attachments.  Its frames are not given back while it is
there, and it is there until it has been removed and is not attached.  The frames of a segment that is
gone were given back once, when it had been removed and was not attached. -/
structure Sound (s : Sys) : Prop where
  count {i : ℕ} : (s.slots i).active →
    {a | Attached s (s.slots i).pages a}.encard = (s.slots i).nattch
  kept {i f : ℕ} : (s.slots i).active → f ∈ (s.slots i).pages → s.returned f = 0
  past {seg : Segment} : seg ∈ s.past → seg.shmid ∈ s.removed ∧ seg.nattch = 0 ∧
    ∀ f ∈ seg.pages, s.returned f = 1
  used : Used s

/-- The pages are in the user half, and none of them is of a segment. -/
def Clear (s : Sys) (pid page n : ℕ) : Prop :=
  page + n ≤ userPages ∧ ∀ k < n, ∀ f, (s.space pid).lookup (page + k) ≠ some (.shm f)

/-- A segment is attached to pages that are of no segment; what is unmapped, and what a process gives up
when it executes a program or ends, has no page of a segment.  `next_shmid` does not overflow. -/
def Orderly (s : Sys) : Act → Prop
  | .shmget .. => s.nextShmid + 1 < 2 ^ 31
  | .shmat pid shmid addr => ∀ i, (s.slots i).active → (s.slots i).shmid = shmid →
    Clear s pid ((if addr = 0 then s.nextVirt else addr) / 4096) (s.slots i).pages.length ∧
      (s.slots i).nattch + 1 < 2 ^ 32
  | .shmdt _ addr => addr < 2 ^ 47
  | .munmap pid addr length => Clear s pid (addr / 4096) ((length + 4095) % 2 ^ 64 / 4096)
  | .execve pid memOk _ => memOk → ∀ e ∈ s.space pid, e.2 = .own
  | .exit pid => ∀ e ∈ s.space pid, e.2 = .own
  | _ => True

def OrderlyRun : Sys → List Act → Prop
  | _, [] => True
  | s, a :: acts => Orderly s a ∧ OrderlyRun (s.step a) acts

/-- What the calls keep, besides that a segment that has been removed is used. -/
structure Inv (s : Sys) : Prop where
  count {i : ℕ} : (s.slots i).active →
    {a | Attached s (s.slots i).pages a}.encard = (s.slots i).nattch
  kept {i f : ℕ} : (s.slots i).active → f ∈ (s.slots i).pages → s.returned f = 0
  past {seg : Segment} : seg ∈ s.past → seg.shmid ∈ s.removed ∧ seg.nattch = 0 ∧
    ∀ f ∈ seg.pages, s.returned f = 1
  gone {seg : Segment} {f : ℕ} : seg ∈ s.past → f ∈ seg.pages →
    f < s.nextFrame ∧ ∀ i, (s.slots i).active → f ∉ (s.slots i).pages
  ne_nil {i : ℕ} : (s.slots i).active → (s.slots i).pages ≠ []
  nodup {i : ℕ} : (s.slots i).active → (s.slots i).pages.Nodup
  lt_next {i f : ℕ} : (s.slots i).active → f ∈ (s.slots i).pages → f < s.nextFrame
  apart {i j f : ℕ} : (s.slots i).active → (s.slots j).active → f ∈ (s.slots i).pages →
    f ∈ (s.slots j).pages → i = j
  fresh {f : ℕ} : s.nextFrame ≤ f → s.returned f = 0
  shmid_lt {i : ℕ} : (s.slots i).active → (s.slots i).shmid < s.nextShmid
  shmid_inj {i j : ℕ} : (s.slots i).active → (s.slots j).active →
    (s.slots i).shmid = (s.slots j).shmid → i = j
  removed_lt {id : ℕ} : id ∈ s.removed → id < s.nextShmid
  marked {i : ℕ} : (s.slots i).active → (s.slots i).marked → (s.slots i).shmid ∈ s.removed
  mapped {pid page f : ℕ} : (s.space pid).lookup page = some (.shm f) → page < userPages ∧
    ∃ i k, (s.slots i).active ∧ (s.slots i).pages[k]? = some f ∧ k ≤ page ∧
      Attached s (s.slots i).pages (pid, page - k)

lemma Inv.sound {s : Sys} (h : Inv s) (hused : Used s) : Sound s
  := ⟨h.count, h.kept, h.past, hused⟩

variable {s s' : Sys} {f i k n page pid : ℕ} {frames : List ℕ}

/-- What the calls keep. -/
structure Good (s : Sys) : Prop extends Inv s where
  used : Used s
  dead {pid page f : ℕ} : s.live pid = false → (s.space pid).lookup page ≠ some (.shm f)

/-! ### The address spaces -/

/-- The address spaces have the same pages of segments. -/
def SameShm (s s' : Sys) : Prop :=
  ∀ pid page f, (s'.space pid).lookup page = some (.shm f) ↔ (s.space pid).lookup page = some (.shm f)

lemma SameShm.attached (h : SameShm s s') {place : ℕ × ℕ} :
  Attached s' frames place ↔ Attached s frames place
  := forall_congr' fun _ => forall_congr' fun _ => imp_congr_right fun _ => h ..

/-- Nothing changes but the processes, their pages, the kernel's pages and the next address. -/
structure Elsewhere (s s' : Sys) : Prop where
  slots : s'.slots = s.slots
  nextShmid : s'.nextShmid = s.nextShmid
  nextFrame : s'.nextFrame = s.nextFrame
  returned : s'.returned = s.returned
  past : s'.past = s.past
  removed : s'.removed = s.removed

lemma Elsewhere.trans {s'' : Sys} (h : Elsewhere s s') (h' : Elsewhere s' s'') : Elsewhere s s''
  := ⟨h'.slots.trans h.slots, h'.nextShmid.trans h.nextShmid, h'.nextFrame.trans h.nextFrame,
    h'.returned.trans h.returned, h'.past.trans h.past, h'.removed.trans h.removed⟩

lemma Elsewhere.used (h : Elsewhere s s') (hused : Used s) : Used s'
  := by
  intro i
  rw [h.slots, h.removed]
  exact hused i

lemma Inv.elsewhere (h : Inv s) (he : Elsewhere s s') (hsame : SameShm s s') : Inv s'
  := by
  obtain ⟨hslots, hshmid, hframe, hreturned, hpast, hremoved⟩ := he
  constructor <;> simp only [hslots, hshmid, hframe, hreturned, hpast, hremoved, hsame.attached,
    hsame _ _ _]
  · exact h.count
  · exact h.kept
  · exact h.past
  · exact h.gone
  · exact h.ne_nil
  · exact h.nodup
  · exact h.lt_next
  · exact h.apart
  · exact h.fresh
  · exact h.shmid_lt
  · exact h.shmid_inj
  · exact h.removed_lt
  · exact h.marked
  · exact h.mapped

lemma Good.elsewhere (h : Good s) (he : Elsewhere s s') (hsame : SameShm s s')
    (hlive : ∀ pid, s'.live pid = false → s.live pid = false ∨
      ∀ page f, (s.space pid).lookup page ≠ some (.shm f)) :
  Good s'
  := by
  refine ⟨h.toInv.elsewhere he hsame, he.used h.used, fun {pid page f} hdead hf => ?_⟩
  rw [hsame] at hf
  obtain hdead | hown := hlive pid hdead
  · exact h.dead hdead hf
  · exact hown page f hf

lemma elsewhere_setPage (s : Sys) (pid page : ℕ) (e : Option Page) :
  Elsewhere s (s.setPage pid page e)
  := by
  unfold setPage
  split
  · exact ⟨rfl, rfl, rfl, rfl, rfl, rfl⟩
  · exact ⟨rfl, rfl, rfl, rfl, rfl, rfl⟩

lemma live_setPage (s : Sys) (pid page : ℕ) (e : Option Page) : (s.setPage pid page e).live = s.live
  := by
  unfold setPage
  split
  · rfl
  · rfl

lemma mod_userPages (hpage : page < userPages) : page % 2 ^ 36 = page
  := by
  unfold userPages at hpage
  exact mod_eq_of_lt (by omega)

lemma lookup_user (hpage : page < userPages) (pid : ℕ) : s.lookup pid page = (s.space pid).lookup page
  := by
  rw [Sys.lookup, mod_userPages hpage, if_pos hpage]

lemma lookup_setPage (hpage : page < userPages) (pid : ℕ) (e : Option Page)
    (pid' page' : ℕ) :
  ((s.setPage pid page e).space pid').lookup page'
    = if pid' = pid ∧ page' = page then e else (s.space pid').lookup page'
  := by
  unfold setPage
  rw [mod_userPages hpage, if_pos hpage]
  by_cases hpid : pid' = pid
  · subst hpid
    simp only [update_self, true_and]
    cases e with
    | none => exact AssocMap.lookup_erase ..
    | some e => exact AssocMap.lookup_put ..
  · simp only [update_of_ne hpid, hpid, false_and, if_false]

/-- The pages from a page on. -/
def InRange (pid page n pid' page' : ℕ) : Prop := pid' = pid ∧ page ≤ page' ∧ page' < page + n

lemma inRange_succ {pid' page' : ℕ} :
  InRange pid page (n + 1) pid' page' ↔ pid' = pid ∧ page' = page ∨ InRange pid (page + 1) n pid' page'
  := by
  unfold InRange
  omega

lemma mapFrames_spec (pid : ℕ)
    (hpages : page + frames.length ≤ userPages) :
  (Elsewhere s (mapFrames pid page frames s) ∧
      (mapFrames pid page frames s).live = s.live) ∧
    (∀ pid' page', ¬ InRange pid page frames.length pid' page' →
      ((mapFrames pid page frames s).space pid').lookup page' = (s.space pid').lookup page') ∧
    ∀ k f, frames[k]? = some f →
      ((mapFrames pid page frames s).space pid).lookup (page + k) = some (.shm f)
  := by
  induction frames generalizing page s with
  | nil =>
    exact ⟨⟨⟨rfl, rfl, rfl, rfl, rfl, rfl⟩, rfl⟩, fun _ _ _ => rfl, fun k f hk => absurd hk (by simp)⟩
  | cons f frames ih =>
    rw [length_cons] at hpages
    have hset := @lookup_setPage s page (by omega) pid (some (.shm f))
    obtain ⟨⟨helse, hlive⟩, hout, hin⟩ := @ih (s.setPage pid page (some (.shm f))) (page + 1)
      (by omega)
    refine ⟨⟨(elsewhere_setPage ..).trans helse, hlive.trans (live_setPage ..)⟩,
      fun pid' page' hrange => ?_, fun k g hk => ?_⟩
    · rw [length_cons, inRange_succ, not_or] at hrange
      rw [mapFrames, hout _ _ hrange.2, hset, if_neg hrange.1]
    cases k with
    | zero =>
      obtain rfl : f = g := by simpa using hk
      rw [mapFrames, hout _ _ (by unfold InRange; omega), hset, if_pos ⟨rfl, rfl⟩]
    | succ k =>
      rw [← hin k g (by simpa using hk)]
      congr 1
      omega

lemma unmapPages_spec (pid : ℕ) (hpages : page + n ≤ userPages) :
  (Elsewhere s (unmapPages pid page n s) ∧ (unmapPages pid page n s).live = s.live) ∧
    ∀ pid' page',
    (¬ InRange pid page n pid' page' →
      ((unmapPages pid page n s).space pid').lookup page' = (s.space pid').lookup page') ∧
    (InRange pid page n pid' page' →
      ((unmapPages pid page n s).space pid').lookup page' = none)
  := by
  induction n generalizing page s with
  | zero =>
    refine ⟨⟨⟨rfl, rfl, rfl, rfl, rfl, rfl⟩, rfl⟩, fun _ _ => ⟨fun _ => rfl, fun hrange => ?_⟩⟩
    exact absurd hrange (by unfold InRange; omega)
  | succ n ih =>
    have hset := @lookup_setPage s page (by omega) pid none
    obtain ⟨⟨helse, hlive⟩, hspec⟩ := @ih (s.setPage pid page none) (page + 1) (by omega)
    refine ⟨⟨(elsewhere_setPage ..).trans helse, hlive.trans (live_setPage ..)⟩,
      fun pid' page' => ⟨fun hrange => ?_, fun hrange => ?_⟩⟩
    · rw [inRange_succ, not_or] at hrange
      rw [unmapPages, (hspec _ _).1 hrange.2, hset, if_neg hrange.1]
    · rw [unmapPages]
      obtain hat | hrange := inRange_succ.mp hrange
      · rw [(hspec _ _).1 (by unfold InRange; omega), hset, if_pos hat]
      · exact (hspec _ _).2 hrange

lemma munmapPage_spec (pid : ℕ) (hpage : page < userPages)
    (h : ∀ f, (s.space pid).lookup page ≠ some (.shm f)) :
  Elsewhere s (s.munmapPage pid page) ∧ SameShm s (s.munmapPage pid page) ∧
    (s.munmapPage pid page).live = s.live
  := by
  have hlookup : s.lookup pid page = (s.space pid).lookup page := lookup_user hpage pid
  unfold munmapPage
  split
  · exact ⟨⟨rfl, rfl, rfl, rfl, rfl, rfl⟩, fun _ _ _ => Iff.rfl, rfl⟩
  · next hown =>
    refine ⟨elsewhere_setPage .., fun pid' page' f => ?_, live_setPage ..⟩
    rw [lookup_setPage hpage]
    split_ifs with hat
    · rw [hat.1, hat.2, ← hlookup, hown]
      simp
    · rfl
  · next f hshm => exact absurd (hlookup ▸ hshm) (h f)

/-- Pages that are of no segment are unmapped, and no page of a segment is touched. -/
lemma munmapPages_spec (pid : ℕ) (h : Clear s pid page n) :
  Elsewhere s (munmapPages pid page n s) ∧ SameShm s (munmapPages pid page n s) ∧
    (munmapPages pid page n s).live = s.live
  := by
  induction n generalizing page s with
  | zero => exact ⟨⟨rfl, rfl, rfl, rfl, rfl, rfl⟩, fun _ _ _ => Iff.rfl, rfl⟩
  | succ n ih =>
    obtain ⟨hpages, hclear⟩ := h
    obtain ⟨helse, hsame, hlive⟩ := @munmapPage_spec s page pid (by omega) (hclear 0 (by omega))
    have hnext : Clear (s.munmapPage pid page) pid (page + 1) n := by
      refine ⟨by omega, fun k hk f hf => hclear (k + 1) (by omega) f ?_⟩
      rw [hsame, add_assoc, add_comm 1] at hf
      exact hf
    obtain ⟨helse', hsame', hlive'⟩ := ih hnext
    exact ⟨helse.trans helse', fun pid' page' f => (hsame' ..).trans (hsame ..), hlive'.trans hlive⟩

/-- A process without pages of segments gets another address space without them. -/
lemma replaceSpace_spec (pages : List (ℕ × Page)) (hold : ∀ e ∈ s.space pid, e.2 = .own)
    (hnew : ∀ e ∈ pages, e.2 = .own) :
  Elsewhere s (s.replaceSpace pid pages) ∧ SameShm s (s.replaceSpace pid pages)
  := by
  have hnone : (s.space pid).filterMap (fun e => match e.2 with
      | .own => none
      | .shm f => some f) = [] := by
    rw [filterMap_eq_nil_iff]
    intro e he
    rw [hold e he]
  have hown : ∀ {l : List (ℕ × Page)}, (∀ e ∈ l, e.2 = .own) → ∀ page f,
      l.lookup page ≠ some (.shm f) :=
    fun hl page f hf => absurd (hl _ (AssocMap.mem_of_lookup hf)) nofun
  refine ⟨⟨rfl, rfl, rfl, ?_, rfl, rfl⟩, fun pid' page f => ?_⟩
  · simp [replaceSpace, giveBack, hnone]
  · simp only [replaceSpace]
    by_cases hpid : pid' = pid
    · rw [hpid, update_self]
      exact iff_of_false (hown hnew page f) (hown hold page f)
    · rw [update_of_ne hpid]

/-! ### The calls -/

lemma find_spec {p : Segment → Bool} (h : s.find p = some i) :
  (s.slots i).active ∧ p (s.slots i)
  := by
  simpa using find?_some h

/-- An attached segment is in the user half. -/
lemma Inv.attached_le (h : Inv s) (hi : (s.slots i).active)
    (ha : Attached s (s.slots i).pages (pid, page)) :
  page + (s.slots i).pages.length ≤ userPages
  := by
  have hpos := length_pos_iff.mpr (h.ne_nil hi)
  obtain ⟨f, hf⟩ : ∃ f, (s.slots i).pages[(s.slots i).pages.length - 1]? = some f :=
    ⟨_, getElem?_eq_getElem (by omega)⟩
  have := (h.mapped (ha _ f hf)).1
  omega

lemma getElem?_inj_of_nodup {l : List ℕ} (h : l.Nodup) {k' : ℕ} (hk : l[k]? = some f)
    (hk' : l[k']? = some f) :
  k = k'
  := by
  obtain ⟨hlt, -⟩ := List.getElem?_eq_some_iff.mp hk
  exact (getElem?_inj hlt h).mp (hk.trans hk'.symm)

/-- A page with a frame of a segment is at the frame's place in the one attachment that it is in. -/
lemma Inv.attached_of_mapped (h : Inv s) (hi : (s.slots i).active)
    (hk : (s.slots i).pages[k]? = some f) (hf : (s.space pid).lookup page = some (.shm f)) :
  k ≤ page ∧ Attached s (s.slots i).pages (pid, page - k)
  := by
  obtain ⟨-, j, k', hj, hk', hle, ha⟩ := h.mapped hf
  obtain rfl := h.apart hi hj (mem_of_getElem? hk) (mem_of_getElem? hk')
  obtain rfl := getElem?_inj_of_nodup (h.nodup hi) hk hk'
  exact ⟨hle, ha⟩

lemma exists_head (h : frames ≠ []) : ∃ f, frames[0]? = some f
  := ⟨_, getElem?_eq_getElem (length_pos_iff.mpr h)⟩

/-- A segment with no attachment has no frame that is mapped. -/
lemma Inv.not_mapped (h : Inv s) (hi : (s.slots i).active) (hzero : (s.slots i).nattch = 0)
    (hf : f ∈ (s.slots i).pages) :
  (s.space pid).lookup page ≠ some (.shm f)
  := by
  intro hmapped
  obtain ⟨k, hk⟩ := mem_iff_getElem?.mp hf
  have hcount := h.count hi
  rw [hzero, cast_zero, encard_eq_zero] at hcount
  exact eq_empty_iff_forall_notMem.mp hcount _ (h.attached_of_mapped hi hk hmapped).2

/-- A segment that has been removed and is not attached is destroyed. -/
lemma Inv.destroy (h : Inv s) (hi : (s.slots i).active) (hzero : (s.slots i).nattch = 0)
    (hremoved : (s.slots i).shmid ∈ s.removed) :
  Inv (s.destroy i)
  := by
  have hslot : ∀ j, (((s.destroy i).slots j).active ↔ j ≠ i ∧ (s.slots j).active) ∧
      ((s.destroy i).slots j).pages = (s.slots j).pages ∧ ((s.destroy i).slots j).shmid = (s.slots j).shmid ∧
      ((s.destroy i).slots j).marked = (s.slots j).marked ∧
      ((s.destroy i).slots j).nattch = (s.slots j).nattch := by
    intro j
    simp only [Sys.destroy, setSlot, giveBack]
    by_cases hji : j = i
    · subst hji
      simp
    · simp [hji]
  have hreturned : ∀ f, (s.destroy i).returned f = s.returned f + (s.slots i).pages.count f :=
    fun _ => rfl
  have hattached : ∀ frames a, Attached (s.destroy i) frames a ↔ Attached s frames a := fun _ _ => Iff.rfl
  constructor <;> try simp only [(hslot _).1, (hslot _).2.1, (hslot _).2.2.1, (hslot _).2.2.2.1,
    (hslot _).2.2.2.2, hreturned, hattached]
  · exact fun hj => h.count hj.2
  · intro j f hj hf
    rw [h.kept hj.2 hf, count_eq_zero.mpr fun hmem => hj.1 (h.apart hj.2 hi hf hmem)]
  · intro seg hseg
    obtain _ | ⟨_, hseg⟩ := hseg
    · refine ⟨hremoved, hzero, fun f hf => ?_⟩
      rw [h.kept hi hf, count_eq_one_of_mem (h.nodup hi) hf]
    · obtain ⟨hrem, hnattch, hret⟩ := h.past hseg
      refine ⟨hrem, hnattch, fun f hf => ?_⟩
      rw [hret f hf, count_eq_zero.mpr ((h.gone hseg hf).2 i hi)]
  · intro seg f hseg hf
    obtain _ | ⟨_, hseg⟩ := hseg
    · exact ⟨h.lt_next hi hf, fun j hj hmem => hj.1 (h.apart hj.2 hi hmem hf)⟩
    · exact ⟨(h.gone hseg hf).1, fun j hj => (h.gone hseg hf).2 j hj.2⟩
  · exact fun hj => h.ne_nil hj.2
  · exact fun hj => h.nodup hj.2
  · exact fun hj => h.lt_next hj.2
  · exact fun hj hk => h.apart hj.2 hk.2
  · intro f hf
    rw [h.fresh hf, count_eq_zero.mpr fun hmem => absurd (h.lt_next hi hmem) (not_lt.mpr hf)]
  · exact fun hj => h.shmid_lt hj.2
  · exact fun hj hk => h.shmid_inj hj.2 hk.2
  · exact h.removed_lt
  · exact fun hj => h.marked hj.2
  · intro pid page f hf
    obtain ⟨hpage, j, k, hj, hk, hle, ha⟩ := h.mapped hf
    refine ⟨hpage, j, k, ⟨?_, hj⟩, hk, hle, ha⟩
    rintro rfl
    exact h.not_mapped hj hzero (mem_of_getElem? hk) hf

/-- The destroyed segment was the only one that was removed and not attached. -/
lemma used_destroy (h : ∀ j ≠ i, (s.slots j).active → (s.slots j).shmid ∈ s.removed →
    (s.slots j).marked ∧ (s.slots j).nattch ≠ 0) :
  Used (s.destroy i)
  := by
  intro j
  by_cases hji : j = i
  · subst hji
    simp [destroy, setSlot]
  · simp only [destroy, setSlot, update_of_ne hji]
    exact h j hji

/-- A segment is attached or detached, or is marked: another count, and the attachments that go with
it. -/
lemma Inv.recount (h : Inv s) (seg : Segment) (hi : (s.slots i).active)
    (helse : Elsewhere s s') (hactive : seg.active) (hpages : seg.pages = (s.slots i).pages)
    (hshmid : seg.shmid = (s.slots i).shmid) (hmarked : seg.marked → seg.shmid ∈ s.removed)
    (hcount : {a | Attached s' (s.slots i).pages a}.encard = seg.nattch)
    (hothers : ∀ j ≠ i, (s.slots j).active → ∀ a,
      Attached s' (s.slots j).pages a ↔ Attached s (s.slots j).pages a)
    (hmapped : ∀ {pid page f}, (s'.space pid).lookup page = some (.shm f) → page < userPages ∧
      ∃ i k, (s.slots i).active ∧ (s.slots i).pages[k]? = some f ∧ k ≤ page ∧
        Attached s' (s.slots i).pages (pid, page - k)) :
  Inv (s'.setSlot i seg)
  := by
  obtain ⟨hslots, hnext, hframe, hreturned, hpast, hremoved⟩ := helse
  have hslot : ∀ j, (((s'.setSlot i seg).slots j).active ↔ (s.slots j).active) ∧
      ((s'.setSlot i seg).slots j).pages = (s.slots j).pages ∧
      ((s'.setSlot i seg).slots j).shmid = (s.slots j).shmid := by
    intro j
    simp only [setSlot, hslots]
    by_cases hji : j = i
    · subst hji
      simp [hactive, hi, hpages, hshmid]
    · simp [update_of_ne hji]
  have hattached : ∀ frames a, Attached (s'.setSlot i seg) frames a ↔ Attached s' frames a :=
    fun _ _ => Iff.rfl
  constructor <;> try simp only [(hslot _).1, (hslot _).2.1, (hslot _).2.2, hattached]
  · intro j hj
    by_cases hji : j = i
    · subst hji
      simpa [setSlot] using hcount
    · simp only [setSlot, hslots, update_of_ne hji, hothers j hji hj]
      exact h.count hj
  · intro j f hj hf
    simp only [setSlot, hreturned]
    exact h.kept hj hf
  · simp only [setSlot, hreturned, hpast, hremoved]
    exact h.past
  · simp only [setSlot, hpast, hframe]
    exact h.gone
  · exact h.ne_nil
  · exact h.nodup
  · simp only [setSlot, hframe]
    exact h.lt_next
  · exact h.apart
  · simp only [setSlot, hframe, hreturned]
    exact h.fresh
  · simp only [setSlot, hnext]
    exact h.shmid_lt
  · exact h.shmid_inj
  · simp only [setSlot, hnext, hremoved]
    exact h.removed_lt
  · intro j hj
    by_cases hji : j = i
    · subst hji
      simpa [setSlot, hremoved, hshmid] using hmarked
    · simp only [setSlot, hslots, update_of_ne hji, hremoved]
      exact h.marked hj
  · exact hmapped

section Attach

variable {i pid page : ℕ}

section

variable (h : Inv s) (hi : (s.slots i).active) (hclear : Clear s pid page (s.slots i).pages.length)

include h hi hclear

/-- The frames of a segment are mapped to pages that are of no segment: the segment has one more
attachment, and the others are as they were. -/
lemma Inv.attach (hout : ∀ pid' page', ¬ InRange pid page (s.slots i).pages.length pid' page' →
      (s'.space pid').lookup page' = (s.space pid').lookup page')
    (hin : ∀ k f, (s.slots i).pages[k]? = some f → (s'.space pid).lookup (page + k) = some (.shm f))
    {j : ℕ} (hj : (s.slots j).active) (a : ℕ × ℕ) :
  Attached s' (s.slots j).pages a ↔ (j = i ∧ a = (pid, page)) ∨ Attached s (s.slots j).pages a
  := by
  have hold : ∀ {pid' page' f}, (s.space pid').lookup page' = some (.shm f) →
      (s'.space pid').lookup page' = some (.shm f) := by
    intro pid' page' f hf
    rw [hout _ _ _, hf]
    rintro ⟨rfl, hle, hlt⟩
    refine hclear.2 (page' - page) (by omega) f ?_
    rwa [Nat.add_sub_cancel' hle]
  refine ⟨fun ha => ?_, ?_⟩
  · by_cases hrange : ∃ k < (s.slots j).pages.length,
        InRange pid page (s.slots i).pages.length a.1 (a.2 + k)
    · obtain ⟨k, hk, hpid, hle, hlt⟩ := hrange
      -- the page is one of the new ones, so the frame is of this segment and at the same place
      have hat := ha k _ (getElem?_eq_getElem hk)
      have hnew := hin (a.2 + k - page) _ (getElem?_eq_getElem (by omega))
      rw [Nat.add_sub_cancel' hle, ← hpid, hat, Option.some.injEq, Page.shm.injEq] at hnew
      have hmem : (s.slots i).pages[a.2 + k - page]? = some (s.slots j).pages[k] := by
        rw [getElem?_eq_getElem (by omega), hnew]
      obtain rfl := h.apart hj hi (getElem_mem hk) (mem_of_getElem? hmem)
      have hkk := getElem?_inj_of_nodup (h.nodup hj) (getElem?_eq_getElem hk) hmem
      exact .inl ⟨rfl, Prod.ext hpid (by simp only; omega)⟩
    · refine .inr fun k f hk => ?_
      rw [← hout _ _ _, ha k f hk]
      obtain ⟨hlt, -⟩ := List.getElem?_eq_some_iff.mp hk
      exact fun hin => hrange ⟨k, hlt, hin⟩
  · rintro (⟨rfl, rfl⟩ | ha)
    · exact hin
    · exact fun k f hk => hold (ha k f hk)

lemma Inv.not_attached :
  ¬ Attached s (s.slots i).pages (pid, page)
  := by
  intro ha
  obtain ⟨f, hf⟩ := exists_head (h.ne_nil hi)
  exact hclear.2 0 (length_pos_iff.mpr (h.ne_nil hi)) f (ha 0 f hf)

end

lemma Good.sysShmat (h : Good s) {shmid addr : ℕ} (hlive : s.live pid)
    (ha : Orderly s (.shmat pid shmid addr)) :
  Good (s.sysShmat pid shmid addr).1
  := by
  unfold Sys.sysShmat
  split
  · exact h
  next i hfind =>
    obtain ⟨hi, hid⟩ := find_spec hfind
    obtain ⟨hclear, hlt⟩ := ha i hi (of_decide_eq_true hid)
    dsimp only
    generalize (if addr = 0 then s.nextVirt else addr) / 4096 = page at hclear ⊢
    generalize (if addr = 0 then (s.nextVirt + (s.slots i).pages.length * 4096) % 2 ^ 64
      else s.nextVirt) = next
    obtain ⟨⟨helse, hlive'⟩, hout, hin⟩ := @mapFrames_spec { s with nextVirt := next } page
      (s.slots i).pages pid hclear.1
    have hvirt : Elsewhere s { s with nextVirt := next } := ⟨rfl, rfl, rfl, rfl, rfl, rfl⟩
    have helse := hvirt.trans helse
    generalize mapFrames pid page (s.slots i).pages { s with nextVirt := next } = s'
      at helse hlive' hout hin ⊢
    have hattach := fun {j} => @Inv.attach s s' i pid page h.toInv hi hclear hout hin j
    have hnattch : (((s.slots i).nattch + 1) % 2 ^ 32 : ℕ) = (s.slots i).nattch + 1 :=
      mod_eq_of_lt hlt
    rw [hnattch]
    refine ⟨?_, ?_, ?_⟩
    · apply h.toInv.recount { s.slots i with nattch := (s.slots i).nattch + 1 } hi helse hi rfl rfl
        (h.marked hi)
      · have hset : {a | Attached s' (s.slots i).pages a}
            = insert (pid, page) {a | Attached s (s.slots i).pages a} := by
          ext a
          simp [hattach hi a]
        rw [hset, encard_insert_of_notMem (h.not_attached hi hclear), h.count hi, cast_add,
          cast_one]
      · intro j hji hj a
        simp [hattach hj a, hji]
      · intro pid' page' f hf
        by_cases hrange : InRange pid page (s.slots i).pages.length pid' page'
        · obtain ⟨rfl, hle, hlt⟩ := hrange
          have hat := hin (page' - page) _ (getElem?_eq_getElem (by omega))
          rw [Nat.add_sub_cancel' hle, hf, Option.some.injEq, Page.shm.injEq] at hat
          refine ⟨by have := hclear.1; omega, i, page' - page, hi, ?_, by omega, ?_⟩
          · rw [getElem?_eq_getElem (by omega), hat]
          · rw [Nat.sub_sub_self hle]
            exact hin
        · rw [hout _ _ hrange] at hf
          obtain ⟨hpage, j, k, hj, hk, hle, hj'⟩ := h.mapped hf
          exact ⟨hpage, j, k, hj, hk, hle, (hattach hj _).mpr (.inr hj')⟩
    · intro j
      have hused := h.used j
      simp only [setSlot, helse.slots, helse.removed]
      by_cases hji : j = i
      · subst hji
        rw [update_self]
        exact fun hj hrem => ⟨(hused hj hrem).1, succ_ne_zero _⟩
      · rwa [update_of_ne hji]
    · intro pid' page' f hdead hf
      change s'.live pid' = false at hdead
      change (s'.space pid').lookup page' = some (.shm f) at hf
      rw [hlive'] at hdead
      have hpid : pid' ≠ pid := by
        rintro rfl
        exact absurd (hlive.symm.trans hdead) nofun
      rw [hout _ _ fun hrange => hpid hrange.1] at hf
      exact h.dead hdead hf

/-- The pages of an attachment are unmapped: the segment has one attachment less, and the others are as
they were. -/
lemma Inv.detach (h : Inv s) (hi : (s.slots i).active) (hat : Attached s (s.slots i).pages (pid, page))
    (hspec : ∀ pid' page', (¬ InRange pid page (s.slots i).pages.length pid' page' →
        (s'.space pid').lookup page' = (s.space pid').lookup page') ∧
      (InRange pid page (s.slots i).pages.length pid' page' → (s'.space pid').lookup page' = none))
    {j : ℕ} (hj : (s.slots j).active) (a : ℕ × ℕ) :
  Attached s' (s.slots j).pages a ↔ Attached s (s.slots j).pages a ∧ ¬ (j = i ∧ a = (pid, page))
  := by
  have hback : ∀ {pid' page' f}, (s'.space pid').lookup page' = some (.shm f) →
      ¬ InRange pid page (s.slots i).pages.length pid' page' ∧
        (s.space pid').lookup page' = some (.shm f) := by
    intro pid' page' f hf
    by_cases hrange : InRange pid page (s.slots i).pages.length pid' page'
    · exact absurd ((hspec _ _).2 hrange ▸ hf) nofun
    · exact ⟨hrange, (hspec _ _).1 hrange ▸ hf⟩
  refine ⟨fun ha => ⟨fun k f hk => (hback (ha k f hk)).2, ?_⟩, fun ⟨ha, hne⟩ k f hk => ?_⟩
  · rintro ⟨rfl, rfl⟩
    obtain ⟨f, hf⟩ := exists_head (h.ne_nil hi)
    have hpos := length_pos_iff.mpr (h.ne_nil hi)
    exact (hback (ha 0 f hf)).1 ⟨rfl, by simp, by simp only; omega⟩
  · rw [(hspec _ _).1 _, ha k f hk]
    rintro ⟨hpid, hle, hlt⟩
    -- the page is in both attachments, so they are one
    have hmem := hat (a.2 + k - page) _ (getElem?_eq_getElem (by omega))
    simp only [Nat.add_sub_cancel' hle] at hmem
    rw [← hpid, ha k f hk, Option.some.injEq, Page.shm.injEq] at hmem
    have hk' : (s.slots i).pages[a.2 + k - page]? = some f := by
      rw [getElem?_eq_getElem (by omega), hmem]
    obtain rfl := h.apart hj hi (mem_of_getElem? hk) (mem_of_getElem? hk')
    have hkk := getElem?_inj_of_nodup (h.nodup hj) hk hk'
    exact hne ⟨rfl, Prod.ext hpid (by simp only; omega)⟩

lemma encard_diff_singleton_of_encard {α : Type} {A : Set α} {a : α} (ha : a ∈ A)
    (hn : A.encard = n) :
  n ≠ 0 ∧ (A \ {a}).encard = (n - 1 : ℕ)
  := by
  have hone := encard_sdiff_singleton_add_one ha
  rw [hn] at hone
  cases n with
  | zero => simp at hone
  | succ n =>
    refine ⟨succ_ne_zero n, ?_⟩
    exact ENat.add_left_injective_of_ne_top ENat.one_ne_top hone

lemma Good.sysShmdt (h : Good s) {addr : ℕ} (ha : Orderly s (.shmdt pid addr)) :
  Good (s.sysShmdt pid addr).1
  := by
  unfold Sys.sysShmdt
  split
  · exact h
  split
  · exact h
  next i hfind =>
    obtain ⟨hi, hfirst⟩ := find_spec hfind
    have hpage : addr / 4096 < userPages := by
      have haddr : addr < 2 ^ 47 := ha
      unfold userPages
      omega
    generalize addr / 4096 = page at hpage hfirst ⊢
    have hat : Attached s (s.slots i).pages (pid, page) := by
      split at hfirst
      · exact absurd hfirst nofun
      next f frames hframes =>
        have hlookup := of_decide_eq_true hfirst
        rw [lookup_user hpage] at hlookup
        exact (h.attached_of_mapped (k := 0) hi (by rw [hframes]; rfl) hlookup).2
    obtain ⟨⟨helse, hlive⟩, hspec⟩ := @unmapPages_spec s _ page pid (h.attached_le hi hat)
    have hdetach := fun {j} => @Inv.detach s _ i pid page h.toInv hi hat hspec j
    dsimp only
    generalize unmapPages pid page (s.slots i).pages.length s = s'
      at helse hlive hspec hdetach ⊢
    rw [helse.slots]
    have hcard := (encard_diff_singleton_of_encard hat (h.count hi)).2
    obtain ⟨seg, hseg⟩ : ∃ seg, seg = { s.slots i with nattch := (s.slots i).nattch - 1 } :=
      ⟨_, rfl⟩
    rw [← hseg]
    have hinv : Inv (s'.setSlot i seg) := by
      apply h.toInv.recount seg hi helse (hseg ▸ hi) (hseg ▸ rfl) (hseg ▸ rfl)
      · rw [hseg]
        exact h.marked hi
      · have hset : {a | Attached s' (s.slots i).pages a}
            = {a | Attached s (s.slots i).pages a} \ {(pid, page)} := by
          ext a
          simp [hdetach hi a]
        rw [hset, hcard, hseg]
      · intro j hji hj a
        simp [hdetach hj a, hji]
      · intro pid' page' f hf
        have hout : ¬ InRange pid page (s.slots i).pages.length pid' page' := fun hrange =>
          absurd ((hspec _ _).2 hrange ▸ hf) nofun
        rw [(hspec _ _).1 hout] at hf
        obtain ⟨hpage', j, k, hj, hk, hle, hj'⟩ := h.mapped hf
        refine ⟨hpage', j, k, hj, hk, hle, (hdetach hj _).mpr ⟨hj', ?_⟩⟩
        rintro ⟨rfl, heq⟩
        rw [Prod.mk.injEq] at heq
        obtain ⟨hlt, -⟩ := List.getElem?_eq_some_iff.mp hk
        exact hout ⟨heq.1, by omega, by omega⟩
    have hslot : (s'.setSlot i seg).slots i = seg := Function.update_self ..
    have hothers : ∀ j ≠ i, ((s'.setSlot i seg).slots j).active →
        ((s'.setSlot i seg).slots j).shmid ∈ s'.removed →
        ((s'.setSlot i seg).slots j).marked ∧ ((s'.setSlot i seg).slots j).nattch ≠ 0 := by
      intro j hji
      simp only [setSlot, Function.update_of_ne hji, helse.slots, helse.removed]
      exact h.used j
    have hdead : ∀ {pid' page' f}, s'.live pid' = false →
        (s'.space pid').lookup page' ≠ some (.shm f) := by
      intro pid' page' f hdead hf
      have hout : ¬ InRange pid page (s.slots i).pages.length pid' page' := fun hrange =>
        absurd ((hspec _ _).2 hrange ▸ hf) nofun
      rw [(hspec _ _).1 hout] at hf
      exact h.dead (hlive ▸ hdead) hf
    split
    · next hlast =>
      rw [hslot, Bool.and_eq_true, decide_eq_true_eq] at hlast
      refine ⟨hinv.destroy ?_ ?_ ?_, used_destroy hothers, hdead⟩
      · rw [hslot, hseg]
        exact hi
      · rw [hslot]
        exact hlast.2
      · exact hinv.marked (by rw [hslot, hseg]; exact hi) (by rw [hslot]; exact hlast.1)
    · next hlast =>
      refine ⟨hinv, fun j hj hrem => ?_, hdead⟩
      by_cases hji : j = i
      · subst hji
        rw [hslot, Bool.and_eq_true, decide_eq_true_eq] at hlast
        rw [hslot] at hrem ⊢
        have hmarked : seg.marked := by
          rw [hseg] at hrem ⊢
          exact (h.used j hi (helse.removed ▸ hrem)).1
        exact ⟨hmarked, fun hzero => hlast ⟨hmarked, hzero⟩⟩
      · exact hothers j hji hj hrem

end Attach

/-- An identifier is removed. -/
lemma Inv.remove (h : Inv s) {id : ℕ} (hid : id < s.nextShmid) :
  Inv { s with removed := id :: s.removed }
  where
  count := h.count
  kept := h.kept
  past hseg := ⟨mem_cons_of_mem _ (h.past hseg).1, (h.past hseg).2⟩
  gone := h.gone
  ne_nil := h.ne_nil
  nodup := h.nodup
  lt_next := h.lt_next
  apart := h.apart
  fresh := h.fresh
  shmid_lt := h.shmid_lt
  shmid_inj := h.shmid_inj
  removed_lt {id'} hid' := by
    obtain _ | ⟨_, hid'⟩ := hid'
    · exact hid
    · exact h.removed_lt hid'
  marked hi hmarked := mem_cons_of_mem _ (h.marked hi hmarked)
  mapped := h.mapped

lemma Good.sysRmid (h : Good s) (shmid : ℕ) : Good (s.sysRmid shmid).1
  := by
  unfold Sys.sysRmid
  split
  · exact h
  next i hfind =>
    obtain ⟨hi, hid⟩ := find_spec hfind
    obtain rfl : (s.slots i).shmid = shmid := of_decide_eq_true hid
    have hremove := h.toInv.remove (h.shmid_lt hi)
    have hothers : ∀ j ≠ i, (s.slots j).active →
        (s.slots j).shmid ∈ (s.slots i).shmid :: s.removed →
        (s.slots j).marked ∧ (s.slots j).nattch ≠ 0 := by
      intro j hji hj hmem
      obtain heq | hmem := mem_cons.mp hmem
      · exact absurd (h.shmid_inj hj hi heq) hji
      · exact h.used j hj hmem
    dsimp only
    split
    · next hzero =>
      exact ⟨hremove.destroy hi hzero mem_cons_self, used_destroy hothers, h.dead⟩
    next hne =>
      refine ⟨?_, fun j => ?_, h.dead⟩
      · exact hremove.recount { s.slots i with marked := true } hi ⟨rfl, rfl, rfl, rfl, rfl, rfl⟩ hi rfl rfl
          (fun _ => mem_cons_self) (h.count hi) (fun _ _ _ _ => Iff.rfl) h.mapped
      simp only [setSlot]
      by_cases hji : j = i
      · subst hji
        rw [update_self]
        exact fun _ _ => ⟨rfl, hne⟩
      · rw [update_of_ne hji]
        exact hothers j hji

/-- A new segment has frames that no page has. -/
lemma Inv.newSegment (h : Inv s) (hi : (s.slots i).active = false) {seg : Segment}
    (hn : 0 < n) (hmarked : seg.marked = false)
    (hshmid : seg.shmid = s.nextShmid) (hpages : seg.pages = range' s.nextFrame n)
    (hnattch : seg.nattch = 0) :
  Inv { s.setSlot i seg with nextShmid := s.nextShmid + 1, nextFrame := s.nextFrame + n }
  := by
  have hcases : ∀ {j}, ((s.setSlot i seg).slots j).active →
      j = i ∧ (s.setSlot i seg).slots j = seg ∨
        j ≠ i ∧ (s.slots j).active ∧ (s.setSlot i seg).slots j = s.slots j := by
    intro j hj
    by_cases hji : j = i
    · exact .inl ⟨hji, by rw [hji]; exact update_self ..⟩
    · have hslot : (s.setSlot i seg).slots j = s.slots j := update_of_ne hji _ _
      exact .inr ⟨hji, hslot ▸ hj, hslot⟩
  have hnew : ∀ {f}, f ∈ seg.pages → s.nextFrame ≤ f ∧ f < s.nextFrame + n := by
    intro f hf
    rw [hpages, mem_range'_1] at hf
    exact hf
  have hold : ∀ {j f}, (s.slots j).active → f ∈ (s.slots j).pages → f ∉ seg.pages := by
    intro j f hj hf hmem
    have := h.lt_next hj hf
    have := (hnew hmem).1
    omega
  have hother : ∀ {j}, (s.slots j).active → (s.setSlot i seg).slots j = s.slots j := by
    intro j hj
    refine update_of_ne ?_ _ _
    rintro rfl
    exact absurd (hj.symm.trans hi) nofun
  refine ⟨?_, ?_, h.past, ?_, ?_, ?_, ?_, ?_, ?_, ?_, ?_, ?_, ?_, ?_⟩
  · intro j hj
    obtain ⟨-, hslot⟩ | ⟨-, hj, hslot⟩ := hcases hj
    · simp only [hslot]
      rw [hnattch, cast_zero, encard_eq_zero]
      -- the frame of its first page is not mapped anywhere
      refine eq_empty_of_forall_notMem fun a ha => ?_
      have hhead : seg.pages[0]? = some s.nextFrame := by
        rw [hpages, getElem?_range' hn, Nat.add_zero]
      obtain ⟨-, j', k, hj', hk, -⟩ := h.mapped (ha 0 _ hhead)
      exact hold hj' (mem_of_getElem? hk) (mem_of_getElem? hhead)
    · simp only [hslot]
      exact h.count hj
  · intro j f hj hf
    obtain ⟨-, hslot⟩ | ⟨-, hj, hslot⟩ := hcases hj
    · simp only [hslot] at hf
      exact h.fresh (hnew hf).1
    · simp only [hslot] at hf
      exact h.kept hj hf
  · intro old f hseg hf
    refine ⟨(h.gone hseg hf).1.trans_le (le_add_right _ _), fun j hj hmem => ?_⟩
    obtain ⟨-, hslot⟩ | ⟨-, hj, hslot⟩ := hcases hj
    · simp only [hslot] at hmem
      have := (h.gone hseg hf).1
      have := (hnew hmem).1
      omega
    · simp only [hslot] at hmem
      exact (h.gone hseg hf).2 j hj hmem
  · intro j hj
    obtain ⟨-, hslot⟩ | ⟨-, hj, hslot⟩ := hcases hj
    · simp only [hslot, hpages]
      simp [pos_iff_ne_zero.mp hn]
    · simp only [hslot]
      exact h.ne_nil hj
  · intro j hj
    obtain ⟨-, hslot⟩ | ⟨-, hj, hslot⟩ := hcases hj
    · simp only [hslot, hpages]
      exact nodup_range'
    · simp only [hslot]
      exact h.nodup hj
  · intro j f hj hf
    obtain ⟨-, hslot⟩ | ⟨-, hj, hslot⟩ := hcases hj
    · simp only [hslot] at hf
      exact (hnew hf).2
    · simp only [hslot] at hf
      exact (h.lt_next hj hf).trans_le (le_add_right _ _)
  · intro j k f hj hk hfj hfk
    obtain ⟨rfl, hslotj⟩ | ⟨-, hj', hslotj⟩ := hcases hj <;>
      obtain ⟨rfl, hslotk⟩ | ⟨-, hk', hslotk⟩ := hcases hk <;>
      simp only [hslotj, hslotk] at hfj hfk
    · rfl
    · exact absurd hfj (hold hk' hfk)
    · exact absurd hfk (hold hj' hfj)
    · exact h.apart hj' hk' hfj hfk
  · intro f hf
    exact h.fresh (le_of_add_right_le hf)
  · intro j hj
    obtain ⟨-, hslot⟩ | ⟨-, hj, hslot⟩ := hcases hj
    · simp only [hslot, hshmid]
      exact lt_succ_self _
    · simp only [hslot]
      exact (h.shmid_lt hj).trans (lt_succ_self _)
  · intro j k hj hk hid
    obtain ⟨rfl, hslotj⟩ | ⟨-, hj', hslotj⟩ := hcases hj <;>
      obtain ⟨rfl, hslotk⟩ | ⟨-, hk', hslotk⟩ := hcases hk <;>
      simp only [hslotj, hslotk] at hid
    · rfl
    · exact absurd (h.shmid_lt hk') (by omega)
    · exact absurd (h.shmid_lt hj') (by omega)
    · exact h.shmid_inj hj' hk' hid
  · intro id hid
    exact (h.removed_lt hid).trans (lt_succ_self _)
  · intro j hj hm
    obtain ⟨-, hslot⟩ | ⟨-, hj, hslot⟩ := hcases hj
    · simp only [hslot, hmarked] at hm
      exact absurd hm nofun
    · simp only [hslot] at hm ⊢
      exact h.marked hj hm
  · intro pid page f hf
    obtain ⟨hpage, j, k, hj, hk, hle, ha⟩ := h.mapped hf
    have hslot := hother hj
    exact ⟨hpage, j, k, by simp only [hslot]; exact hj, by simp only [hslot]; exact hk, hle,
      by simp only [hslot]; exact ha⟩

lemma Good.shmgetNew (h : Good s) (hid : s.nextShmid + 1 < 2 ^ 31) (key : ℕ) {size : ℕ} (hsize : size ≠ 0)
    (memOk : Bool) :
  Good (s.shmgetNew key size memOk).1
  := by
  unfold Sys.shmgetNew
  split
  · exact h
  next i hfind =>
    have hi : (s.slots i).active = false := by simpa using find?_some hfind
    split
    · exact h
    have hnext : (s.nextShmid + 1) % 2 ^ 32 = s.nextShmid + 1 := Nat.mod_eq_of_lt (by omega)
    simp only [hnext]
    refine ⟨h.toInv.newSegment hi (by omega) rfl rfl rfl rfl, fun j => ?_, h.dead⟩
    simp only [setSlot]
    by_cases hji : j = i
    · subst hji
      rw [update_self]
      intro _ hrem
      exact absurd (h.removed_lt hrem) (lt_irrefl _)
    · rw [update_of_ne hji]
      exact h.used j

lemma Good.sysShmget (h : Good s) (hid : s.nextShmid + 1 < 2 ^ 31) (key size : ℕ) (excl creat memOk : Bool) :
  Good (s.sysShmget key size excl creat memOk).1
  := by
  unfold Sys.sysShmget
  split
  · exact h
  next hsize =>
    have hnew := h.shmgetNew hid key (not_or.mp hsize).1 memOk
    split
    · split
      · split
        · exact h
        · exact h
      · split
        · exact h
        · exact hnew
    · exact hnew

lemma Good.step (h : Good s) {a : Act} (ha : Orderly s a) : Good (s.step a)
  := by
  rw [Sys.step]
  cases a with
  | shmget pid key size excl creat memOk =>
    rw [call]
    split
    · exact h.sysShmget ha key size excl creat memOk
    · exact h
  | shmat pid shmid addr =>
    rw [call]
    split
    · next hlive => exact h.sysShmat hlive ha
    · exact h
  | shmdt pid addr =>
    rw [call]
    split
    · exact h.sysShmdt ha
    · exact h
  | rmid pid shmid =>
    rw [call]
    split
    · exact h.sysRmid shmid
    · exact h
  | munmap pid addr length =>
    rw [call]
    split
    · unfold sysMunmap
      split
      · exact h
      · obtain ⟨helse, hsame, hlive⟩ := munmapPages_spec pid ha
        exact h.elsewhere helse hsame fun _ hdead => .inl (hlive ▸ hdead)
    · exact h
  | fork pid child memOk =>
    rw [call]
    split
    · unfold sysFork
      split
      · exact h
      next hchild =>
        split
        · exact h
        refine h.elsewhere ?_ ?_ ?_
        · exact ⟨rfl, rfl, rfl, rfl, rfl, rfl⟩
        · intro pid' page f
          by_cases hpid : pid' = child
          · subst hpid
            refine iff_of_false (fun hf => ?_) (h.dead (by simpa using hchild))
            have := AssocMap.mem_of_lookup hf
            simp at this
          · simp only [update_of_ne hpid]
        · intro pid' hdead
          by_cases hpid : pid' = child
          · simp [hpid] at hdead
          · simp only [update_of_ne hpid] at hdead
            exact .inl hdead
    · exact h
  | execve pid memOk image =>
    rw [call]
    split
    · split
      · next hmem =>
        obtain ⟨helse, hsame⟩ := replaceSpace_spec (image.map (·, .own)) (ha hmem) (by simp)
        exact h.elsewhere helse hsame fun _ => .inl
      · exact h
    · exact h
  | exit pid =>
    rw [call]
    split
    · obtain ⟨helse, hsame⟩ := replaceSpace_spec [] ha (by simp)
      refine h.elsewhere ?_ hsame ?_
      · exact ⟨helse.slots, helse.nextShmid, helse.nextFrame, helse.returned, helse.past, helse.removed⟩
      intro pid' hdead
      by_cases hpid : pid' = pid
      · subst hpid
        refine .inr fun page f hf => ?_
        exact absurd (ha _ (AssocMap.mem_of_lookup hf)) nofun
      · simp only [update_of_ne hpid] at hdead
        exact .inl hdead
    · exact h

lemma good_boot (live : ℕ → Bool) (pages : ℕ → List ℕ) (kernel : ℕ → Option Page) :
  Good (.boot live pages kernel)
  := by
  have hown : ∀ {pid page f}, ((boot live pages kernel).space pid).lookup page
      ≠ some (.shm f) := by
    intro pid page f hf
    have := AssocMap.mem_of_lookup hf
    simp [boot] at this
  refine ⟨⟨nofun, nofun, nofun, nofun, nofun, nofun, nofun, nofun, fun _ => rfl, nofun, nofun, nofun,
    nofun, fun hf => absurd hf hown⟩, nofun, fun _ => hown⟩

/-- In an orderly run, counts are the numbers of attachments, and the frames of a segment are given back
once, when it has been removed and is attached nowhere. -/
theorem sound_run (live : ℕ → Bool) (pages : ℕ → List ℕ) (kernel : ℕ → Option Page) (acts : List Act)
    (h : OrderlyRun (.boot live pages kernel) acts) :
  Sound ((boot live pages kernel).run acts)
  := by
  suffices hgood : Good ((boot live pages kernel).run acts) from hgood.toInv.sound hgood.used
  have hinit := good_boot live pages kernel
  generalize boot live pages kernel = s at h hinit ⊢
  induction acts generalizing s with
  | nil => exact hinit
  | cons a acts ih => exact ih (s.step a) h.2 (hinit.step h.1)

/-- One process, without pages. -/
def oneProcess : Sys := .boot (fun pid => pid = 1) (fun _ => []) fun _ => none

/-- A segment is attached, removed and detached, and its frame is given back then. -/
theorem sound_run_detach :
  (oneProcess.run [.shmget 1 0 4096 false true true, .shmat 1 1 0, .fork 1 2 true, .rmid 1 1,
      .shmdt 1 virtBase, .exit 1]).returned 0 = 1 ∧
  Sound (oneProcess.run [.shmget 1 0 4096 false true true, .shmat 1 1 0, .fork 1 2 true, .rmid 1 1,
      .shmdt 1 virtBase, .exit 1])
  := by
  refine ⟨by decide, sound_run _ _ _ _ ⟨show 1 + 1 < 2 ^ 31 by decide, ?_, trivial, trivial, ?_, ?_, trivial⟩⟩
  · intro i hi _
    cases i with
    | zero => exact ⟨⟨by decide, fun k hk f hf => absurd hf nofun⟩, by decide⟩
    | succ i => exact absurd hi nofun
  · change virtBase < 2 ^ 47
    decide
  · change ∀ e ∈ space _ 1, e.2 = .own
    decide

/-- A process that has a segment attached ends, or unmaps the page, and the frame of the segment is
given back while the segment is there. -/
theorem not_sound :
  ¬ Sound (oneProcess.run [.shmget 1 0 4096 false true true, .shmat 1 1 0, .exit 1]) ∧
    ¬ Sound (oneProcess.run [.shmget 1 0 4096 false true true, .shmat 1 1 0,
      .munmap 1 virtBase 4096])
  := by
  refine ⟨fun h => ?_, fun h => ?_⟩
  · exact absurd (@Sound.kept _ h 0 0 (by decide) (by decide)) (by decide)
  · exact absurd (@Sound.kept _ h 0 0 (by decide) (by decide)) (by decide)

end SharedMemory
