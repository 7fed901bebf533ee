import EquantOS.Lib.Dyadic

/-!
# The physical page allocator

The buddy allocator of `core/mem/pmm.c`.  The page descriptors `page_array` are a map
from page frame numbers to descriptors, whose `next` and `prev` links are page frame
numbers in turn; a list of free blocks of order `k` starts at `freeAreas k`.  Counters
are naturals.  `pmmInit` builds the allocator from a boot memory map and fails where the
source panics.
-/

def pageSize : ℕ := 4096

/-- `PMM_MAX_ORDER`: the orders are `0` to `15`. -/
def pmmMaxOrder : ℕ := 16

/-- `pmm_page_t`, the descriptor of a page. -/
structure PmmPage where
  order : ℕ
  isFree : Bool
  next : Option ℕ
  prev : Option ℕ
  deriving DecidableEq, Repr

/-- `pmm_free_area_t`, the free blocks of one order. -/
structure PmmFreeArea where
  freelist : Option ℕ
  freeCount : ℕ
  deriving DecidableEq, Repr

/-- The state of the allocator; the last two fields are the legacy globals `total_pages`
and `free_memory`. -/
structure Pmm where
  freeAreas : ℕ → PmmFreeArea
  pageArray : ℕ → PmmPage
  totalPhysPages : ℕ
  freePhysPages : ℕ
  totalPages : ℕ
  freeMemory : ℕ

namespace Pmm

/-- Change the descriptor of one page. -/
def modPage (s : Pmm) (p : ℕ) (f : PmmPage → PmmPage) : Pmm :=
  { s with pageArray := Function.update s.pageArray p (f (s.pageArray p)) }

/-- Change one free area. -/
def modArea (s : Pmm) (k : ℕ) (f : PmmFreeArea → PmmFreeArea) : Pmm :=
  { s with freeAreas := Function.update s.freeAreas k (f (s.freeAreas k)) }

/-! ### The free lists -/

/-- `list_add` on the free list of order `k`. -/
def listAdd (s : Pmm) (k p : ℕ) : Pmm :=
  let head := (s.freeAreas k).freelist
  let s := s.modPage p fun g => { g with next := head, prev := none }
  let s :=
    match head with
    | some q => s.modPage q fun g => { g with prev := some p }
    | none => s
  s.modArea k fun a => { a with freelist := some p }

/-- `list_remove` on the free list of order `k`. -/
def listRemove (s : Pmm) (k p : ℕ) : Pmm :=
  let s :=
    match (s.pageArray p).prev with
    | some q => s.modPage q fun g => { g with next := (s.pageArray p).next }
    | none => s.modArea k fun a => { a with freelist := (s.pageArray p).next }
  let s :=
    match (s.pageArray p).next with
    | some q => s.modPage q fun g => { g with prev := (s.pageArray p).prev }
    | none => s
  s.modPage p fun g => { g with next := none, prev := none }

/-- Mark a page as the head of a free block of order `k` and put it on its list, the
common end of freeing a block and of splitting one. -/
def addFree (s : Pmm) (k p : ℕ) : Pmm :=
  let s := s.modPage p fun g => { g with order := k, isFree := true }
  (s.listAdd k p).modArea k fun a => { a with freeCount := a.freeCount + 1 }

/-- Take a page off the free list of order `k`. -/
def takeFree (s : Pmm) (k p : ℕ) : Pmm :=
  (s.listRemove k p).modArea k fun a => { a with freeCount := a.freeCount - 1 }

def syncLegacyGlobals (s : Pmm) : Pmm :=
  { s with totalPages := s.totalPhysPages, freeMemory := s.freePhysPages * pageSize }

/-! ### Allocation -/

/-- The loop of `pmm_alloc_pages` that halves a block of the given order down to `order`,
putting the upper half back each time. -/
def splitBlock (page order : ℕ) : ℕ → Pmm → Pmm
  | 0, s => s
  | c + 1, s =>
    if order < c + 1 then splitBlock page order c (s.addFree c (page ^^^ (1 <<< c))) else s

/-- The smallest order from `order` on whose free list is not empty, with its head. -/
def findFree (s : Pmm) (order : ℕ) : Option (ℕ × ℕ) :=
  (List.range' order (pmmMaxOrder - order)).findSome? fun k =>
    (s.freeAreas k).freelist.map fun p => (k, p)

/-- `pmm_alloc_pages`.  The out-of-memory killer is a parameter: it runs when no block is
left, and the call then returns `NULL`. -/
def pmmAllocPages (oomKiller : Pmm → Pmm) (s : Pmm) (order : ℕ) : Option ℕ × Pmm :=
  if pmmMaxOrder ≤ order then (none, s)
  else
    match s.findFree order with
    | some (k, page) =>
      let s := splitBlock page order k (s.takeFree k page)
      let s := s.modPage page fun g => { g with order := order, isFree := false }
      let s := { s with freePhysPages := s.freePhysPages - 1 <<< order }
      (some (page * pageSize), s.syncLegacyGlobals)
    | none => (none, oomKiller s)

/-! ### Release -/

/-- The loop of `pmm_free_pages` that merges the block of order `order` at `pfn` with its
buddy as long as that is free; the first argument is the number of orders above. -/
def coalesce : ℕ → Pmm → ℕ → ℕ → Pmm × ℕ × ℕ
  | 0, s, pfn, order => (s, pfn, order)
  | n + 1, s, pfn, order =>
    let buddyPfn := pfn ^^^ (1 <<< order)
    if s.totalPhysPages ≤ buddyPfn then (s, pfn, order)
    else if !(s.pageArray buddyPfn).isFree || (s.pageArray buddyPfn).order != order then
      (s, pfn, order)
    else
      let s := (s.takeFree order buddyPfn).modPage buddyPfn fun g => { g with isFree := false }
      coalesce n s (pfn &&& ((2 ^ 64 - 1) ^^^ (1 <<< order))) (order + 1)

def pmmFreePages (s : Pmm) (ptr order : ℕ) : Pmm :=
  if ptr = 0 ∨ pmmMaxOrder ≤ order then s
  else
    let pfn := ptr / pageSize
    if s.totalPhysPages ≤ pfn then s
    else if (s.pageArray pfn).isFree then s
    else
      let s := s.modPage pfn fun g => { g with isFree := true }
      let s := { s with freePhysPages := s.freePhysPages + 1 <<< order }
      let (s, pfn, order) := coalesce (pmmMaxOrder - 1 - order) s pfn order
      (s.addFree order pfn).syncLegacyGlobals

def pmmFree (s : Pmm) (ptr : ℕ) : Pmm := s.pmmFreePages ptr 0

end Pmm

/-! ### Start-up -/

/-- `struct limine_memmap_entry`. -/
structure MemmapEntry where
  base : ℕ
  length : ℕ
  type : ℕ
  deriving DecidableEq, Repr

namespace MemmapEntry

/-- The type of the entry is `LIMINE_MEMMAP_USABLE`. -/
def Usable (e : MemmapEntry) : Prop := e.type = 0

instance (e : MemmapEntry) : Decidable e.Usable := inferInstanceAs (Decidable (e.type = 0))

/-- The pages `pmm_init` walks over in one entry, page zero excepted. -/
def pfns (e : MemmapEntry) : List ℕ :=
  if e.Usable then
    (List.range' (e.base / pageSize) (e.length / pageSize)).filter fun pfn => pfn ≠ 0
  else []

end MemmapEntry

/-- A memory map as the boot protocol hands it over: the usable entries are page-aligned,
lie within 64 bits and do not overlap. -/
structure Memmap where
  entries : List MemmapEntry
  aligned : ∀ e ∈ entries, e.Usable → pageSize ∣ e.base ∧ pageSize ∣ e.length
  bounded : ∀ e ∈ entries, e.Usable → e.base + e.length < 2 ^ 64
  disjoint : entries.Pairwise fun d e => d.Usable → e.Usable →
    d.base + d.length ≤ e.base ∨ e.base + e.length ≤ d.base

namespace Pmm

/-- The end of the highest usable entry. -/
def maxAddr (entries : List MemmapEntry) : ℕ :=
  entries.foldl (fun m e => if e.Usable ∧ m < (e.base + e.length) % 2 ^ 64
    then (e.base + e.length) % 2 ^ 64 else m) 0

/-- The number of pages that the page descriptors take, at 24 bytes each. -/
def pageArrayPages (totalPhysPages : ℕ) : ℕ :=
  (totalPhysPages * 24 + pageSize - 1) / pageSize

/-- Cut the page descriptors off the front of the first usable entry with room for them;
the result is their address and the remaining map. -/
def reservePageArray (pages : ℕ) : List MemmapEntry → Option (ℕ × List MemmapEntry)
  | [] => none
  | e :: es =>
    if e.Usable ∧ pages * pageSize ≤ e.length then
      some (e.base,
        { e with base := e.base + pages * pageSize, length := e.length - pages * pageSize } :: es)
    else (reservePageArray pages es).map fun r => (r.1, e :: r.2)

/-- The allocator before any page is handed to it: `page_array` is cleared. -/
def empty (totalPhysPages : ℕ) : Pmm where
  freeAreas _ := ⟨none, 0⟩
  pageArray _ := ⟨0, false, none, none⟩
  totalPhysPages := totalPhysPages
  freePhysPages := 0
  totalPages := 0
  freeMemory := 0

/-- The body of the loop of `pmm_init` that hands one page to the allocator. -/
def initPage (s : Pmm) (pfn : ℕ) : Pmm :=
  (s.modPage pfn fun g => { g with isFree := false, order := 0 }).pmmFreePages (pfn * pageSize) 0

/-- The pages that `pmm_init` hands to the allocator, in order. -/
def initPfns (entries : List MemmapEntry) : List ℕ := entries.flatMap MemmapEntry.pfns

/-- `pmm_init`, with the remaining memory map; `none` where the source panics. -/
def pmmInit (map : Memmap) : Option (Pmm × List MemmapEntry) :=
  let totalPhysPages := maxAddr map.entries / pageSize
  match reservePageArray (pageArrayPages totalPhysPages) map.entries with
  | none => none
  | some (pageArrayPhys, entries) =>
    if pageArrayPhys = 0 then none
    else some (((initPfns entries).foldl initPage (empty totalPhysPages)).syncLegacyGlobals, entries)

end Pmm
