import EquantOS.Lib.Pool
import EquantOS.Lib.Radix

/-!
# The page tables

The operations of `core/mem/vmm.c` on 4 KB pages.  A frame of physical memory is an array of 512 words,
whether it holds a page table or the contents of a page; it is named by its physical address, so that
`VIRT` and `PHYS` disappear.  The page allocator is a parameter.  An operation that panics has no result.
The invalidation of translation buffers is left out.
-/

/-- `uint64_t`. -/
abbrev Word : Type := BitVec 64

def ptePresent : Word := 1 <<< 0

def pteWritable : Word := 1 <<< 1

def pteUser : Word := 1 <<< 2

def ptePcd : Word := 1 <<< 4

/-- `PTE_HUGE` and `PTE_PAGE_SIZE`. -/
def pteHuge : Word := 1 <<< 7

def pteCow : Word := 1 <<< 9

def pteAddrMask : Word := 0x000FFFFFFFFFF000

def pteFlagsMask : Word := ~~~pteAddrMask

/-- The page allocator: frames are page-aligned physical addresses below the total memory. -/
structure FrameAllocator (σ : Type) extends Pool σ Word where
  totalMemory : Word
  aligned {s : σ} {f : Word} : f ∈ avail s ∨ f ∈ held s → f &&& pteAddrMask = f
  below {s : σ} {f : Word} : f ∈ avail s ∨ f ∈ held s → f < totalMemory

/-- The memory with its allocator.  The list `victim` has the frames that the address space of the
victim of `oom_killer` would give back. -/
structure Paging (σ : Type) where
  mem : Word → ℕ → Word
  pool : σ
  victim : List Word
  kernelPml4 : Word

/-- The entry has the given bit. -/
def hasBit (bit e : Word) : Bool := e &&& bit != 0#64

def present : Word → Bool := hasBit ptePresent

/-- An index of nine bits of an address. -/
def tableIdx (shift : ℕ) (virt : Word) : ℕ := ((virt >>> shift) &&& 0x1FF).toNat

def pml4Idx : Word → ℕ := tableIdx 39

def pdptIdx : Word → ℕ := tableIdx 30

def pdIdx : Word → ℕ := tableIdx 21

def ptIdx : Word → ℕ := tableIdx 12

namespace Paging

variable {σ : Type}

def store (w : Paging σ) (table : Word) (index : ℕ) (e : Word) : Paging σ :=
  { w with mem := Radix.store w.mem table index e }

/-- Replace the contents of a frame. -/
def fill (w : Paging σ) (frame : Word) (contents : ℕ → Word) : Paging σ :=
  { w with mem := Function.update w.mem frame contents }

/-- Change the state of the allocator. -/
def withPool (w : Paging σ) (s : σ) : Paging σ := { w with pool := s }

section Operations

variable (P : FrameAllocator σ)

/-- `get_next_level` with `allocate`, as its callers have it. -/
def getNextLevel (w : Paging σ) (table : Word) (index : ℕ) : Option (Word × Paging σ) :=
  if present (w.mem table index) then
    let e := w.mem table index ||| (ptePresent ||| pteUser ||| pteWritable)
    some (e &&& pteAddrMask, w.store table index e)
  else
    match P.alloc w.pool with
    | none => none
    | some (next, s) =>
      let w := (w.withPool s).fill next fun _ => 0#64
      some (next,
        w.store table index ((next &&& pteAddrMask) ||| ptePresent ||| pteWritable ||| pteUser))

def vmmMap (w : Paging σ) (pml4 virt phys flags : Word) : Option (Paging σ) := do
  let virt := virt &&& ~~~0xFFF
  let phys := phys &&& pteAddrMask
  let (pdpt, w) ← w.getNextLevel P pml4 (pml4Idx virt)
  let (pd, w) ← w.getNextLevel P pdpt (pdptIdx virt)
  let (pt, w) ← w.getNextLevel P pd (pdIdx virt)
  some (w.store pt (ptIdx virt) (phys ||| (flags &&& pteFlagsMask) ||| ptePresent))

end Operations

def vmmUnmap (w : Paging σ) (pml4 virt : Word) : Paging σ :=
  let virt := virt &&& ~~~0xFFF
  if !present (w.mem pml4 (pml4Idx virt)) then w
  else
    let pdpt := w.mem pml4 (pml4Idx virt) &&& pteAddrMask
    if !present (w.mem pdpt (pdptIdx virt)) then w
    else
      let pd := w.mem pdpt (pdptIdx virt) &&& pteAddrMask
      if !present (w.mem pd (pdIdx virt)) then w
      else
        let pt := w.mem pd (pdIdx virt) &&& pteAddrMask
        w.store pt (ptIdx virt) 0#64

/-- The rights that `vmm_protect` writes into an entry. -/
def protectEntry (pte : Word) (user writable : Bool) : Word :=
  let pte := pte &&& ~~~(pteUser ||| pteWritable)
  let pte := if user then pte ||| pteUser else pte
  if user && writable && !hasBit pteCow pte then pte ||| pteWritable else pte

def vmmProtect (w : Paging σ) (pml4 virt : Word) (user writable : Bool) : Bool × Paging σ :=
  if !present (w.mem pml4 (pml4Idx virt)) then (false, w)
  else
    let pdpt := w.mem pml4 (pml4Idx virt) &&& pteAddrMask
    if !present (w.mem pdpt (pdptIdx virt)) then (false, w)
    else
      let pd := w.mem pdpt (pdptIdx virt) &&& pteAddrMask
      if !present (w.mem pd (pdIdx virt)) || hasBit pteHuge (w.mem pd (pdIdx virt)) then (false, w)
      else
        let pt := w.mem pd (pdIdx virt) &&& pteAddrMask
        if !present (w.mem pt (ptIdx virt)) then (false, w)
        else (true, w.store pt (ptIdx virt) (protectEntry (w.mem pt (ptIdx virt)) user writable))

def vmmGetPhys (w : Paging σ) (pml4 virt : Word) : Word :=
  if !present (w.mem pml4 (pml4Idx virt)) then 0#64
  else
    let pdpt := w.mem pml4 (pml4Idx virt) &&& pteAddrMask
    if !present (w.mem pdpt (pdptIdx virt)) then 0#64
    else
      let pd := w.mem pdpt (pdptIdx virt) &&& pteAddrMask
      if !present (w.mem pd (pdIdx virt)) then 0#64
      else
        let pt := w.mem pd (pdIdx virt) &&& pteAddrMask
        if !present (w.mem pt (ptIdx virt)) then 0#64
        else (w.mem pt (ptIdx virt) &&& pteAddrMask) + (virt &&& 0xFFF)

end Paging
