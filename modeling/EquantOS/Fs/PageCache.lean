import EquantOS.Lib.LinkedList
import EquantOS.Lib.Chain
import Mathlib.Data.Nat.Bitwise

/-!
# The page cache

`fs/pagecache.c`: pages of files, found through a table of hash chains and kept on a doubly linked list
in the order of their last use.  The entries are numbered in the order of their allocation; the fields
of the entries are maps on these numbers.  The driver of a node is a parameter.
-/

namespace PageCache

open Function LinkedList

def hashSize : ℕ := 1024

def maxPages : ℕ := 2048

def readAheadPages : ℕ := 4

/-- `PAGE_CACHE_SEQ_TRACK`. -/
def seqTracks : ℕ := 16

def hash (inode pageIndex : ℕ) : ℕ :=
  (inode ^^^ (pageIndex * 0x9E3779B97F4A7C15 % 2 ^ 64)) % hashSize

/-- The nodes and their drivers.  `read` gives the bytes that it puts at the start of the buffer. -/
structure Device (δ : Type) where
  inode : δ → ℕ → ℕ
  length : δ → ℕ → ℕ
  setLength : δ → ℕ → ℕ → δ
  canRead : ℕ → Bool
  canWrite : ℕ → Bool
  read : δ → ℕ → ℕ → ℕ → δ × List UInt8
  write : δ → ℕ → ℕ → List UInt8 → δ

structure SeqTrack where
  valid : Bool
  inode : ℕ
  nextOff : ℕ

/-- The table of streams, and the slot for the next new one. -/
structure SeqTable where
  tracks : List SeqTrack
  victim : ℕ

/-- The keys of the entries, their links, and which of them are allocated. -/
structure Links where
  inode : ℕ → ℕ
  pageIndex : ℕ → ℕ
  hashNext : ℕ → Option ℕ
  lruNext : ℕ → Option ℕ
  lruPrev : ℕ → Option ℕ
  live : ℕ → Bool
  hashTable : ℕ → Option ℕ
  lruHead : Option ℕ
  lruTail : Option ℕ
  cachedPageCount : ℕ
  next : ℕ

/-- The cache and the devices below it, with the number of allocations that were tried and a record of
the uses of entries, each with whether the entry was in the cache then. -/
structure Cache (δ : Type) extends Links where
  page : ℕ → ℕ → UInt8
  dirty : ℕ → Bool
  referenced : ℕ → Bool
  tries : ℕ
  seq : SeqTable
  dev : δ
  uses : List (ℕ × Bool)

/-! ### The streams -/

namespace SeqTable

/-- `seq_find`. -/
def find (t : SeqTable) (inode : ℕ) : Option ℕ :=
  t.tracks.findIdx? fun k => k.valid && k.inode = inode

/-- `page_cache_seq_observe`. -/
def observe (t : SeqTable) (inode offset : ℕ) : Bool × SeqTable :=
  match t.find inode with
  | none =>
    (true, ⟨t.tracks.set t.victim ⟨true, inode, offset⟩, (t.victim + 1) % seqTracks⟩)
  | some i =>
    let nextOff := (t.tracks[i]?.map SeqTrack.nextOff).getD 0
    (offset = nextOff, { t with tracks := ⟨true, inode, offset⟩ :: t.tracks.eraseIdx i })

/-- `page_cache_seq_anchor`. -/
def anchor (t : SeqTable) (inode nextOff : ℕ) : SeqTable :=
  match t.find inode with
  | none => t
  | some i => { t with tracks := t.tracks.modify i fun k => { k with nextOff := nextOff } }

end SeqTable

namespace Cache

variable {δ : Type}

/-- The empty cache.  `frames` has what is in the frames of the entries before they are filled. -/
def init (dev : δ) (frames : ℕ → ℕ → UInt8) : Cache δ where
  inode _ := 0
  pageIndex _ := 0
  hashNext _ := none
  lruNext _ := none
  lruPrev _ := none
  live _ := false
  hashTable _ := none
  lruHead := none
  lruTail := none
  cachedPageCount := 0
  next := 0
  page := frames
  dirty _ := false
  referenced _ := false
  tries := 0
  seq := ⟨List.replicate seqTracks ⟨false, 0, 0⟩, 0⟩
  dev := dev
  uses := []

/-! ### The list and the chains -/

def lruRemove (s : Cache δ) (e : ℕ) : Cache δ :=
  { s with
    lruNext := update (redirect s.lruNext (s.lruPrev e) (s.lruNext e)) e none
    lruPrev := update (redirect s.lruPrev (s.lruNext e) (s.lruPrev e)) e none
    lruHead := if s.lruPrev e = none then s.lruNext e else s.lruHead
    lruTail := if s.lruNext e = none then s.lruPrev e else s.lruTail }

def lruPushFront (s : Cache δ) (e : ℕ) : Cache δ :=
  { s with
    lruNext := update s.lruNext e s.lruHead
    lruPrev := redirect (update s.lruPrev e none) s.lruHead (some e)
    lruHead := some e
    lruTail := if s.lruHead = none then some e else s.lruTail }

def setReferenced (s : Cache δ) (e : ℕ) (b : Bool) : Cache δ :=
  { s with referenced := update s.referenced e b }

/-- The walk of `page_cache_lookup` along a chain. -/
def findChain (s : Cache δ) (inode pageIndex : ℕ) : ℕ → Option ℕ → Option ℕ
  | 0, _ => none
  | _, none => none
  | fuel + 1, some e =>
    if s.inode e = inode ∧ s.pageIndex e = pageIndex then some e
    else s.findChain inode pageIndex fuel (s.hashNext e)

/-- `page_cache_lookup`.  There are no more entries on a chain than were ever allocated. -/
def lookup (s : Cache δ) (inode pageIndex : ℕ) : Option ℕ × Cache δ :=
  match s.findChain inode pageIndex s.next (s.hashTable (hash inode pageIndex)) with
  | none => (none, s)
  | some e => (some e, ((s.setReferenced e true).lruRemove e).lruPushFront e)

/-- The first loop of `page_cache_evict_one`: from the tail on, entries that are referenced are passed
over, and are not referenced any more. -/
def sweep : ℕ → Option ℕ → Cache δ → Option ℕ × Cache δ
  | 0, _, s => (none, s)
  | _, none, s => (none, s)
  | fuel + 1, some v, s =>
    if s.referenced v then sweep fuel (s.lruPrev v) (s.setReferenced v false) else (some v, s)

/-- The second loop of `page_cache_evict_one`: the entry of a chain that comes before another one. -/
def findBefore (s : Cache δ) (victim : ℕ) : ℕ → Option ℕ → Option ℕ
  | 0, _ => none
  | _, none => none
  | fuel + 1, some e =>
    if s.hashNext e = some victim then some e else s.findBefore victim fuel (s.hashNext e)

/-- An entry is taken out of its chain. -/
def unchain (s : Cache δ) (victim : ℕ) : Cache δ :=
  let bucket := hash (s.inode victim) (s.pageIndex victim)
  if s.hashTable bucket = some victim then
    { s with hashTable := update s.hashTable bucket (s.hashNext victim) }
  else
    match s.findBefore victim s.next (s.hashTable bucket) with
    | none => s
    | some e => { s with hashNext := update s.hashNext e (s.hashNext victim) }

def evictOne (s : Cache δ) : Cache δ :=
  let swept := sweep s.next s.lruTail s
  match swept.1.or s.lruTail with
  | none => swept.2
  | some victim =>
    let s := (swept.2.unchain victim).lruRemove victim
    { s with
      live := update s.live victim false
      cachedPageCount := s.cachedPageCount - 1 }

/-- A new entry, in front of its chain and of the list. -/
def insert (s : Cache δ) (inode pageIndex : ℕ) : Cache δ :=
  let e := s.next
  let bucket := hash inode pageIndex
  let s := { s with
    inode := update s.inode e inode
    pageIndex := update s.pageIndex e pageIndex
    dirty := update s.dirty e false
    referenced := update s.referenced e true
    live := update s.live e true
    hashNext := update s.hashNext e (s.hashTable bucket)
    hashTable := update s.hashTable bucket (some e)
    next := s.next + 1 }
  let s := s.lruPushFront e
  { s with cachedPageCount := s.cachedPageCount + 1 }

/-- `page_cache_allocate`.  `fails` says which of the allocations fail: first the frame is allocated,
then the entry. -/
def allocate (fails : ℕ → Bool) (s : Cache δ) (inode pageIndex : ℕ) : Option ℕ × Cache δ :=
  let s := if maxPages ≤ s.cachedPageCount then s.evictOne else s
  if fails s.tries then (none, { s with tries := s.tries + 1 })
  else if fails (s.tries + 1) then (none, { s with tries := s.tries + 2 })
  else (some s.next, { s with tries := s.tries + 2 }.insert inode pageIndex)

/-! ### Reading and writing -/

/-- A buffer with bytes put at an offset. -/
def overlay (buf : ℕ → UInt8) (offset : ℕ) (bytes : List UInt8) : ℕ → UInt8 :=
  fun i => if offset ≤ i ∧ i < offset + bytes.length then bytes.getD (i - offset) 0 else buf i

/-- The page of an entry is used. -/
def use (s : Cache δ) (e : ℕ) : Cache δ := { s with uses := (e, s.live e) :: s.uses }

def setPage (s : Cache δ) (e : ℕ) (page : ℕ → UInt8) : Cache δ :=
  { s.use e with page := update s.page e page }

/-- The driver reads a page. -/
def fill (D : Device δ) (s : Cache δ) (node pageIndex e : ℕ) (page : ℕ → UInt8) : Cache δ :=
  let got := D.read s.dev node (pageIndex * 4096 % 2 ^ 64) 4096
  { s with dev := got.1 }.setPage e (overlay page 0 got.2)

/-- The loop of `page_cache_prefetch`, with the number of pages left. -/
def prefetchLoop (D : Device δ) (fails : ℕ → Bool) (node : ℕ) : ℕ → ℕ → Cache δ → Cache δ
  | 0, _, s => s
  | n + 1, pageIndex, s =>
    if D.length s.dev node ≤ pageIndex % 2 ^ 64 * 4096 % 2 ^ 64 then s
    else
      let found := s.lookup (D.inode s.dev node) (pageIndex % 2 ^ 64)
      match found.1 with
      | some _ => prefetchLoop D fails node n (pageIndex + 1) found.2
      | none =>
        let made := allocate fails found.2 (D.inode s.dev node) (pageIndex % 2 ^ 64)
        match made.1 with
        | none => made.2
        | some e =>
          prefetchLoop D fails node n (pageIndex + 1)
            (fill D made.2 node (pageIndex % 2 ^ 64) e fun _ => 0)

def prefetch (D : Device δ) (fails : ℕ → Bool) (s : Cache δ) (node first count : ℕ) : Cache δ :=
  if D.canRead node then prefetchLoop D fails node count first s else s

/-- A round of `page_cache_read` up to the copy: the entry of the page. -/
def readPage (D : Device δ) (fails : ℕ → Bool) (s : Cache δ) (node pageIndex : ℕ) (sequential : Bool) :
    Option ℕ × Cache δ :=
  let found := s.lookup (D.inode s.dev node) pageIndex
  match found.1 with
  | some e => (some e, found.2)
  | none =>
    let made := allocate fails found.2 (D.inode s.dev node) pageIndex
    match made.1 with
    | none => (none, made.2)
    | some e =>
      let s :=
        if D.canRead node then fill D made.2 node pageIndex e fun _ => 0
        else made.2.setPage e fun _ => 0
      (some e, if sequential then prefetch D fails s node (pageIndex + 1) readAheadPages else s)

/-- The loop of `page_cache_read`, with the bytes that it has copied.  Every round copies a byte at
least, so that `total` rounds are enough. -/
def readLoop (D : Device δ) (fails : ℕ → Bool) (node offset total : ℕ) (sequential : Bool) :
    ℕ → List UInt8 → Cache δ → List UInt8 × Cache δ
  | 0, out, s => (out, s)
  | fuel + 1, out, s =>
    if total ≤ out.length then (out, s)
    else
      let curOffset := (offset + out.length) % 2 ^ 64
      let pageOff := curOffset % 4096
      let chunk := min (4096 - pageOff) (total - out.length)
      let cached := readPage D fails s node (curOffset / 4096) sequential
      match cached.1 with
      | none => (out, cached.2)
      | some e =>
        let bytes := (List.range chunk).map fun i => cached.2.page e (pageOff + i)
        readLoop D fails node offset total sequential fuel (out ++ bytes) (cached.2.use e)

/-- `page_cache_read`: the bytes that it puts into the buffer, whose number it returns. -/
def read (D : Device δ) (fails : ℕ → Bool) (s : Cache δ) (node offset size : ℕ) :
    List UInt8 × Cache δ :=
  if D.length s.dev node ≤ offset ∨ size = 0 then ([], s)
  else
    let total :=
      if D.length s.dev node < (offset + size) % 2 ^ 64 then D.length s.dev node - offset else size
    let observed := s.seq.observe (D.inode s.dev node) offset
    let got := readLoop D fails node offset total observed.1 total [] { s with seq := observed.2 }
    (got.1, { got.2 with
      seq := got.2.seq.anchor (D.inode got.2.dev node) ((offset + got.1.length) % 2 ^ 64) })

/-- A round of `page_cache_write` up to the copy: the entry of the page. -/
def writePage (D : Device δ) (fails : ℕ → Bool) (s : Cache δ) (node curOffset chunk : ℕ) :
    Option ℕ × Cache δ :=
  let pageIndex := curOffset / 4096
  let found := s.lookup (D.inode s.dev node) pageIndex
  match found.1 with
  | some e => (some e, found.2)
  | none =>
    let made := allocate fails found.2 (D.inode s.dev node) pageIndex
    match made.1 with
    | none => (none, made.2)
    | some e =>
      (some e,
        if curOffset % 4096 ≠ 0 ∨ chunk ≠ 4096 then
          if curOffset < D.length made.2.dev node ∧ D.canRead node then
            fill D made.2 node pageIndex e (made.2.page e)
          else made.2.setPage e fun _ => 0
        else made.2)

/-- The loop of `page_cache_write`, with the number of bytes that it has written. -/
def writeLoop (D : Device δ) (fails : ℕ → Bool) (node offset : ℕ) (data : List UInt8) :
    ℕ → ℕ → Cache δ → ℕ × Cache δ
  | 0, done, s => (done, s)
  | fuel + 1, done, s =>
    if data.length ≤ done then (done, s)
    else
      let curOffset := (offset + done) % 2 ^ 64
      let pageOff := curOffset % 4096
      let chunk := min (4096 - pageOff) (data.length - done)
      let cached := writePage D fails s node curOffset chunk
      match cached.1 with
      | none => (done, cached.2)
      | some e =>
        let bytes := (data.drop done).take chunk
        let s := cached.2.setPage e (overlay (cached.2.page e) pageOff bytes)
        let s := { s with dirty := update s.dirty e true }
        let s := if D.canWrite node then { s with dev := D.write s.dev node curOffset bytes } else s
        writeLoop D fails node offset data fuel (done + chunk) s

/-- `page_cache_write`: the number of bytes, or none for -1. -/
def write (D : Device δ) (fails : ℕ → Bool) (s : Cache δ) (node offset : ℕ) (data : List UInt8) :
    Option ℕ × Cache δ :=
  if data = [] then (none, s)
  else
    let done := writeLoop D fails node offset data data.length 0 s
    (some done.1,
      if D.length done.2.dev node < (offset + done.1) % 2 ^ 64 then
        { done.2 with dev := D.setLength done.2.dev node ((offset + done.1) % 2 ^ 64) }
      else done.2)

end Cache

/-- The calls on the cache.  Read-ahead and eviction happen inside of reads and writes, and alone. -/
inductive Act where
  | read (node offset size : ℕ)
  | write (node offset : ℕ) (data : List UInt8)
  | prefetch (node first count : ℕ)
  | evict

namespace Cache

variable {δ : Type}

def step (D : Device δ) (fails : ℕ → Bool) (s : Cache δ) : Act → Cache δ
  | .read node offset size => (read D fails s node offset size).2
  | .write node offset data => (write D fails s node offset data).2
  | .prefetch node first count => prefetch D fails s node first count
  | .evict => s.evictOne

def run (D : Device δ) (fails : ℕ → Bool) (s : Cache δ) (acts : List Act) : Cache δ :=
  acts.foldl (step D fails) s

end Cache

end PageCache
