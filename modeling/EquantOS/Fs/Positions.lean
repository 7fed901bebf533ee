import EquantOS.Fs.Stable

/-!
# File positions

`sys_read_handler`, `sys_write_handler` and `sys_lseek_handler` of `proc/syscall.c` on regular files.
The position is kept with the slot, and `dup` and `clone` copy it.  So descriptors that come from
one open have one position only as long as it is moved while there is one of them.

A regular file is known by its bytes; how many bytes its driver takes of a write is left open, and so is
what it leaves between the end of the file and a write behind it.  Buffers are those of the caller.
-/

open Function Option

/-- The bytes of the files. -/
abbrev Contents := ℕ → List UInt8

def oAppend : BitVec 32 := 0x400

def oTrunc : BitVec 32 := 0x200

namespace Contents

/-- Regular files have no open or close operation. -/
def ops : FileOps Contents where
  onOpen _ w := w
  onClose _ w := w

/-- The bytes from an offset on are replaced; a gap gets the bytes of `fill`. -/
def writeAt (fill : ℕ → UInt8) (bytes : List UInt8) (offset : ℕ) (data : List UInt8) : List UInt8 :=
  bytes.take offset ++ (List.range (offset - bytes.length)).map fill ++ data ++ bytes.drop (offset + data.length)

/-- What the file held has been replaced by the data from an offset on, and is otherwise the same. -/
structure Laid (bytes : List UInt8) (offset : ℕ) (data bytes' : List UInt8) : Prop where
  inside (i : ℕ) : i < data.length → bytes'[offset + i]? = data[i]?
  before (i : ℕ) : i < offset → i < bytes.length → bytes'[i]? = bytes[i]?
  behind (i : ℕ) : offset + data.length ≤ i → bytes'[i]? = bytes[i]?

lemma laid_writeAt (fill : ℕ → UInt8) {bytes data : List UInt8} {offset : ℕ} (hdata : data ≠ []) :
  Laid bytes offset data (writeAt fill bytes offset data)
  := by
  have hpos := List.length_pos_of_ne_nil hdata
  have hstart : (bytes.take offset ++ (List.range (offset - bytes.length)).map fill).length = offset := by
    simp only [List.length_append, List.length_take, List.length_map, List.length_range]
    omega
  refine ⟨fun i hi => ?_, fun i hi hlen => ?_, fun i hi => ?_⟩
  · rw [writeAt, List.getElem?_append_left (by rw [List.length_append, hstart]; omega),
      List.getElem?_append_right (by omega), hstart, Nat.add_sub_cancel_left]
  · rw [writeAt, List.append_assoc, List.append_assoc,
      List.getElem?_append_left (by rw [List.length_take]; omega), List.getElem?_take_of_lt hi]
  · rw [writeAt, List.getElem?_append_right (by rw [List.length_append, hstart]; omega), List.length_append,
      hstart, List.getElem?_drop, Nat.add_sub_cancel' hi]

lemma Laid.refl (bytes : List UInt8) (offset : ℕ) : Laid bytes offset [] bytes
  := ⟨fun _ hi => absurd hi (Nat.not_lt_zero _), fun _ _ _ => rfl, fun _ _ => rfl⟩

/-- Data that is laid out right behind other data does not touch it. -/
lemma Laid.append {bytes bytes₁ bytes₂ data data₁ : List UInt8} {offset : ℕ} (h : Laid bytes offset data bytes₁)
    (h₁ : Laid bytes₁ (offset + data.length) data₁ bytes₂) :
  Laid bytes offset (data ++ data₁) bytes₂
  := by
  refine ⟨fun i hi => ?_, fun i hi hlen => ?_, fun i hi => ?_⟩
  · rw [List.length_append] at hi
    by_cases hleft : i < data.length
    · have hin := h.inside i hleft
      have hlen : offset + i < bytes₁.length := by
        by_contra hge
        rw [List.getElem?_eq_none (by omega), List.getElem?_eq_getElem hleft] at hin
        cases hin
      rw [h₁.before _ (by omega) hlen, hin, List.getElem?_append_left hleft]
    · have := h₁.inside (i - data.length) (by omega)
      rw [List.getElem?_append_right (by omega), ← this]
      congr 1
      omega
  · have hsame := h.before i hi hlen
    have hlen₁ : i < bytes₁.length := by
      by_contra hge
      rw [List.getElem?_eq_none (by omega), List.getElem?_eq_getElem hlen] at hsame
      cases hsame
    rw [h₁.before i (by omega) hlen₁, hsame]
  · rw [List.length_append] at hi
    rw [h₁.behind i (by omega), h.behind i (by omega)]

end Contents

namespace FileTables

open Contents

def setOffset {W : Type} (k : FileTables W) (s : ℕ × ℕ) (offset : ℕ) : FileTables W :=
  { k with fileOffsets := Function.update k.fileOffsets s offset }

/-- `sys_openat_handler` of a regular file that is there. -/
def openFile (k : FileTables Contents) (p n : ℕ) (flags : BitVec 32) : ℤ × FileTables Contents :=
  let k := if flags &&& oTrunc ≠ 0 ∧ flags &&& (oWronly ||| oRdwr) ≠ 0
    then { k with world := Function.update k.world n [] } else k
  k.allocFd p n flags

def sysRead (k : FileTables Contents) (p : ℕ) (fd : ℤ) (count : ℕ) : ℤ × FileTables Contents :=
  if count = 0 then (0, k)
  else
    match k.fileAt p fd with
    | none => (ebadf, k)
    | some n =>
      let offset := k.fileOffsets (p, fd.toNat)
      let bytes := ((k.world n).drop offset).take count
      (bytes.length, if 0 < bytes.length then k.setOffset (p, fd.toNat) (offset + bytes.length) else k)

/-- `sys_write_handler`, of which the driver takes some bytes. -/
def sysWrite (k : FileTables Contents) (p : ℕ) (fd : ℤ) (data : List UInt8) (accepted : ℕ) (fill : ℕ → UInt8) :
    ℤ × FileTables Contents :=
  if data = [] then (0, k)
  else
    match k.fileAt p fd with
    | none => (ebadf, k)
    | some n =>
      let offset := if k.fileFlags (p, fd.toNat) &&& oAppend ≠ 0 then (k.world n).length
        else k.fileOffsets (p, fd.toNat)
      let bytes := data.take accepted
      if 0 < bytes.length then
        (bytes.length,
          { k.setOffset (p, fd.toNat) (offset + bytes.length) with
            world := Function.update k.world n (writeAt fill (k.world n) offset bytes) })
      else (0, k)

/-- `sys_lseek_handler`; the sums are those of `int64_t`. -/
def sysLseek (k : FileTables Contents) (p : ℕ) (fd offset : ℤ) (whence : ℕ) :
    ℤ × FileTables Contents :=
  match k.fileAt p fd with
  | none => (ebadf, k)
  | some n =>
    let seek (newOffset : ℤ) : ℤ × FileTables Contents :=
      if newOffset < 0 then (einval, k) else (newOffset, k.setOffset (p, fd.toNat) newOffset.toNat)
    match whence with
    | 0 => seek offset
    | 1 => seek (Int.bmod (k.fileOffsets (p, fd.toNat) + offset) (2 ^ 64))
    | 2 => seek (Int.bmod ((k.world n).length + offset) (2 ^ 64))
    | _ => (einval, k)

/-- A call that may open, copy, move or close a descriptor. -/
inductive IoCall where
  | file (call : FileCall)
  | openFile (n : ℕ) (flags : BitVec 32)
  | read (fd : ℤ) (count : ℕ)
  | write (fd : ℤ) (data : List UInt8) (accepted : ℕ) (fill : ℕ → UInt8)
  | lseek (fd offset : ℤ) (whence : ℕ)

/-- The effect of a call by process `p`. -/
def IoCall.effect (k : FileTables Contents) (p : ℕ) : IoCall → FileTables Contents
  | .file call => call.effect ops k p
  | .openFile n flags => (k.openFile p n flags).2
  | .read fd count => (k.sysRead p fd count).2
  | .write fd data accepted fill => (k.sysWrite p fd data accepted fill).2
  | .lseek fd offset whence => (k.sysLseek p fd offset whence).2

/-! ### Where descriptors come from -/

/-- The slot whose descriptor a call copies into a slot. -/
def FileCall.source {W : Type} (k : FileTables W) (p : ℕ) : FileCall → ℕ × ℕ → Option (ℕ × ℕ)
  | .dup fd, s => if (k.fileAt p fd).isSome ∧ (k.firstFree p 3).map (Prod.mk p) = some s
      then some (p, fd.toNat) else none
  | .fcntlDupfd fd _ arg, s =>
      if (k.fileAt p fd).isSome ∧ (k.firstFree p arg).map (Prod.mk p) = some s
      then some (p, fd.toNat) else none
  | .dup2 oldfd newfd, s | .dup3 oldfd newfd _, s =>
      if (k.fileAt p oldfd).isSome ∧ 0 ≤ newfd ∧ newfd < maxOpenFiles ∧ oldfd ≠ newfd
        ∧ s = (p, newfd.toNat) then some (p, oldfd.toNat) else none
  | .clone, s => if s.1 = k.processCount then some (p, s.2) else none
  | _, _ => none

/-- The same for all calls. -/
def IoCall.source (k : FileTables Contents) (p : ℕ) : IoCall → ℕ × ℕ → Option (ℕ × ℕ)
  | .file call, s => call.source k p s
  | _, _ => none

/-- Where a call through a descriptor of an open leaves the position of the open, which was `pos`: it goes on by
the bytes that are read from the file of `len` bytes or written to it, and a seek sets it. -/
def IoCall.nextPosition (pos len : ℕ) (append : Bool) : IoCall → ℕ
  | .read _ count => pos + min count (len - pos)
  | .write _ data accepted _ =>
    if data.take accepted = [] then pos else (if append then len else pos) + (data.take accepted).length
  | .lseek _ offset whence =>
    let target : ℤ := match whence with
      | 0 => offset
      | 1 => Int.bmod (pos + offset) (2 ^ 64)
      | 2 => Int.bmod (len + offset) (2 ^ 64)
      | _ => -1
    if target < 0 then pos else target.toNat
  | .file _ | .openFile _ _ => pos

/-- The tables, with the open that every descriptor comes from: when it was, and the slot that it
filled.  An open has one position, which is zero at first and moves with every call through any of the descriptors
that come from it, wherever the tables keep it. -/
structure Opened where
  tables : FileTables Contents
  time : ℕ
  origin : ℕ × ℕ → ℕ × (ℕ × ℕ)
  position : ℕ × (ℕ × ℕ) → ℕ

namespace Opened

/-- The slot that a call moves. -/
def moved (p : ℕ) : IoCall → Option (ℕ × ℕ)
  | .read fd _ | .write fd _ _ _ | .lseek fd _ _ =>
      if 0 ≤ fd ∧ fd < maxOpenFiles then some (p, fd.toNat) else none
  | .file _ | .openFile _ _ => none

/-- Which open the descriptors come from after a call: a copy comes from the open of its source, and
a slot that has been filled otherwise from this call. -/
def nextOrigin (t : Opened) (p : ℕ) (call : IoCall) (s : ℕ × ℕ) : ℕ × (ℕ × ℕ) :=
  match call.source t.tables p s with
  | some s₀ => t.origin s₀
  | none =>
    if (t.tables.files s).isNone ∧ ((call.effect t.tables p).files s).isSome then (t.time, s)
    else t.origin s

/-- A call by a live process. -/
def step (t : Opened) (c : ℕ × IoCall) : Opened :=
  if c.1 ∈ t.tables.live then
    let tables := c.2.effect t.tables c.1
    { tables
      time := t.time + 1
      origin := t.nextOrigin c.1 c.2
      position :=
        match moved c.1 c.2 with
        | some s =>
          match t.tables.files s with
          | some n =>
            Function.update t.position (t.origin s) (c.2.nextPosition (t.position (t.origin s))
              (t.tables.world n).length (t.tables.fileFlags s &&& oAppend != 0))
          | none => t.position
        | none => fun o => if o.1 = t.time then 0 else t.position o }
  else t

/-- The position of a descriptor is moved only if no other comes from the same open. -/
def Fair (t : Opened) (c : ℕ × IoCall) : Prop :=
  ∀ s, moved c.1 c.2 = some s → ∀ s', (t.tables.files s').isSome → t.origin s' = t.origin s → s' = s

def FairRun (t : Opened) : List (ℕ × IoCall) → Prop
  | [] => True
  | c :: calls => t.Fair c ∧ FairRun (t.step c) calls

/-- The call is a write to file `n` through a descriptor that comes from open `o`, at its position. -/
def WritesTo (o : ℕ × (ℕ × ℕ)) (n : ℕ) (t : Opened) (c : ℕ × IoCall) : Prop :=
  ∃ fd data accepted fill, c.2 = .write fd data accepted fill ∧ c.1 ∈ t.tables.live
    ∧ t.tables.fileAt c.1 fd = some n ∧ t.origin (c.1, fd.toNat) = o
    ∧ t.tables.fileFlags (c.1, fd.toNat) &&& oAppend = 0

/-- Data is written in turn to file `n` through descriptors that come from open `o`, while descriptors are copied and
closed. -/
def InTurn (o : ℕ × (ℕ × ℕ)) (n : ℕ) (t : Opened) : List (ℕ × IoCall) → Prop
  | [] => True
  | c :: calls => ((∃ call, c.2 = .file call) ∨ t.WritesTo o n c) ∧ InTurn o n (t.step c) calls

/-- The bytes that calls write. -/
def dataOf : List (ℕ × IoCall) → List UInt8
  | [] => []
  | (_, .write _ data accepted _) :: calls => data.take accepted ++ dataOf calls
  | _ :: calls => dataOf calls

/-- All descriptors have the position of the open that they come from, and what is written in turn through those of
one open is laid out consecutively from that position on and not overwritten. -/
structure Shared (t : Opened) : Prop where
  position (s : ℕ × ℕ) : (t.tables.files s).isSome → t.tables.fileOffsets s = t.position (t.origin s)
  same (s s' : ℕ × ℕ) : (t.tables.files s).isSome → (t.tables.files s').isSome →
    t.origin s = t.origin s' → t.tables.fileOffsets s = t.tables.fileOffsets s'
  laid (o : ℕ × (ℕ × ℕ)) (n : ℕ) (calls : List (ℕ × IoCall)) : o.1 < t.time → t.InTurn o n calls → t.FairRun calls →
    Laid (t.tables.world n) (t.position o) (dataOf calls) ((calls.foldl Opened.step t).tables.world n)
      ∧ (calls.foldl Opened.step t).position o = t.position o + (dataOf calls).length

end Opened

/-! ### Slots that calls fill and empty -/

section Slots

variable {W : Type} {ops : FileOps W} {k k₁ k₂ : FileTables W} {s : ℕ × ℕ} {p n offset : ℕ}
  {flags : BitVec 32}

/-- The call may have emptied slots; the others are as they were. -/
structure Empties (k k₁ : FileTables W) : Prop where
  slot (s : ℕ × ℕ) (n : ℕ) : k₁.files s = some n →
    k.files s = some n ∧ k₁.fileOffsets s = k.fileOffsets s
  live : k₁.live ⊆ k.live
  processCount : k₁.processCount = k.processCount

/-- The call may also have filled free slots of `p`, at position zero. -/
structure Fills (p : ℕ) (k k₁ : FileTables W) : Prop where
  slot (s : ℕ × ℕ) (n : ℕ) : k₁.files s = some n →
    (k.files s = some n ∧ k₁.fileOffsets s = k.fileOffsets s)
    ∨ (k.files s = none ∧ k₁.fileOffsets s = 0 ∧ s.1 = p)
  live : k₁.live ⊆ k.live
  processCount : k₁.processCount = k.processCount

lemma Empties.refl (k : FileTables W) : Empties k k
  := ⟨fun _ _ h => ⟨h, rfl⟩, Finset.Subset.refl _, rfl⟩

lemma Empties.trans (h : Empties k k₁) (h' : Empties k₁ k₂) : Empties k k₂
  := by
  refine ⟨fun s n hs => ?_, h'.live.trans h.live, h'.processCount.trans h.processCount⟩
  obtain ⟨hs₁, hoffset⟩ := h'.slot s n hs
  exact ⟨(h.slot s n hs₁).1, hoffset.trans (h.slot s n hs₁).2⟩

lemma Empties.fills (h : Empties k k₁) : Fills p k k₁
  := ⟨fun s n hs => .inl (h.slot s n hs), h.live, h.processCount⟩

lemma Fills.empties (h : Fills p k k₁) (h' : Empties k₁ k₂) : Fills p k k₂
  := by
  refine ⟨fun s n hs => ?_, h'.live.trans h.live, h'.processCount.trans h.processCount⟩
  obtain ⟨hs₁, hoffset⟩ := h'.slot s n hs
  rw [hoffset]
  exact h.slot s n hs₁

/-- Two calls fill slots, and the first one empties none. -/
lemma Fills.trans (h : Fills p k k₁) (h' : Fills p k₁ k₂)
    (hkeep : ∀ s, k₁.files s = none → k.files s = none) :
  Fills p k k₂
  := by
  refine ⟨fun s n hs => ?_, h'.live.trans h.live, h'.processCount.trans h.processCount⟩
  rcases h'.slot s n hs with ⟨hs₁, hoffset⟩ | ⟨hnone, hzero, hp⟩
  · rw [hoffset]
    exact h.slot s n hs₁
  · exact .inr ⟨hkeep s hnone, hzero, hp⟩

lemma fills_take {i : ℕ} (hfree : k.files (p, i) = none) : Fills p k (k.take (p, i) n 0 flags)
  := by
  refine ⟨fun s m hs => ?_, Finset.Subset.refl _, rfl⟩
  have hs' : update k.files (p, i) (some n) s = some m := hs
  by_cases hsi : s = (p, i)
  · subst hsi
    exact .inr ⟨hfree, update_self .., rfl⟩
  · rw [update_of_ne hsi] at hs'
    exact .inl ⟨hs', update_of_ne hsi ..⟩

lemma files_eq_none_of_take {s₀ : ℕ × ℕ} (hs : (k.take s₀ n offset flags).files s = none) :
  k.files s = none
  := by
  have hs' : update k.files s₀ (some n) s = none := hs
  by_cases hss : s = s₀
  · rw [hss, update_self] at hs'
    cases hs'
  · rwa [update_of_ne hss] at hs'

lemma files_eq_none_of_allocFd (hs : (k.allocFd p n flags).2.files s = none) : k.files s = none
  := by
  rw [allocFd_eq] at hs
  split at hs
  · exact hs
  · exact files_eq_none_of_take hs

/-- A new node has no slot yet. -/
lemma Fills.of_newNode (h : Fills p k.newNode k₁) : Fills p k k₁
  := ⟨h.slot, h.live, h.processCount⟩

lemma fills_allocFd : Fills p k (k.allocFd p n flags).2
  := by
  rw [allocFd_eq]
  split
  · exact (Empties.refl k).fills
  · next i hi => exact fills_take (firstFree_spec hi).2.2

lemma empties_release : Empties k (release ops k s n)
  := by
  have hoffsets : (release ops k s n).fileOffsets = update k.fileOffsets s 0 := by
    rw [release]
    split <;> rfl
  refine ⟨fun t m ht => ?_, live_release.subset, ?_⟩
  · rw [files_release] at ht
    by_cases hts : t = s
    · rw [hts, update_self] at ht
      cases ht
    · rw [update_of_ne hts] at ht
      rw [hoffsets, update_of_ne hts]
      exact ⟨ht, rfl⟩
  · rw [release]
    split <;> rfl

variable {fd : ℤ} {source : ℕ × ℕ → Option (ℕ × ℕ)}

lemma empties_sysClose : Empties k (sysClose ops k p fd).2
  := by
  rw [sysClose]
  split
  · exact Empties.refl k
  · exact empties_release

lemma empties_closeSlots {test : BitVec 32 → Bool} : Empties k (closeSlots ops p test k)
  := by
  rw [closeSlots]
  induction List.range maxOpenFiles generalizing k with
  | nil => exact Empties.refl k
  | cons i slots ih =>
    rw [List.foldl_cons]
    refine Empties.trans ?_ ih
    split
    · exact empties_sysClose
    · exact Empties.refl k

lemma fills_sysPipe2 : Fills p k (k.sysPipe2 p flags).2
  := by
  cases hr : k.firstFree p 3 with
  | none =>
    simp only [sysPipe2, hr]
    exact (Empties.refl k).fills
  | some rfd =>
    cases hw : k.firstFree p (rfd + 1) with
    | none =>
      simp only [sysPipe2, hr, hw]
      exact (Empties.refl k).fills
    | some wfd =>
      obtain ⟨-, -, hrfree⟩ := firstFree_spec hr
      obtain ⟨-, hle, hwfree⟩ := firstFree_spec hw
      have hne : (p, wfd) ≠ (p, rfd) := by
        intro heq
        have := (Prod.mk.inj heq).2
        omega
      rw [sysPipe2_eq hr hw]
      refine Fills.of_newNode (Fills.of_newNode (Fills.trans (fills_take hrfree) (fills_take ?_) ?_))
      · exact (update_of_ne hne ..).trans hwfree
      · exact fun s => files_eq_none_of_take

lemma fills_openFile {k : FileTables Contents} : Fills p k (k.openFile p n flags).2
  := by
  rw [openFile]
  split
  · have halloc : Fills p { k with world := update k.world n [] }
        (({ k with world := update k.world n [] } : FileTables Contents).allocFd p n flags).2 :=
      fills_allocFd
    exact ⟨halloc.slot, halloc.live, halloc.processCount⟩
  · exact fills_allocFd

lemma fills_sysEventfd : Fills p k (sysEventfd ops k p flags).2
  := by
  have halloc : Fills p k (k.newNode.allocFd p k.nodeCount flags).2 := fills_allocFd.of_newNode
  rw [sysEventfd]
  split
  · exact ⟨halloc.slot, halloc.live, halloc.processCount⟩
  · exact halloc

lemma fills_sysSocketpair : Fills p k (sysSocketpair ops k p).2
  := by
  have hboth : Fills p k ((k.newNode.newNode.allocFd p k.nodeCount oRdwr).2.allocFd p
      (k.nodeCount + 1) oRdwr).2 :=
    (fills_allocFd.trans fills_allocFd fun s => files_eq_none_of_allocFd).of_newNode.of_newNode
  rw [sysSocketpair]
  split_ifs
  · exact (hboth.empties empties_sysClose).empties empties_sysClose
  · exact hboth.empties empties_sysClose
  · exact hboth.empties empties_sysClose
  · exact hboth
  · exact hboth

/-! ### What calls do to positions -/

/-- No process has a number that is not given yet. -/
structure Numbered (k : FileTables W) : Prop where
  row (s : ℕ × ℕ) : (k.files s).isSome → s.1 < k.processCount
  live (p : ℕ) : p ∈ k.live → p < k.processCount

/-- What slots hold after a call: a copy from the source, what they held before, or a new descriptor
at position zero. -/
structure Transfers (source : ℕ × ℕ → Option (ℕ × ℕ)) (k k₁ : FileTables W) : Prop where
  numbered : Numbered k₁
  copied (s s₀ : ℕ × ℕ) (n : ℕ) : source s = some s₀ → k₁.files s = some n →
    k.files s₀ = some n ∧ k₁.fileOffsets s = k.fileOffsets s₀
  other (s : ℕ × ℕ) (n : ℕ) : source s = none → k₁.files s = some n →
    (k.files s = some n ∧ k₁.fileOffsets s = k.fileOffsets s)
    ∨ (k.files s = none ∧ k₁.fileOffsets s = 0)

lemma Fills.transfers (h : Fills p k k₁) (hk : Numbered k) (hp : p ∈ k.live) :
  Transfers (fun _ => none) k k₁
  := by
  refine ⟨⟨fun s hs => ?_, fun q hq => ?_⟩, nofun, fun s n _ hs => ?_⟩
  · obtain ⟨n, hn⟩ := isSome_iff_exists.mp hs
    rw [h.processCount]
    rcases h.slot s n hn with ⟨hold, -⟩ | ⟨-, -, hrow⟩
    · exact hk.row s (hold ▸ rfl)
    · rw [hrow]
      exact hk.live p hp
  · rw [h.processCount]
    exact hk.live q (h.live hq)
  · rcases h.slot s n hs with hold | ⟨hnone, hzero, -⟩
    · exact .inl hold
    · exact .inr ⟨hnone, hzero⟩

/-- A slot of the caller gets a copy. -/
lemma transfers_take {k₀ : FileTables W} {fd newfd : ℕ} (hempties : Empties k k₀)
    (hk : Numbered k) (hp : p ∈ k.live) (hfile : k₀.files (p, fd) = some n)
    (hsource : ∀ s, source s = if s = (p, newfd) then some (p, fd) else none) :
  Transfers source k (k₀.take (p, newfd) n (k₀.fileOffsets (p, fd)) flags)
  := by
  have hupdate : ∀ s, (k₀.take (p, newfd) n (k₀.fileOffsets (p, fd)) flags).files s
      = if s = (p, newfd) then some n else k₀.files s := fun s => update_apply ..
  have hoffset : ∀ s, (k₀.take (p, newfd) n (k₀.fileOffsets (p, fd)) flags).fileOffsets s
      = if s = (p, newfd) then k₀.fileOffsets (p, fd) else k₀.fileOffsets s :=
    fun s => update_apply ..
  obtain ⟨hfile', hoffset'⟩ := hempties.slot _ n hfile
  refine ⟨⟨fun s hs => ?_, fun q hq => ?_⟩, fun s s₀ m hs hm => ?_, fun s m hs hm => ?_⟩
  · rw [hupdate] at hs
    change s.1 < k₀.processCount
    rw [hempties.processCount]
    split_ifs at hs with hnew
    · rw [hnew]
      exact hk.live p hp
    · obtain ⟨m, hm⟩ := isSome_iff_exists.mp hs
      exact hk.row s ((hempties.slot s m hm).1 ▸ rfl)
  · change q < k₀.processCount
    rw [hempties.processCount]
    exact hk.live q (hempties.live hq)
  · rw [hsource] at hs
    split_ifs at hs with hnew
    rw [hupdate, if_pos hnew] at hm
    rw [hoffset, if_pos hnew, ← some.inj hs, ← some.inj hm]
    exact ⟨hfile', hoffset'⟩
  · rw [hsource] at hs
    split_ifs at hs with hnew
    rw [hupdate, if_neg hnew] at hm
    rw [hoffset, if_neg hnew]
    exact .inl (hempties.slot s m hm)

lemma transfers_none (h : Transfers (fun _ => none) k k₁) (hsource : ∀ s, source s = none) :
  Transfers source k k₁
  := by
  have heq : source = fun _ => none := funext hsource
  rwa [heq]

lemma transfers_refl (hk : Numbered k) : Transfers (fun _ => none) k k
  := ⟨hk, nofun, fun _ _ _ hs => .inl ⟨hs, rfl⟩⟩

/-- `dup` and `F_DUPFD`: a free slot gets a copy, if there is one. -/
lemma transfers_copy {start : ℕ} (flags : BitVec 32) (hk : Numbered k) (hp : p ∈ k.live)
    (hsource : ∀ s, source s = if (k.fileAt p fd).isSome
      ∧ (k.firstFree p start).map (Prod.mk p) = some s then some (p, fd.toNat) else none)
    (hsame : k.fileAt p fd = none ∨ k.firstFree p start = none → k₁ = k)
    (hcopy : ∀ n i, k.fileAt p fd = some n → k.firstFree p start = some i →
      k₁ = k.take (p, i) n (k.fileOffsets (p, fd.toNat)) flags) :
  Transfers source k k₁
  := by
  cases hfile : k.fileAt p fd with
  | none =>
    rw [hsame (.inl hfile)]
    apply transfers_none (transfers_refl hk)
    intro s
    rw [hsource, hfile]
    exact if_neg (fun h => nomatch h.1)
  | some n =>
    cases hfree : k.firstFree p start with
    | none =>
      rw [hsame (.inr hfree)]
      apply transfers_none (transfers_refl hk)
      intro s
      rw [hsource, hfree]
      exact if_neg (fun h => nomatch h.2)
    | some i =>
      rw [hcopy n i hfile hfree]
      apply transfers_take (Empties.refl k) hk hp (fileAt_spec hfile).2.2
      intro s
      rw [hsource, hfile, hfree]
      simp only [isSome_some, map_some, true_and, some.injEq, eq_comm (a := s)]

lemma transfers_dup (hk : Numbered k) (hp : p ∈ k.live) :
  Transfers ((FileCall.dup fd).source k p) k (k.sysDup p fd).2
  := by
  refine transfers_copy (k.fileFlags (p, fd.toNat) &&& ~~~oCloexec) hk hp (fun s => rfl) ?_ ?_
  · rintro (hnone | hnone)
    · simp only [sysDup, hnone]
    · simp only [sysDup, hnone]
      split <;> rfl
  · intro n i hn hi
    simp only [sysDup, hn, hi]

lemma transfers_fcntlDupfd {cloexec : Bool} {arg : Fin (2 ^ 31)} (hk : Numbered k) (hp : p ∈ k.live) :
  Transfers ((FileCall.fcntlDupfd fd cloexec arg).source k p) k (k.sysFcntlDupfd p fd cloexec arg).2
  := by
  refine transfers_copy (if cloexec then k.fileFlags (p, fd.toNat) ||| oCloexec
    else k.fileFlags (p, fd.toNat) &&& ~~~oCloexec) hk hp (fun s => rfl) ?_ ?_
  · rintro (hnone | hnone)
    · simp only [sysFcntlDupfd, hnone]
    · simp only [sysFcntlDupfd, hnone]
      split <;> rfl
  · intro n i hn hi
    simp only [sysFcntlDupfd, hn, hi]

lemma transfers_dup2 {oldfd newfd : ℤ} (hk : Numbered k) (hp : p ∈ k.live) :
  Transfers ((FileCall.dup2 oldfd newfd).source k p) k (sysDup2 ops k p oldfd newfd).2
  := by
  rw [sysDup2]
  cases hfile : k.fileAt p oldfd with
  | none =>
    apply transfers_none (transfers_refl hk)
    intro s
    rw [FileCall.source, hfile]
    exact if_neg (fun h => by cases h.1)
  | some n =>
    obtain ⟨hold, -, hslot⟩ := fileAt_spec hfile
    dsimp only
    split
    · apply transfers_none (transfers_refl hk)
      intro s
      exact if_neg (fun h => by omega)
    split
    · next heq =>
      apply transfers_none (transfers_refl hk)
      intro s
      exact if_neg (fun h => h.2.2.2.1 heq)
    next hne =>
    have hother : (p, oldfd.toNat) ≠ (p, newfd.toNat) := by
      intro heq
      have := (Prod.mk.inj heq).2
      omega
    set k₀ := if (k.files (p, newfd.toNat)).isSome then (sysClose ops k p newfd).2 else k with hk₀
    have hempties : Empties k k₀ := by
      rw [hk₀]
      split
      · exact empties_sysClose
      · exact Empties.refl k
    have hslot₀ : k₀.files (p, oldfd.toNat) = some n := by
      rw [hk₀]
      split
      · rw [sysClose]
        split
        · exact hslot
        · rw [files_release, update_of_ne hother, hslot]
      · exact hslot
    apply transfers_take hempties hk hp hslot₀
    intro s
    rw [FileCall.source, hfile]
    by_cases hs : s = (p, newfd.toNat)
    · rw [if_pos hs, if_pos ⟨rfl, by omega, by omega, hne, hs⟩]
    · rw [if_neg hs, if_neg (fun h => hs h.2.2.2.2)]

/-- A new process has got copies of descriptors of `p`. -/
structure RowCopied (k : FileTables W) (p : ℕ) (k₁ : FileTables W) : Prop where
  others (s : ℕ × ℕ) : s.1 ≠ k.processCount →
    k₁.files s = k.files s ∧ k₁.fileOffsets s = k.fileOffsets s
  child (i n : ℕ) : k₁.files (k.processCount, i) = some n →
    k.files (p, i) = some n ∧ k₁.fileOffsets (k.processCount, i) = k.fileOffsets (p, i)
  live : k₁.live = k.birth.live
  processCount : k₁.processCount = k.processCount + 1

lemma RowCopied.copySlot (h : RowCopied k p k₁) (hp : p ≠ k.processCount) (i : ℕ) :
  RowCopied k p (copySlot p k.processCount k₁ i)
  := by
  rw [FileTables.copySlot]
  split
  · exact h
  next n hn =>
    refine ⟨fun s hs => ?_, fun j m hm => ?_, h.live, h.processCount⟩
    · have hne : s ≠ (k.processCount, i) := fun heq => hs (heq ▸ rfl)
      rw [← (h.others s hs).1, ← (h.others s hs).2]
      exact ⟨update_of_ne hne .., update_of_ne hne ..⟩
    · have hm' : update k₁.files (k.processCount, i) (some n) (k.processCount, j)
        = some m := hm
      by_cases hji : j = i
      · subst hji
        rw [update_self] at hm'
        rw [← hm', ← (h.others (p, j) hp).1, ← (h.others (p, j) hp).2]
        exact ⟨hn, update_self ..⟩
      · have hne : (k.processCount, j) ≠ (k.processCount, i) :=
          fun heq => hji (Prod.mk.inj heq).2
        rw [update_of_ne hne] at hm'
        refine ⟨(h.child j m hm').1, ?_⟩
        rw [← (h.child j m hm').2]
        exact update_of_ne hne ..

lemma RowCopied.foldl (hp : p ≠ k.processCount) (slots : List ℕ) (h : RowCopied k p k₁) :
  RowCopied k p (slots.foldl (FileTables.copySlot p k.processCount) k₁)
  := by
  induction slots generalizing k₁ with
  | nil => exact h
  | cons i slots ih => exact ih (h.copySlot hp i)

lemma rowCopied_sysClone (hp : p ≠ k.processCount)
    (hrow : ∀ i, k.files (k.processCount, i) = none) :
  RowCopied k p (k.sysClone p)
  := by
  have hstart : RowCopied k p k.birth := by
    refine ⟨fun _ _ => ⟨rfl, rfl⟩, fun i n hn => ?_, rfl, rfl⟩
    have hnone : k.birth.files (k.processCount, i) = none := hrow i
    rw [hnone] at hn
    cases hn
  exact hstart.foldl hp _

lemma transfers_clone (hk : Numbered k) (hp : p ∈ k.live) :
  Transfers (FileCall.clone.source k p) k (k.sysClone p)
  := by
  have hne : p ≠ k.processCount := Nat.ne_of_lt (hk.live p hp)
  have hrow : ∀ i, k.files (k.processCount, i) = none := by
    intro i
    rw [← not_isSome_iff_eq_none]
    exact fun hs => Nat.lt_irrefl _ (hk.row _ hs)
  have hcopied := rowCopied_sysClone hne hrow
  generalize k.sysClone p = k₁ at hcopied ⊢
  refine ⟨⟨fun s hs => ?_, fun q hq => ?_⟩, fun s s₀ n hs hn => ?_, fun s n hs hn => ?_⟩
  · rw [hcopied.processCount]
    by_cases hsc : s.1 = k.processCount
    · omega
    · rw [(hcopied.others s hsc).1] at hs
      exact Nat.lt_succ_of_lt (hk.row s hs)
  · rw [hcopied.live] at hq
    rw [hcopied.processCount]
    rcases Finset.mem_insert.mp hq with rfl | hq
    · exact Nat.lt_succ_self _
    · exact Nat.lt_succ_of_lt (hk.live q hq)
  · rw [FileCall.source] at hs
    split_ifs at hs with hsc
    obtain ⟨q, i⟩ := s
    subst hsc
    rw [← some.inj hs]
    exact hcopied.child i n hn
  · rw [FileCall.source] at hs
    split_ifs at hs with hsc
    rw [(hcopied.others s hsc).1] at hn
    exact .inl ⟨hn, (hcopied.others s hsc).2⟩

lemma Transfers.setFlags (h : Transfers source k k₁) (s : ℕ × ℕ) (flags : BitVec 32) :
  Transfers source k (k₁.setFlags s flags)
  := ⟨⟨h.numbered.row, h.numbered.live⟩, h.copied, h.other⟩

lemma transfers_dup3 {oldfd newfd : ℤ} (hk : Numbered k) (hp : p ∈ k.live) :
  Transfers ((FileCall.dup3 oldfd newfd flags).source k p) k (sysDup3 ops k p oldfd newfd flags).2
  := by
  have hdup2 : Transfers ((FileCall.dup3 oldfd newfd flags).source k p) k
      (sysDup2 ops k p oldfd newfd).2 := transfers_dup2 hk hp
  rw [sysDup3]
  split
  · next heq =>
    apply transfers_none (transfers_refl hk)
    intro s
    exact if_neg (fun h => h.2.2.2.1 heq)
  · dsimp only
    split
    · exact hdup2.setFlags _ _
    · exact hdup2

lemma empties_sysExit : Empties k (sysExit ops k p)
  := by
  have hclose : Empties k (closeSlots ops p (fun _ => true) k) := empties_closeSlots
  rw [sysExit]
  generalize closeSlots ops p (fun _ => true) k = k₁ at hclose ⊢
  exact ⟨hclose.slot, (Finset.erase_subset _ _).trans hclose.live, hclose.processCount⟩

lemma empties_sysExecve : Empties k (sysExecve ops k p)
  := by
  exact empties_closeSlots

/-- All calls transfer descriptors as their sources say. -/
lemma FileCall.transfers (call : FileCall) (hk : Numbered k) (hp : p ∈ k.live) :
  Transfers (call.source k p) k (call.effect ops k p)
  := by
  cases call with
  | pipe2 flags => exact fills_sysPipe2.transfers hk hp
  | socket flags => exact (fills_allocFd.of_newNode).transfers hk hp
  | accept flags => exact (fills_allocFd.of_newNode).transfers hk hp
  | eventfd flags => exact fills_sysEventfd.transfers hk hp
  | socketpair => exact fills_sysSocketpair.transfers hk hp
  | dup oldfd => exact transfers_dup hk hp
  | dup2 oldfd newfd => exact transfers_dup2 hk hp
  | dup3 oldfd newfd flags => exact transfers_dup3 hk hp
  | fcntlDupfd fd cloexec arg => exact transfers_fcntlDupfd hk hp
  | setFlags fd flags => exact (transfers_refl hk).setFlags _ _
  | close fd => exact empties_sysClose.fills.transfers hk hp
  | clone => exact transfers_clone hk hp
  | execve => exact empties_sysExecve.fills.transfers hk hp
  | exit => exact empties_sysExit.fills.transfers hk hp

end Slots

namespace Opened

variable {t : Opened} {p : ℕ}

/-- The positions agree, and all opens are in the past. -/
structure Agrees (t : Opened) : Prop where
  numbered : Numbered t.tables
  position (s : ℕ × ℕ) : (t.tables.files s).isSome → t.tables.fileOffsets s = t.position (t.origin s)
  past (s : ℕ × ℕ) : (t.tables.files s).isSome → (t.origin s).1 < t.time

variable {call : IoCall} {k : FileTables Contents} {fd : ℤ}

/-- A call that moves nothing. -/
lemma Agrees.step_of_transfers (h : Agrees t) (hp : p ∈ t.tables.live) (hmoved : moved p call = none)
    (htransfers : Transfers (call.source t.tables p) t.tables (call.effect t.tables p)) :
  Agrees (t.step (p, call))
  := by
  have hslot : ∀ s, ((call.effect t.tables p).files s).isSome →
      (t.nextOrigin p call s).1 < t.time + 1 ∧ (call.effect t.tables p).fileOffsets s
        = if (t.nextOrigin p call s).1 = t.time then 0 else t.position (t.nextOrigin p call s) := by
    intro s hs
    obtain ⟨n, hn⟩ := isSome_iff_exists.mp hs
    rw [nextOrigin]
    cases hsource : call.source t.tables p s with
    | some s₀ =>
      obtain ⟨hfile, hoffset⟩ := htransfers.copied s s₀ n hsource hn
      have hopen : (t.tables.files s₀).isSome := hfile ▸ rfl
      have hpast := h.past s₀ hopen
      rw [if_neg (Nat.ne_of_lt hpast), hoffset]
      exact ⟨Nat.lt_succ_of_lt hpast, h.position s₀ hopen⟩
    | none =>
      rcases htransfers.other s n hsource hn with ⟨hfile, hoffset⟩ | ⟨hnone, hzero⟩
      · have hopen : (t.tables.files s).isSome := hfile ▸ rfl
        have hpast := h.past s hopen
        rw [if_neg (fun hnew => by rw [hfile] at hnew; cases hnew.1), if_neg (Nat.ne_of_lt hpast),
          hoffset]
        exact ⟨Nat.lt_succ_of_lt hpast, h.position s hopen⟩
      · rw [if_pos ⟨hnone ▸ rfl, hs⟩, if_pos rfl]
        exact ⟨Nat.lt_succ_self _, hzero⟩
  rw [step, if_pos hp]
  refine ⟨htransfers.numbered, fun s hs => ?_, fun s hs => (hslot s hs).1⟩
  simp only [hmoved]
  exact (hslot s hs).2

/-- What a read, a write or a seek does to the tables: at most one position changes, as it should. -/
structure Moves (k : FileTables Contents) (s : ℕ × ℕ) (call : IoCall) (k₁ : FileTables Contents) : Prop where
  files : k₁.files = k.files
  live : k₁.live = k.live
  processCount : k₁.processCount = k.processCount
  others (s' : ℕ × ℕ) : s' ≠ s → k₁.fileOffsets s' = k.fileOffsets s'
  self (n : ℕ) : k.files s = some n → k₁.fileOffsets s
    = call.nextPosition (k.fileOffsets s) (k.world n).length (k.fileFlags s &&& oAppend != 0)

lemma moves_none {s : ℕ × ℕ} (h : k.files s = none) : Moves k s call k
  := ⟨rfl, rfl, rfl, fun _ _ => rfl, fun n hn => by rw [h] at hn; cases hn⟩

lemma moves_setOffset {s : ℕ × ℕ} {n offset : ℕ} (h : k.files s = some n) (world : Contents)
    (hoffset : offset = call.nextPosition (k.fileOffsets s) (k.world n).length (k.fileFlags s &&& oAppend != 0)) :
  Moves k s call { k.setOffset s offset with world := world }
  := by
  refine ⟨rfl, rfl, rfl, fun _ hs => update_of_ne hs .., fun m hm => ?_⟩
  obtain rfl := some.inj (h.symm.trans hm)
  exact (update_self ..).trans hoffset

lemma moves_same {s : ℕ × ℕ} {n : ℕ} (h : k.files s = some n) (hoffset : k.fileOffsets s
      = call.nextPosition (k.fileOffsets s) (k.world n).length (k.fileFlags s &&& oAppend != 0)) :
  Moves k s call k
  := by
  refine ⟨rfl, rfl, rfl, fun _ _ => rfl, fun m hm => ?_⟩
  obtain rfl := some.inj (h.symm.trans hm)
  exact hoffset

lemma fileAt_of_range (hfd : 0 ≤ fd ∧ fd < maxOpenFiles) : k.fileAt p fd = k.files (p, fd.toNat)
  := if_neg (by omega)

lemma moves_sysRead (hfd : 0 ≤ fd ∧ fd < maxOpenFiles) (count : ℕ) :
  Moves k (p, fd.toNat) (.read fd count) (k.sysRead p fd count).2
  := by
  rw [sysRead, fileAt_of_range hfd]
  cases hfile : k.files (p, fd.toNat) with
  | none =>
    split <;> exact moves_none hfile
  | some n =>
    have hlen : (((k.world n).drop (k.fileOffsets (p, fd.toNat))).take count).length
        = min count ((k.world n).length - k.fileOffsets (p, fd.toNat)) := by
      rw [List.length_take, List.length_drop]
    split
    next hzero =>
      apply moves_same hfile
      rw [IoCall.nextPosition, hzero, Nat.zero_min, Nat.add_zero]
    · dsimp only
      split
      · exact moves_setOffset hfile k.world (by rw [hlen, IoCall.nextPosition])
      next hnone =>
        apply moves_same hfile
        rw [IoCall.nextPosition, ← hlen]
        omega

lemma moves_sysWrite (hfd : 0 ≤ fd ∧ fd < maxOpenFiles) (data : List UInt8) (accepted : ℕ) (fill : ℕ → UInt8) :
  Moves k (p, fd.toNat) (.write fd data accepted fill) (k.sysWrite p fd data accepted fill).2
  := by
  rw [sysWrite, fileAt_of_range hfd]
  cases hfile : k.files (p, fd.toNat) with
  | none =>
    split <;> exact moves_none hfile
  | some n =>
    have hstop (hnil : data.take accepted = []) : Moves k (p, fd.toNat) (.write fd data accepted fill) k := by
      apply moves_same hfile
      rw [IoCall.nextPosition, if_pos hnil]
    split
    next hnil => exact hstop (by rw [hnil, List.take_nil])
    · dsimp only
      split
      next hpos =>
        apply moves_setOffset hfile
        rw [IoCall.nextPosition, if_neg (List.ne_nil_of_length_pos hpos)]
        simp only [bne_iff_ne]
      next hnone => exact hstop (List.eq_nil_of_length_eq_zero (by omega))

lemma moves_sysLseek (hfd : 0 ≤ fd ∧ fd < maxOpenFiles) (offset : ℤ) (whence : ℕ) :
  Moves k (p, fd.toNat) (.lseek fd offset whence) (k.sysLseek p fd offset whence).2
  := by
  rw [sysLseek, fileAt_of_range hfd]
  cases hfile : k.files (p, fd.toNat) with
  | none => exact moves_none hfile
  | some n =>
    have hseek (target : ℤ) (htarget : (IoCall.lseek fd offset whence).nextPosition (k.fileOffsets (p, fd.toNat))
          (k.world n).length (k.fileFlags (p, fd.toNat) &&& oAppend != 0)
        = if target < 0 then k.fileOffsets (p, fd.toNat) else target.toNat) :
        Moves k (p, fd.toNat) (.lseek fd offset whence)
          (if target < 0 then (einval, k) else (target, k.setOffset (p, fd.toNat) target.toNat)).2 := by
      split
      next hneg => exact moves_same hfile (by rw [htarget, if_pos hneg])
      next hneg => exact moves_setOffset hfile k.world (by rw [htarget, if_neg hneg])
    dsimp only
    split
    · exact hseek _ rfl
    · exact hseek _ rfl
    · exact hseek _ rfl
    next hzero hone htwo =>
      apply moves_same hfile
      rw [IoCall.nextPosition]
      · rfl
      · exact hzero
      · exact hone
      · exact htwo

/-- A read, a write or a seek through the only descriptor of an open. -/
lemma Agrees.step_of_moves {s : ℕ × ℕ} (h : Agrees t) (hp : p ∈ t.tables.live)
    (hmoved : moved p call = some s) (hmoves : Moves t.tables s call (call.effect t.tables p))
    (hsource : ∀ s, call.source t.tables p s = none) (hfair : t.Fair (p, call)) :
  Agrees (t.step (p, call))
  := by
  have horigin : t.nextOrigin p call = t.origin := by
    funext s'
    rw [nextOrigin, hsource, hmoves.files]
    exact if_neg (fun hnew => by
      cases hfile : t.tables.files s' with
      | none => rw [hfile] at hnew; cases hnew.2
      | some n => rw [hfile] at hnew; cases hnew.1)
  rw [step, if_pos hp]
  refine ⟨⟨fun s' hs' => ?_, fun q hq => ?_⟩, fun s' hs' => ?_, fun s' hs' => ?_⟩
  · rw [hmoves.processCount]
    rw [hmoves.files] at hs'
    exact h.numbered.row s' hs'
  · rw [hmoves.processCount]
    rw [hmoves.live] at hq
    exact h.numbered.live q hq
  · rw [hmoves.files] at hs'
    simp only [hmoved, horigin]
    cases hfile : t.tables.files s with
    | some n =>
      dsimp only
      by_cases hss : s' = s
      · rw [hss, update_self, hmoves.self n hfile, h.position s (hss ▸ hs')]
      · have hne : t.origin s' ≠ t.origin s := fun heq => hss (hfair s hmoved s' hs' heq)
        rw [update_of_ne hne, hmoves.others s' hss]
        exact h.position s' hs'
    | none =>
      have hss : s' ≠ s := by
        rintro rfl
        rw [hfile] at hs'
        cases hs'
      rw [hmoves.others s' hss]
      exact h.position s' hs'
  · rw [hmoves.files] at hs'
    rw [horigin]
    exact Nat.lt_succ_of_lt (h.past s' hs')

/-- A read, a write or a seek, which does nothing if the descriptor is out of range. -/
lemma Agrees.step_of_fd (h : Agrees t) (hp : p ∈ t.tables.live)
    (hmoved : moved p call = if 0 ≤ fd ∧ fd < maxOpenFiles then some (p, fd.toNat) else none)
    (hmoves : 0 ≤ fd ∧ fd < maxOpenFiles → Moves t.tables (p, fd.toNat) call (call.effect t.tables p))
    (hnone : t.tables.fileAt p fd = none → call.effect t.tables p = t.tables)
    (hsource : ∀ s, call.source t.tables p s = none) (hfair : t.Fair (p, call)) :
  Agrees (t.step (p, call))
  := by
  by_cases hfd : 0 ≤ fd ∧ fd < maxOpenFiles
  · rw [if_pos hfd] at hmoved
    exact h.step_of_moves hp hmoved (hmoves hfd) hsource hfair
  rw [if_neg hfd] at hmoved
  apply h.step_of_transfers hp hmoved
  apply transfers_none _ hsource
  rw [hnone (by rw [fileAt, if_pos (by omega)])]
  exact transfers_refl h.numbered

lemma Agrees.step {c : ℕ × IoCall} (h : Agrees t) (hfair : t.Fair c) : Agrees (t.step c)
  := by
  obtain ⟨p, call⟩ := c
  by_cases hp : p ∈ t.tables.live
  · cases call with
    | file call => exact h.step_of_transfers hp rfl (call.transfers h.numbered hp)
    | openFile n flags =>
      apply h.step_of_transfers hp rfl
      exact fills_openFile.transfers h.numbered hp
    | read fd count =>
      apply h.step_of_fd hp rfl (fun hfd => moves_sysRead hfd count) _ (fun _ => rfl) hfair
      intro hnone
      simp only [IoCall.effect, sysRead, hnone]
      split <;> rfl
    | write fd data accepted fill =>
      apply h.step_of_fd hp rfl (fun hfd => moves_sysWrite hfd data accepted fill) _ (fun _ => rfl) hfair
      intro hnone
      simp only [IoCall.effect, sysWrite, hnone]
      split <;> rfl
    | lseek fd offset whence =>
      apply h.step_of_fd hp rfl (fun hfd => moves_sysLseek hfd offset whence) _ (fun _ => rfl) hfair
      intro hnone
      simp only [IoCall.effect, sysLseek, hnone]
  · rw [Opened.step, if_neg hp]
    exact h

lemma Agrees.run (calls : List (ℕ × IoCall)) (h : Agrees t) (hfair : t.FairRun calls) :
  Agrees (calls.foldl Opened.step t)
  := by
  induction calls generalizing t with
  | nil => exact h
  | cons c calls ih => exact ih (h.step hfair.1) hfair.2

/-! ### Data written in turn -/

lemma world_release (s : ℕ × ℕ) (n : ℕ) : (release ops k s n).world = k.world
  := by
  rw [release]
  split <;> rfl

lemma world_sysClose : (sysClose ops k p fd).2.world = k.world
  := by
  rw [sysClose]
  split
  · rfl
  · exact world_release _ _

lemma world_allocFd (n : ℕ) (flags : BitVec 32) : (k.allocFd p n flags).2.world = k.world
  := by
  rw [allocFd]
  split <;> rfl

lemma world_closeSlots (test : BitVec 32 → Bool) : (closeSlots ops p test k).world = k.world
  := by
  rw [closeSlots]
  induction List.range maxOpenFiles generalizing k with
  | nil => rfl
  | cons i slots ih =>
    rw [List.foldl_cons, ih]
    split
    · exact world_sysClose
    · rfl

lemma world_sysClone : (k.sysClone p).world = k.world
  := by
  have hfold (slots : List ℕ) (child : ℕ) (k' : FileTables Contents) :
      (slots.foldl (copySlot p child) k').world = k'.world := by
    induction slots generalizing k' with
    | nil => rfl
    | cons i slots ih =>
      rw [List.foldl_cons, ih, copySlot]
      split <;> rfl
  exact hfold _ _ _

lemma world_sysDup2 (oldfd newfd : ℤ) : (sysDup2 ops k p oldfd newfd).2.world = k.world
  := by
  rw [sysDup2]
  split
  · rfl
  split_ifs
  · rfl
  · rfl
  · exact world_sysClose
  · rfl

/-- Regular files are left alone by the calls that make, copy or close descriptors. -/
lemma world_file (call : FileCall) : (call.effect ops k p).world = k.world
  := by
  cases call with
  | pipe2 flags =>
    simp only [FileCall.effect, sysPipe2]
    split
    · rfl
    split <;> rfl
  | socket flags => exact world_allocFd _ _
  | accept flags => exact world_allocFd _ _
  | eventfd flags =>
    simp only [FileCall.effect, sysEventfd]
    split <;> exact world_allocFd (k := k.newNode) _ _
  | socketpair =>
    have hboth : ((k.newNode.newNode.allocFd p k.nodeCount oRdwr).2.allocFd p (k.nodeCount + 1) oRdwr).2.world
        = k.world := (world_allocFd _ _).trans (world_allocFd _ _)
    simp only [FileCall.effect, sysSocketpair]
    split_ifs
    · exact world_sysClose.trans (world_sysClose.trans hboth)
    · exact world_sysClose.trans hboth
    · exact world_sysClose.trans hboth
    · exact hboth
    · exact hboth
  | dup oldfd =>
    simp only [FileCall.effect, sysDup]
    split
    · rfl
    split <;> rfl
  | dup2 oldfd newfd => exact world_sysDup2 _ _
  | dup3 oldfd newfd flags =>
    simp only [FileCall.effect, sysDup3]
    split_ifs
    · rfl
    · exact world_sysDup2 _ _
    · exact world_sysDup2 _ _
  | fcntlDupfd fd cloexec arg =>
    simp only [FileCall.effect, sysFcntlDupfd]
    split
    · rfl
    split <;> rfl
  | setFlags fd flags => rfl
  | close fd => exact world_sysClose
  | clone => exact world_sysClone
  | execve => rw [FileCall.effect, sysExecve, world_closeSlots]
  | exit => simp only [FileCall.effect, sysExit, world_closeSlots]

/-- A call that makes, copies or closes descriptors moves no position of an open in the past. -/
lemma step_file {o : ℕ × (ℕ × ℕ)} (ho : o.1 < t.time) (call : FileCall) :
  (t.step (p, .file call)).tables.world = t.tables.world ∧ (t.step (p, .file call)).position o = t.position o
  := by
  rw [step]
  split
  · exact ⟨world_file call, if_neg (Nat.ne_of_lt ho)⟩
  · exact ⟨rfl, rfl⟩

/-- A write at the position of its open. -/
lemma Agrees.step_write {o : ℕ × (ℕ × ℕ)} {n : ℕ} (h : Agrees t) (hp : p ∈ t.tables.live)
    (hfile : t.tables.fileAt p fd = some n) (ho : t.origin (p, fd.toNat) = o)
    (happend : t.tables.fileFlags (p, fd.toNat) &&& oAppend = 0) (data : List UInt8) (accepted : ℕ)
    (fill : ℕ → UInt8) :
  Laid (t.tables.world n) (t.position o) (data.take accepted)
      ((t.step (p, .write fd data accepted fill)).tables.world n)
    ∧ (t.step (p, .write fd data accepted fill)).position o = t.position o + (data.take accepted).length
  := by
  obtain ⟨hlo, hhi, hslot⟩ := fileAt_spec hfile
  have hpos : t.tables.fileOffsets (p, fd.toNat) = t.position o := by
    rw [h.position _ (hslot ▸ rfl), ho]
  have hmoved : moved p (.write fd data accepted fill) = some (p, fd.toNat) := if_pos ⟨hlo, by omega⟩
  rw [Opened.step, if_pos hp]
  simp only [hmoved, hslot, ho, update_self, IoCall.nextPosition, IoCall.effect, sysWrite, hfile, happend]
  by_cases hnil : data.take accepted = []
  · simp only [hnil, if_true, List.length_nil, Nat.add_zero, and_true]
    simpa [hnil] using Laid.refl (t.tables.world n) (t.position o)
  · have hdata : data ≠ [] := by
      rintro rfl
      exact hnil List.take_nil
    have hlen := List.length_pos_of_ne_nil hnil
    simp only [if_neg hnil, if_neg hdata, if_pos hlen, hpos]
    refine ⟨?_, by simp⟩
    have hlaid : Laid (t.tables.world n) (t.position o) _ _ := laid_writeAt fill hnil
    simpa using hlaid

lemma Agrees.laid {o : ℕ × (ℕ × ℕ)} {n : ℕ} : ∀ (calls : List (ℕ × IoCall)) {t : Opened}, Agrees t → o.1 < t.time →
    t.InTurn o n calls → t.FairRun calls →
    Laid (t.tables.world n) (t.position o) (dataOf calls) ((calls.foldl Opened.step t).tables.world n)
      ∧ (calls.foldl Opened.step t).position o = t.position o + (dataOf calls).length
  | [], t, _, _, _, _ => ⟨Laid.refl _ _, rfl⟩
  | (p, call) :: calls, t, h, ho, hturn, hfair => by
    have htime : o.1 < (t.step (p, call)).time := by
      rw [Opened.step]
      split
      · exact Nat.lt_succ_of_lt ho
      · exact ho
    obtain ⟨hlaid, hpos⟩ := Agrees.laid calls (h.step hfair.1) htime hturn.2 hfair.2
    rcases hturn.1 with ⟨file, rfl⟩ | ⟨fd, data, accepted, fill, rfl, hp, hfile, horigin, happend⟩
    · obtain ⟨hworld, hsame⟩ := step_file (p := p) ho file
      rw [hworld, hsame] at hlaid
      rw [hsame] at hpos
      exact ⟨hlaid, hpos⟩
    · obtain ⟨hfirst, hmove⟩ := h.step_write hp hfile horigin happend data accepted fill
      rw [hmove] at hlaid hpos
      refine ⟨hfirst.append hlaid, hpos.trans ?_⟩
      rw [dataOf, List.length_append, Nat.add_assoc]

lemma Agrees.shared (h : Agrees t) : Shared t
  := by
  refine ⟨h.position, fun s s' hs hs' horigin => ?_, fun o n calls => Agrees.laid calls h⟩
  rw [h.position s hs, h.position s' hs', horigin]

end Opened

end FileTables
