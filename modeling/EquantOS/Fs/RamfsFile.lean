import EquantOS.Fs.FileCalls
import EquantOS.Lib.ByteFile

/-!
# A file of ramfs

Reads and writes of a file of ramfs through its node.  As long as no write begins behind the end of the file
and the sums of `ramfs_write` and `kmalloc` do not wrap, the file is a byte array.  Where a write begins behind
the end, the bytes before it are what was in the buffer.
-/

open Function

namespace Vfs

open Sys

/-! ### Blocks -/

lemma le_of_find?_bucket {size bucket : ℕ} (h : bucketSizes.find? (size ≤ ·) = some bucket) : size ≤ bucket
  := by
  have hfound := List.find?_some h
  exact of_decide_eq_true hfound

lemma le_oldSize (size : ℕ) : size ≤ oldSize size
  := by
  unfold oldSize
  cases h : bucketSizes.find? (size ≤ ·) with
  | none => exact le_rfl
  | some bucket => exact le_of_find?_bucket h

/-- A block has room for what was asked for, if the sums for its pages do not wrap. -/
lemma le_blockRoom {size : ℕ} (hsize : size + 32 + 4095 < 2 ^ 64) : size ≤ blockRoom size
  := by
  unfold blockRoom
  cases h : bucketSizes.find? (size ≤ ·) with
  | none =>
    change size ≤ pagesNeeded size * 4096 - 32
    have hheader : (size + 32) % 2 ^ 64 = size + 32 := Nat.mod_eq_of_lt (by omega)
    unfold pagesNeeded
    rw [hheader, Nat.mod_eq_of_lt hsize]
    omega
  | some bucket => exact le_of_find?_bucket h

namespace Sys

variable {δ : Type} {drv : Drivers δ} {s s' t : Sys δ} {id f offset required : ℕ} {c e : ByteFile}

/-! ### Growing -/

/-- What `krealloc` keeps of a file. -/
structure Grown (s s' : Sys δ) (f : ℕ) : Prop where
  nodes : s'.nodes = s.nodes
  capacity : (s.data f).capacity ≤ (s'.data f).capacity
  room : (s'.data f).capacity ≤ (s'.data f).room
  bytes {k : ℕ} : k < (s.data f).capacity → (s'.data f).bytes k = (s.data f).bytes k

/-- The buffer has room for what is needed, or there is no memory and nothing changes. -/
lemma grow_spec (hroom : (s.data f).capacity ≤ (s.data f).room)
    (hrequired : required + 1024 + 32 + 4095 < 2 ^ 64) :
  (s.grow f required = (false, { s with allocations := s.allocations + 1 }) ∧ s.memory s.allocations = false)
    ∨ ((s.grow f required).1 = true ∧ Grown s (s.grow f required).2 f
      ∧ required ≤ ((s.grow f required).2.data f).capacity)
  := by
  unfold grow
  by_cases hcap : (s.data f).capacity < required
  · have hnew : (required + 1024) % 2 ^ 64 = required + 1024 := Nat.mod_eq_of_lt (by omega)
    simp only [if_pos hcap, hnew, if_neg (show required + 1024 ≠ 0 by omega)]
    cases hmem : s.memory s.allocations with
    | false =>
      left
      simp [Sys.kmalloc, hmem]
    | true =>
      right
      obtain ⟨new, hdata⟩ : ∃ new : FileData, new
        = { capacity := required + 1024
            room := blockRoom (required + 1024)
            bytes := fun k =>
              if k < (if (s.data f).room = 0 then 0 else min (required + 1024) (oldSize (s.data f).capacity))
              then (s.data f).bytes k else s.newByte (required + 1024) k } := ⟨_, rfl⟩
      have hblock : required + 1024 ≤ blockRoom (required + 1024) := le_blockRoom hrequired
      have hgrown {s₁ : Sys δ} (hnodes : s₁.nodes = s.nodes) (hself : s₁.data f = new) :
          Grown s s₁ f ∧ required ≤ (s₁.data f).capacity := by
        rw [hdata] at hself
        refine ⟨⟨hnodes, ?_, ?_, fun {k} hk => ?_⟩, ?_⟩
        · rw [hself]
          exact hcap.le.trans (Nat.le_add_right _ _)
        · rw [hself]
          dsimp only
          exact hblock
        · -- the old buffer is there, and is copied
          rw [hself]
          have hold : (s.data f).room ≠ 0 := by omega
          have hsize := le_oldSize (s.data f).capacity
          exact if_pos (by rw [if_neg hold, lt_min_iff]; omega)
        · rw [hself]
          exact Nat.le_add_right _ _
      simp only [Sys.kmalloc, hmem, if_true, ← hdata]
      split
      · exact ⟨trivial, hgrown rfl (update_self ..)⟩
      · exact ⟨trivial, hgrown rfl (update_self ..)⟩
  · rw [if_neg hcap]
    exact .inr ⟨rfl, ⟨rfl, le_rfl, hroom, fun _ => rfl⟩, Nat.le_of_not_lt hcap⟩

/-! ### The file -/

/-- The node is a file of ramfs with the contents, and they are in the buffer. -/
structure File (s : Sys δ) (id f : ℕ) (c : ByteFile) : Prop where
  node : ∃ node, s.nodes id = some node ∧ node.driver = .ramfs ∧ node.fdata = some f
    ∧ node.length = c.length
  capacity : c.length ≤ (s.data f).capacity
  room : (s.data f).capacity ≤ (s.data f).room
  bytes {k : ℕ} : k < c.length → (s.data f).bytes k = c.bytes k

/-- `length` of the node. -/
def lengthOf (s : Sys δ) (id : ℕ) : ℕ := ((s.nodes id).map Node.length).getD 0

section

variable (hf : File s id f c)

include hf

lemma File.lengthOf_eq : s.lengthOf id = c.length
  := by
  obtain ⟨node, hnode, -, -, hlen⟩ := hf.node
  unfold lengthOf
  rw [hnode]
  exact hlen

/-- A read changes nothing, and is clipped to the length. -/
lemma File.vfsRead (size : ℕ) (hsize : offset + size < 2 ^ 64) :
  s.vfsRead drv id offset size = ((c.read offset size).map some, s)
  := by
  obtain ⟨node, hnode, hdriver, hfd, hlen⟩ := hf.node
  have hmod : (offset + size) % 2 ^ 64 = offset + size := Nat.mod_eq_of_lt hsize
  simp only [Sys.vfsRead, hnode, if_pos hdriver, ramfsRead, hfd, hlen, hmod]
  refine Prod.ext ?_ rfl
  unfold ByteFile.read
  by_cases hend : c.length ≤ offset
  · rw [if_pos hend, Nat.sub_eq_zero_of_le hend, Nat.min_zero]
    rfl
  · have hmin : (if c.length < offset + size then c.length - offset else size) = min size (c.length - offset) := by
      split
      · exact (min_eq_right (by omega)).symm
      · exact (min_eq_left (by omega)).symm
    rw [if_neg hend, hmin, List.map_map]
    refine List.map_congr_left fun k hk => ?_
    have hk' : offset + k < c.length := by
      have := List.mem_range.mp hk
      omega
    rw [if_pos (hk'.trans_le (hf.capacity.trans hf.room)), hf.bytes hk']
    rfl

/-- A write that begins in the file or at its end is stored, or there is no memory and nothing changes. -/
lemma File.vfsWrite (drv : Drivers δ) {data : List UInt8} (hle : offset ≤ c.length)
    (hsum : offset + data.length + 1024 + 32 + 4095 < 2 ^ 64) :
  (s.vfsWrite drv id offset data = (none, { s with allocations := s.allocations + 1 })
      ∧ s.memory s.allocations = false)
    ∨ ((s.vfsWrite drv id offset data).1 = some data.length
      ∧ File (s.vfsWrite drv id offset data).2 id f (c.write (fun _ => 0) offset data)
      ∧ offset + data.length ≤ ((s.vfsWrite drv id offset data).2.data f).capacity)
  := by
  obtain ⟨node, hnode, hdriver, hfd, hlen⟩ := hf.node
  have hmod : (offset + data.length) % 2 ^ 64 = offset + data.length := Nat.mod_eq_of_lt (by omega)
  simp only [Sys.vfsWrite, hnode, if_pos hdriver, ramfsWrite, hfd, hmod]
  rcases grow_spec hf.room hsum with ⟨hgrow, hmem⟩ | ⟨htrue, hgrown, hcap⟩
  · left
    rw [hgrow]
    exact ⟨rfl, hmem⟩
  right
  generalize s.grow f (offset + data.length) = r at htrue hgrown hcap
  obtain ⟨ok, s₁⟩ := r
  obtain rfl : ok = true := htrue
  obtain ⟨new, hnew⟩ : ∃ new : FileData,
    new = { s₁.data f with bytes := Bytes.write (s₁.data f).bytes offset data } := ⟨_, rfl⟩
  dsimp only at hgrown hcap ⊢
  rw [← hnew]
  have hself : update s₁.data f new f = new := update_self ..
  have hdata : new.capacity = (s₁.data f).capacity := by rw [hnew]
  refine ⟨rfl, ⟨⟨{ node with length := max node.length (offset + data.length) }, ?_, hdriver, hfd, ?_⟩, ?_, ?_,
    fun hk => ?_⟩, ?_⟩
  · refine (update_self ..).trans ?_
    rw [hgrown.nodes, hnode]
    rfl
  · exact congrArg (max · _) hlen
  · change max c.length (offset + data.length) ≤ (update s₁.data f new f).capacity
    rw [hself, hdata]
    exact max_le (hf.capacity.trans hgrown.capacity) hcap
  · change (update s₁.data f new f).capacity ≤ (update s₁.data f new f).room
    rw [hself, hnew]
    exact hgrown.room
  · change (update s₁.data f new f).bytes _ = _
    rw [hself, hnew]
    refine ByteFile.write_bytes (fun k hk => ?_) (fun k hlow hk => absurd (hlow.trans_lt hk) hle.not_gt) hk
    rw [hgrown.bytes (hk.trans_le hf.capacity)]
    exact hf.bytes hk
  · change _ ≤ (update s₁.data f new f).capacity
    rwa [hself, hdata]

end

/-! ### Reads and writes at offsets -/

/-- What reads of the file and writes that neither wrap nor begin behind its end lead to, with the contents
as they are to be. -/
inductive AtOffsets (drv : Drivers δ) (id : ℕ) (s : Sys δ) (c : ByteFile) : Sys δ → ByteFile → Prop
  | start : AtOffsets drv id s c s c
  | read {t : Sys δ} {e : ByteFile} (offset size : ℕ) : AtOffsets drv id s c t e → offset + size < 2 ^ 64 →
    AtOffsets drv id s c (t.vfsRead drv id offset size).2 e
  | write {t : Sys δ} {e : ByteFile} (offset : ℕ) (data : List UInt8) : AtOffsets drv id s c t e →
    offset ≤ t.lengthOf id → offset + data.length + 1024 + 32 + 4095 < 2 ^ 64 →
    AtOffsets drv id s c (t.vfsWrite drv id offset data).2
      (if (t.vfsWrite drv id offset data).1 = none ∨ data = [] then e else e.write (fun _ => 0) offset data)

lemma AtOffsets.file (hf : File s id f c) (h : AtOffsets drv id s c t e) : File t id f e
  := by
  induction h with
  | start => exact hf
  | read offset size _ hsize ih => rwa [ih.vfsRead size hsize]
  | @write t e offset data _ hle hsum ih =>
    rw [ih.lengthOf_eq] at hle
    rcases ih.vfsWrite drv hle hsum with ⟨hr, -⟩ | ⟨hr, h, -⟩
    · rw [hr, if_pos (.inl rfl)]
      exact ⟨ih.node, ih.capacity, ih.room, ih.bytes⟩
    by_cases hdata : data = []
    · subst hdata
      have hlen : (e.write (fun _ => 0) offset []).length = e.length := max_eq_left hle
      rw [if_pos (.inr rfl)]
      refine ⟨hlen ▸ h.node, hlen ▸ h.capacity, h.room, fun {k} hk => ?_⟩
      rw [h.bytes (hlen.symm ▸ hk)]
      exact (congrFun (Bytes.write_nil _ _) k).trans (ByteFile.fill_of_lt hk)
    · rwa [if_neg (by simp [hr, hdata])]

/-- Such reads and writes find the file as the sparse byte array that it is to be, in its buffer; and a
write for which there is no memory changes nothing. -/
theorem ramfs_contents (hf : File s id f c) (h : AtOffsets drv id s c t e) :
  t.lengthOf id = e.length
    ∧ (∀ offset size, offset + size < 2 ^ 64 →
      (t.vfsRead drv id offset size).1 = (e.read offset size).map some)
    ∧ ∀ offset data, offset ≤ t.lengthOf id → offset + data.length + 1024 + 32 + 4095 < 2 ^ 64 →
      (t.memory t.allocations = false
        ∧ t.vfsWrite drv id offset data = (none, { t with allocations := t.allocations + 1 }))
      ∨ ((t.vfsWrite drv id offset data).1 = some data.length
        ∧ offset + data.length ≤ ((t.vfsWrite drv id offset data).2.data f).capacity
        ∧ ((t.vfsWrite drv id offset data).2.data f).capacity ≤ ((t.vfsWrite drv id offset data).2.data f).room)
  := by
  have ht := h.file hf
  refine ⟨ht.lengthOf_eq, fun offset size hsize => by rw [ht.vfsRead size hsize], fun offset data hle hsum => ?_⟩
  rw [ht.lengthOf_eq] at hle
  rcases ht.vfsWrite drv hle hsum with ⟨hr, hmem⟩ | ⟨hr, hfile, hcap⟩
  · exact .inl ⟨hmem, hr⟩
  · exact .inr ⟨hr, hcap, hfile.room⟩

end Sys

/-! ### A file that is open -/

lemma home_file : home.File 3 3 ⟨0, fun _ => 0⟩
  := ⟨⟨_, rfl, rfl, rfl, rfl⟩, le_rfl, le_rfl, fun hk => absurd hk (Nat.not_lt_zero _)⟩

theorem home_contents : ((home.vfsWrite homeDisk 3 0 [7]).2.vfsRead homeDisk 3 0 9).1 = [some 7]
  :=
  (Sys.ramfs_contents home_file (.write 0 [7] .start le_rfl (by decide))).2.1 0 9 (by decide)

/-- A byte is written behind the end of `/a`: of the bytes before it the first eight are the link of the slab,
and behind them stands what was in the memory. -/
theorem home_gap :
  ((({ home with heap := fun _ _ => 9 }).vfsWrite homeDisk 3 9 [7]).2.vfsRead homeDisk 3 0 16).1
    = [some 0, some 0, some 0, some 0, some 0, some 0, some 0, some 0, some 9, some 7]
  := by decide

end Vfs
