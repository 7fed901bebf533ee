import EquantOS.Fs.Descriptors

/-!
# What descriptors and counts keep

All calls change the tables in a few ways: a node is made, a slot gets a node, a slot gives one
back, a process is born or dies.  What these ways keep is kept by every call, and along every
run, as long as no count of references reaches `2 ^ 32`.
-/

open Function List Option

namespace FileTables

open FileTables RefCount FileCall BitVec Nat

variable {W : Type} {ops : FileOps W} {k : FileTables W} {s : ℕ × ℕ} {p n m offset : ℕ}
  {flags : BitVec 32}

/-! ### Slots and references -/

lemma mem_slots {i : ℕ} : (p, i) ∈ k.slots ↔ p ∈ k.live ∧ i < maxOpenFiles
  := by
  rw [slots, Finset.mem_product, Finset.mem_range]

lemma firstFree_spec {start i : ℕ} (h : k.firstFree p start = some i) :
  i < maxOpenFiles ∧ start ≤ i ∧ k.files (p, i) = none
  := by
  have hmem := mem_of_find?_eq_some h
  have htest := find?_some h
  rw [mem_range] at hmem
  rw [Bool.and_eq_true, decide_eq_true_iff, isNone_iff_eq_none] at htest
  exact ⟨hmem, htest⟩

lemma fileAt_spec {fd : ℤ} (h : k.fileAt p fd = some n) :
  0 ≤ fd ∧ fd.toNat < maxOpenFiles ∧ k.files (p, fd.toNat) = some n
  := by
  rw [fileAt] at h
  split at h
  · cases h
  · exact ⟨by omega, by omega, h⟩

lemma refs_take (hs : s ∈ k.slots) (hfree : k.files s = none) :
  (k.take s n offset flags).refs m = k.refs m + if m = n then 1 else 0
  := refs_fill hs hfree

lemma refs_release (hs : s ∈ k.slots) (hn : k.files s = some n) :
  k.refs m = (release ops k s n).refs m + if m = n then 1 else 0
  := by
  rw [release]
  split
  · exact refs_clear hs hn
  · exact refs_clear hs hn

lemma refs_pos (hs : s ∈ k.slots) (hn : k.files s = some n) : 0 < k.refs n
  := refs_pos_iff.mpr ⟨s, hs, hn⟩

lemma allocFd_eq :
  k.allocFd p n flags = match k.firstFree p 3 with
    | none => (emfile, k)
    | some i => (i, k.take (p, i) n 0 flags)
  := by
  have hcount : (if k.refcount n = 0 then 1 else k.refcount n + 1) = k.refcount n + 1 := by
    split_ifs with hzero
    · rw [hzero]
      rfl
    · rfl
  rw [allocFd, hcount]
  rfl

/-! ### Tables in order -/

/-- Only slots of live processes refer to nodes, and only to nodes that exist and are in use. -/
structure Sound (k : FileTables W) : Prop where
  slot (s : ℕ × ℕ) (n : ℕ) : k.files s = some n → s ∈ k.slots ∧ n < k.nodeCount
  live (p : ℕ) : p ∈ k.live → p < k.processCount
  closed (e : ℕ × ℕ) : e ∈ k.closed → e.1 < k.nodeCount
  unused (n : ℕ) : k.unused n = true → n < k.nodeCount ∧ ∀ s, k.files s ≠ some n

section

variable (h : Sound k)

include h

lemma Sound.refs_unused (hn : k.unused n) : k.refs n = 0
  := refs_eq_zero_iff.mpr fun s _ => (h.unused n hn).2 s

lemma Sound.lt_of_refs (hn : 0 < k.refs n) : n < k.nodeCount ∧ k.unused n = false
  := by
  obtain ⟨s, -, hs⟩ := refs_pos_iff.mp hn
  refine ⟨(h.slot s n hs).2, ?_⟩
  rw [← Bool.not_eq_true]
  exact fun hu => (h.unused n hu).2 s hs

lemma Sound.take (hs : s ∈ k.slots) (hn : n < k.nodeCount) :
  Sound (k.take s n offset flags)
  := by
  refine ⟨?_, h.live, h.closed, ?_⟩
  · intro t m (ht : update k.files s (some n) t = some m)
    by_cases hts : t = s
    · subst hts
      rw [update_self] at ht
      rw [← some.inj ht]
      exact ⟨hs, hn⟩
    · rw [update_of_ne hts] at ht
      exact h.slot t m ht
  · intro m (hm : update k.unused n false m)
    have hmn : m ≠ n := by
      rintro rfl
      simp at hm
    rw [update_of_ne hmn] at hm
    obtain ⟨hlt, hslot⟩ := h.unused m hm
    refine ⟨hlt, ?_⟩
    intro t (ht : update k.files s (some n) t = some m)
    by_cases hts : t = s
    · subst hts
      rw [update_self] at ht
      exact hmn (some.inj ht).symm
    · rw [update_of_ne hts] at ht
      exact hslot t ht

lemma Sound.newNode : Sound k.newNode
  := by
  refine ⟨?_, h.live, ?_, ?_⟩
  · intro s n hs
    obtain ⟨hmem, hlt⟩ := h.slot s n hs
    exact ⟨hmem, lt_succ_of_lt hlt⟩
  · exact fun e he => lt_succ_of_lt (h.closed e he)
  · intro n (hn : update k.unused k.nodeCount true n)
    by_cases hnk : n = k.nodeCount
    · subst hnk
      exact ⟨lt_succ_self _, fun s hs => lt_irrefl _ (h.slot s _ hs).2⟩
    · rw [update_of_ne hnk] at hn
      obtain ⟨hlt, hslot⟩ := h.unused n hn
      exact ⟨lt_succ_of_lt hlt, hslot⟩

lemma Sound.vfsClose (hn : n < k.nodeCount) : Sound (vfsClose ops k n)
  := by
  refine ⟨h.slot, h.live, ?_, h.unused⟩
  intro e he
  rcases mem_cons.mp he with rfl | he
  · exact hn
  · exact h.closed e he

lemma Sound.clearSlot : Sound (k.clearSlot s)
  := by
  have hslot : ∀ t m, (k.clearSlot s).files t = some m → k.files t = some m := by
    intro t m (ht : update k.files s none t = some m)
    by_cases hts : t = s
    · subst hts
      simp at ht
    · rwa [update_of_ne hts] at ht
  refine ⟨fun t m ht => h.slot t m (hslot t m ht), h.live, h.closed, ?_⟩
  intro m hm
  exact ⟨(h.unused m hm).1, fun t ht => (h.unused m hm).2 t (hslot t m ht)⟩

lemma Sound.release (hn : k.files s = some n) : Sound (release ops k s n)
  := by
  have hcount : ∀ x, Sound ((k.clearSlot s).setRefcount n x) :=
    fun _ => ⟨h.clearSlot.slot, h.live, h.closed, h.clearSlot.unused⟩
  rw [FileTables.release]
  split
  · exact hcount _
  · exact (hcount 0).vfsClose (h.slot s n hn).2

lemma Sound.birth : Sound k.birth
  := by
  refine ⟨?_, ?_, h.closed, h.unused⟩
  · intro s n hs
    obtain ⟨hmem, hlt⟩ := h.slot s n hs
    refine ⟨?_, hlt⟩
    rw [slots, Finset.mem_product] at hmem ⊢
    exact ⟨Finset.mem_insert_of_mem hmem.1, hmem.2⟩
  · intro p hp
    rcases Finset.mem_insert.mp hp with rfl | hp
    · exact lt_succ_self _
    · exact lt_succ_of_lt (h.live p hp)

lemma Sound.death (hp : ∀ i, k.files (p, i) = none) :
  Sound { k with live := k.live.erase p }
  := by
  refine ⟨?_, fun q hq => h.live q (Finset.mem_of_mem_erase hq), h.closed, h.unused⟩
  rintro ⟨q, i⟩ n hs
  obtain ⟨hmem, hlt⟩ := h.slot (q, i) n hs
  refine ⟨?_, hlt⟩
  rw [mem_slots] at hmem ⊢
  refine ⟨Finset.mem_erase.mpr ⟨?_, hmem.1⟩, hmem.2⟩
  rintro rfl
  rw [hp] at hs
  cases hs

/-- A process that does not live has no open files. -/
lemma Sound.files_eq_none (hp : p ∉ k.live) (i : ℕ) : k.files (p, i) = none
  := by
  rw [eq_none_iff_forall_ne_some]
  intro n hn
  exact hp (mem_slots.mp (h.slot _ n hn).1).1

lemma Sound.files_of_le {i : ℕ} (hi : maxOpenFiles ≤ i) : k.files (p, i) = none
  := by
  rw [eq_none_iff_forall_ne_some]
  intro n hn
  exact not_lt.mpr hi (mem_slots.mp (h.slot _ n hn).1).2

lemma Sound.refs_birth : k.birth.refs n = k.refs n
  := by
  have hnew : k.processCount ∉ k.live := fun hp => lt_irrefl _ (h.live _ hp)
  have hslots : k.birth.slots = k.slots ∪ row k.processCount := by
    rw [slots, slots, row, ← Finset.union_product, Finset.union_comm]
    rfl
  have hdisjoint : Disjoint k.slots (row k.processCount) := by
    rw [slots, row, Finset.disjoint_product]
    exact .inl (Finset.disjoint_singleton_right.mpr hnew)
  have hrow : RefCount.refs (row k.processCount) k.files n = 0 := by
    rw [refs_eq_zero_iff]
    rintro ⟨q, i⟩ hq
    rw [row, Finset.mem_product, Finset.mem_singleton] at hq
    have hqp : q = k.processCount := hq.1
    rw [hqp, h.files_eq_none hnew i]
    exact (some_ne_none n).symm
  rw [refs, hslots]
  exact (refs_union hdisjoint).trans ((congrArg _ hrow).trans (add_zero _))

end

lemma refs_death (hp : ∀ i, k.files (p, i) = none) :
  ({ k with live := k.live.erase p } : FileTables W).refs n = k.refs n
  := by
  apply le_antisymm
  · apply refs_mono
    exact Finset.product_subset_product_left (Finset.erase_subset _ _)
  apply Finset.card_le_card
  rintro ⟨q, i⟩ hq
  obtain ⟨hmem, hn⟩ := Finset.mem_filter.mp hq
  rw [mem_slots] at hmem
  apply Finset.mem_filter.mpr
  refine ⟨mem_slots.mpr ⟨Finset.mem_erase.mpr ⟨?_, hmem.1⟩, hmem.2⟩, hn⟩
  rintro rfl
  rw [hp] at hn
  cases hn

/-! ### Stable properties -/

/-- A property that all changes to tables in order keep. -/
structure Stable (ops : FileOps W) (P : FileTables W → Prop) : Prop where
  setFlags (k : FileTables W) (s : ℕ × ℕ) (flags : BitVec 32) : P k → P (k.setFlags s flags)
  newNode (k : FileTables W) : Sound k → P k → P k.newNode
  first (k : FileTables W) (s : ℕ × ℕ) (n offset : ℕ) (flags : BitVec 32) : Sound k → P k →
    s ∈ k.slots → k.files s = none → k.unused n = true → n ∉ k.closed.map Prod.fst →
    P (k.take s n offset flags)
  take (k : FileTables W) (s : ℕ × ℕ) (n offset : ℕ) (flags : BitVec 32) : Sound k → P k →
    s ∈ k.slots → k.files s = none → 0 < k.refs n → k.refs n + 1 < 2 ^ 32 →
    P (k.take s n offset flags)
  waste (k : FileTables W) (n : ℕ) : Sound k → P k → k.unused n = true →
    n ∉ k.closed.map Prod.fst → P (vfsClose ops k n)
  release (k : FileTables W) (s : ℕ × ℕ) (n : ℕ) : Sound k → P k → s ∈ k.slots →
    k.files s = some n → P (release ops k s n)
  birth (k : FileTables W) : Sound k → P k → P k.birth
  death (k : FileTables W) (p : ℕ) : Sound k → P k → (∀ i, k.files (p, i) = none) →
    P { k with live := k.live.erase p }

variable {P : FileTables W → Prop}

/-- The tables are in order and have the property. -/
def Keeps (P : FileTables W → Prop) (k : FileTables W) : Prop := Sound k ∧ P k

lemma Keeps.release (h : Keeps P k) (hP : Stable ops P) (hn : k.files s = some n) :
  Keeps P (release ops k s n)
  := ⟨h.1.release hn, hP.release k s n h.1 h.2 (h.1.slot s n hn).1 hn⟩

lemma Keeps.sysClose (h : Keeps P k) (hP : Stable ops P) (p : ℕ) (fd : ℤ) :
  Keeps P (sysClose ops k p fd).2
  := by
  rw [FileTables.sysClose]
  split
  · exact h
  · next n hn => exact h.release hP (fileAt_spec hn).2.2

lemma live_release : (release ops k s n).live = k.live
  := by
  rw [release]
  split <;> rfl

lemma live_sysClose {fd : ℤ} : (sysClose ops k p fd).2.live = k.live
  := by
  rw [sysClose]
  split
  · rfl
  · exact live_release

lemma files_release : (release ops k s n).files = update k.files s none
  := by
  rw [release]
  split <;> rfl

section

variable (h : Keeps P k) (hP : Stable ops P)

include h hP

/-- A descriptor is copied into a free slot. -/
lemma Keeps.take (hs : s ∈ k.slots) (hfree : k.files s = none)
    (hn : 0 < k.refs n) (hroom : k.refs n + 1 < 2 ^ 32) (offset : ℕ) (flags : BitVec 32) :
  Keeps P (k.take s n offset flags)
  := ⟨h.1.take hs (h.1.lt_of_refs hn).1, hP.take k s n offset flags h.1 h.2 hs hfree hn hroom⟩

lemma Keeps.setFlags (s : ℕ × ℕ) (flags : BitVec 32) :
  Keeps P (k.setFlags s flags)
  := ⟨⟨h.1.slot, h.1.live, h.1.closed, h.1.unused⟩, hP.setFlags k s flags h.2⟩

lemma Keeps.newNode : Keeps P k.newNode
  := ⟨h.1.newNode, hP.newNode k h.1 h.2⟩

end

/-- A node that has just been made. -/
def Unborn (k : FileTables W) (n : ℕ) : Prop := k.unused n = true ∧ n ∉ k.closed.map Prod.fst

lemma Sound.unborn_newNode (h : Sound k) : Unborn k.newNode k.nodeCount
  := by
  refine ⟨update_self .., ?_⟩
  intro hmem
  obtain ⟨e, he, heq⟩ := mem_map.mp hmem
  exact lt_irrefl _ (heq ▸ h.closed e he)

lemma Unborn.newNode (h : Unborn k n) (hs : Sound k) : Unborn k.newNode n
  := by
  refine ⟨?_, h.2⟩
  have hne : n ≠ k.nodeCount := Nat.ne_of_lt (hs.unused n h.1).1
  exact (update_of_ne hne ..).trans h.1

lemma Unborn.take (h : Unborn k n) (hne : n ≠ m) : Unborn (k.take s m offset flags) n
  := ⟨(update_of_ne hne ..).trans h.1, h.2⟩

lemma Keeps.first (h : Keeps P k) (hP : Stable ops P) (hs : s ∈ k.slots)
    (hfree : k.files s = none) (hn : Unborn k n) (offset : ℕ) (flags : BitVec 32) :
  Keeps P (k.take s n offset flags)
  := ⟨h.1.take hs (h.1.unused n hn.1).1, hP.first k s n offset flags h.1 h.2 hs hfree hn.1 hn.2⟩

/-- `alloc_fd` of a new node. -/
lemma Keeps.allocFd (h : Keeps P k) (hP : Stable ops P) (hp : p ∈ k.live) (hn : Unborn k n)
    (flags : BitVec 32) :
  Keeps P (k.allocFd p n flags).2
  := by
  rw [allocFd_eq]
  split
  · exact h
  · next i hi =>
    obtain ⟨hlt, -, hfree⟩ := firstFree_spec hi
    exact h.first hP (mem_slots.mpr ⟨hp, hlt⟩) hfree hn 0 flags

lemma live_allocFd : (k.allocFd p n flags).2.live = k.live
  := by
  rw [allocFd]
  split <;> rfl

lemma Unborn.allocFd (h : Unborn k n) (hne : n ≠ m) : Unborn (k.allocFd p m flags).2 n
  := by
  rw [allocFd_eq]
  split
  · exact h
  · exact h.take hne

/-! ### Calls -/

section

variable (h : Keeps P k) (hP : Stable ops P) (hp : p ∈ k.live)

include h hP hp

section

variable {fd : ℤ} (hroom : ∀ n, k.fileAt p fd = some n → k.refs n + 1 < 2 ^ 32)

include hroom

lemma Keeps.sysDup :
  Keeps P (k.sysDup p fd).2
  := by
  rw [FileTables.sysDup]
  split
  · exact h
  next n hn =>
    obtain ⟨-, -, hfile⟩ := fileAt_spec hn
    split
    · exact h
    next i hi =>
      obtain ⟨hlt, -, hfree⟩ := firstFree_spec hi
      exact h.take hP (mem_slots.mpr ⟨hp, hlt⟩) hfree (refs_pos (h.1.slot _ n hfile).1 hfile)
        (hroom n hn) _ _

lemma Keeps.sysFcntlDupfd (cloexec : Bool) (arg : ℕ) :
  Keeps P (k.sysFcntlDupfd p fd cloexec arg).2
  := by
  rw [FileTables.sysFcntlDupfd]
  split
  · exact h
  next n hn =>
    obtain ⟨-, -, hfile⟩ := fileAt_spec hn
    split
    · exact h
    next i hi =>
      obtain ⟨hlt, -, hfree⟩ := firstFree_spec hi
      exact h.take hP (mem_slots.mpr ⟨hp, hlt⟩) hfree (refs_pos (h.1.slot _ n hfile).1 hfile)
        (hroom n hn) _ _

end

section

variable {oldfd newfd : ℤ} (hroom : ∀ n, k.fileAt p oldfd = some n → k.refs n + 1 < 2 ^ 32)

include hroom

lemma Keeps.sysDup2 :
  Keeps P (sysDup2 ops k p oldfd newfd).2
  := by
  rw [FileTables.sysDup2]
  split
  · exact h
  next n hn =>
    obtain ⟨hold, -, hfile⟩ := fileAt_spec hn
    split
    · exact h
    next hrange =>
    split
    · exact h
    have hs : (p, newfd.toNat) ∈ k.slots := mem_slots.mpr ⟨hp, by omega⟩
    have hother : (p, oldfd.toNat) ≠ (p, newfd.toNat) := by
      intro heq
      have := (Prod.mk.inj heq).2
      omega
    have hroom' := hroom n hn
    split
    · next hopen =>
      obtain ⟨m, hm⟩ := isSome_iff_exists.mp hopen
      have hclose : (FileTables.sysClose ops k p newfd).2 = FileTables.release ops k (p, newfd.toNat) m := by
        have hat : k.fileAt p newfd = some m := by rw [fileAt, if_neg hrange, hm]
        simp only [FileTables.sysClose, hat]
      rw [hclose]
      have hkeeps := h.release hP hm
      have hfile' : (FileTables.release ops k (p, newfd.toNat) m).files (p, oldfd.toNat) = some n := by
        rw [files_release, update_of_ne hother, hfile]
      have hfree : (FileTables.release ops k (p, newfd.toNat) m).files (p, newfd.toNat) = none := by
        rw [files_release, update_self]
      have hless : k.refs n = (FileTables.release ops k (p, newfd.toNat) m).refs n
          + if n = m then 1 else 0 := refs_release hs hm
      apply hkeeps.take hP _ hfree (refs_pos (hkeeps.1.slot _ n hfile').1 hfile')
      · omega
      · rw [mem_slots, live_release]
        exact mem_slots.mp hs
    · next hclosed =>
      rw [not_isSome_iff_eq_none] at hclosed
      exact h.take hP hs hclosed (refs_pos (h.1.slot _ n hfile).1 hfile) hroom' _ _

lemma Keeps.sysDup3 (flags : BitVec 32) :
  Keeps P (sysDup3 ops k p oldfd newfd flags).2
  := by
  rw [FileTables.sysDup3]
  split
  · exact h
  simp only
  split
  · exact (h.sysDup2 hP hp hroom).setFlags hP _ _
  · exact h.sysDup2 hP hp hroom

end

end

/-- The nodes of a pipe are made, and then get their slots. -/
lemma sysPipe2_eq {rfd wfd : ℕ} (hr : k.firstFree p 3 = some rfd)
    (hw : k.firstFree p (rfd + 1) = some wfd) :
  (k.sysPipe2 p flags).2 = ((k.newNode.newNode.take (p, rfd) k.nodeCount 0
      (oRdonly ||| flags &&& oCloexec)).take (p, wfd) (k.nodeCount + 1) 0
      (oWronly ||| flags &&& oCloexec))
  := by
  simp only [sysPipe2, hr, hw, take, setSlot, setRefcount, newNode, FileTables.mk.injEq, true_and,
    and_true]
  funext n
  by_cases hn : n = k.nodeCount
  · subst hn
    simp
  by_cases hn' : n = k.nodeCount + 1
  · subst hn'
    simp
  · simp [hn, hn']

section

variable (h : Keeps P k) (hP : Stable ops P) (hp : p ∈ k.live)

include h hP hp

lemma Keeps.sysPipe2 (flags : BitVec 32) :
  Keeps P (k.sysPipe2 p flags).2
  := by
  cases hr : k.firstFree p 3 with
  | none =>
    simp only [FileTables.sysPipe2, hr]
    exact h
  | some rfd =>
    cases hw : k.firstFree p (rfd + 1) with
    | none =>
      simp only [FileTables.sysPipe2, hr, hw]
      exact h
    | some wfd =>
      obtain ⟨hrlt, -, hrfree⟩ := firstFree_spec hr
      obtain ⟨hwlt, hle, hwfree⟩ := firstFree_spec hw
      rw [sysPipe2_eq hr hw]
      have hboth := (h.newNode hP).newNode hP
      have hreader := h.1.unborn_newNode.newNode h.1.newNode
      have hwriter : Unborn k.newNode.newNode (k.nodeCount + 1) := h.1.newNode.unborn_newNode
      have hslot : ∀ i < maxOpenFiles, (p, i) ∈ k.newNode.newNode.slots :=
        fun i hi => mem_slots.mpr ⟨hp, hi⟩
      apply (hboth.first hP (hslot rfd hrlt) hrfree hreader _ _).first hP
      · exact hslot wfd hwlt
      · have hne : (p, wfd) ≠ (p, rfd) := by
          intro heq
          have := (Prod.mk.inj heq).2
          omega
        exact (update_of_ne hne ..).trans hwfree
      · exact hwriter.take (succ_ne_self _)

lemma Keeps.sysSocket (flags : BitVec 32) :
  Keeps P (k.sysSocket p flags).2
  := (h.newNode hP).allocFd hP hp h.1.unborn_newNode flags

lemma Keeps.sysEventfd (flags : BitVec 32) :
  Keeps P (sysEventfd ops k p flags).2
  := by
  have hkeeps := (h.newNode hP).allocFd hP hp h.1.unborn_newNode flags
  rw [FileTables.sysEventfd]
  split
  · next hneg =>
    -- there is no free slot
    have hnew := h.1.unborn_newNode
    rw [allocFd_eq] at hneg hkeeps ⊢
    cases hfree : k.newNode.firstFree p 3 with
    | none =>
      simp only [hfree] at hkeeps ⊢
      exact ⟨hkeeps.1.vfsClose (lt_succ_self _), hP.waste _ _ hkeeps.1 hkeeps.2 hnew.1 hnew.2⟩
    | some i =>
      simp only [hfree] at hneg
      omega
  · exact hkeeps

lemma Keeps.sysSocketpair :
  Keeps P (sysSocketpair ops k p).2
  := by
  have hboth := (h.newNode hP).newNode hP
  have hreader := h.1.unborn_newNode.newNode h.1.newNode
  have hwriter : Unborn k.newNode.newNode (k.nodeCount + 1) := h.1.newNode.unborn_newNode
  have hone := hboth.allocFd hP hp hreader oRdwr
  have htwo : Keeps P ((k.newNode.newNode.allocFd p k.nodeCount oRdwr).2.allocFd p
      (k.nodeCount + 1) oRdwr).2 := by
    apply hone.allocFd hP
    · rw [live_allocFd]
      exact hp
    · exact hwriter.allocFd (succ_ne_self _)
  rw [FileTables.sysSocketpair]
  split_ifs
  · exact (htwo.sysClose hP _ _).sysClose hP _ _
  · exact htwo.sysClose hP _ _
  · exact htwo.sysClose hP _ _
  · exact htwo
  · exact htwo

end

/-! ### Processes -/

/-- What holds after the first `m` descriptors of `p` have been copied to a new process. -/
structure Copied (k : FileTables W) (p m : ℕ) (k' : FileTables W) : Prop where
  sound : Sound k'
  live : k'.live = k.birth.live
  parent (i : ℕ) : k'.files (p, i) = k.files (p, i)
  child (i : ℕ) : m ≤ i → k'.files (k.processCount, i) = none
  closed : k'.closed = k.closed
  refs (n : ℕ) : k'.refs n = k.refs n + RefCount.refs ({p} ×ˢ Finset.range m) k.files n
  refcount (n : ℕ) : k'.refcount n
    = k.refcount n + BitVec.ofNat 32 (RefCount.refs ({p} ×ˢ Finset.range m) k.files n)

lemma rowRefs_succ (i : ℕ) :
  RefCount.refs ({p} ×ˢ Finset.range (i + 1)) k.files n
    = RefCount.refs ({p} ×ˢ Finset.range i) k.files n + if k.files (p, i) = some n then 1 else 0
  := by
  have hsplit : ({p} ×ˢ Finset.range (i + 1) : Finset (ℕ × ℕ))
      = {p} ×ˢ Finset.range i ∪ {(p, i)} := by
    rw [Finset.range_add_one, Finset.insert_eq, Finset.union_comm, Finset.product_union,
      Finset.singleton_product_singleton]
  have hdisjoint : Disjoint ({p} ×ˢ Finset.range i) {(p, i)} := by
    rw [Finset.disjoint_singleton_right, Finset.mem_product, Finset.mem_range]
    exact fun h => lt_irrefl _ h.2
  rw [hsplit, refs_union hdisjoint]
  congr 1
  rw [RefCount.refs, Finset.filter_singleton]
  split_ifs <;> rfl

section Clone

variable {k' : FileTables W} {i : ℕ}

lemma Copied.slot_free (h : Copied k p i k') (hi : i < maxOpenFiles) :
  (k.processCount, i) ∈ k'.slots ∧ k'.files (k.processCount, i) = none
  := by
  refine ⟨mem_slots.mpr ⟨?_, hi⟩, h.child i le_rfl⟩
  rw [h.live]
  exact Finset.mem_insert_self ..

/-- One round of the loop of `clone`. -/
lemma Copied.copySlot (h : Copied k p i k') (hs : Sound k) (hp : p ∈ k.live)
    (hi : i < maxOpenFiles) :
  Copied k p (i + 1) (copySlot p k.processCount k' i)
  := by
  have hne : p ≠ k.processCount := Nat.ne_of_lt (hs.live p hp)
  rw [FileTables.copySlot]
  split
  · next hnone =>
    rw [h.parent] at hnone
    have hsame : ∀ n, RefCount.refs ({p} ×ˢ Finset.range (i + 1)) k.files n
        = RefCount.refs ({p} ×ˢ Finset.range i) k.files n := by
      intro n
      rw [rowRefs_succ, hnone, if_neg (some_ne_none n).symm, add_zero]
    refine ⟨h.sound, h.live, h.parent, fun j hj => h.child j (by omega), h.closed, fun n => ?_,
      fun n => ?_⟩
    · rw [h.refs n, hsame]
    · rw [h.refcount n, hsame]
  · next n hn =>
    obtain ⟨hslot, hfree⟩ := h.slot_free hi
    have hold : k.files (p, i) = some n := by rw [← h.parent, hn]
    refine ⟨h.sound.take hslot (h.sound.slot _ n hn).2, h.live, ?_, ?_, h.closed, ?_, ?_⟩
    · intro j
      rw [← h.parent j]
      exact update_of_ne (fun heq => hne (Prod.mk.inj heq).1) ..
    · intro j hj
      rw [← h.child j (by omega)]
      exact update_of_ne (fun heq => by have := (Prod.mk.inj heq).2; omega) ..
    · intro m
      rw [refs_take hslot hfree, h.refs m, rowRefs_succ, hold]
      simp only [some.injEq, eq_comm (a := m)]
      omega
    · intro m
      rw [rowRefs_succ, hold]
      by_cases hmn : m = n
      · subst hmn
        rw [if_pos rfl, ofNat_add, ← add_assoc, ← h.refcount m]
        exact update_self ..
      · rw [if_neg (fun heq => hmn (some.inj heq).symm), add_zero, ← h.refcount m]
        exact update_of_ne hmn ..

lemma copied_foldl (hs : Sound k) (hp : p ∈ k.live) (m : ℕ) (hm : m ≤ maxOpenFiles) :
  Copied k p m ((List.range m).foldl (copySlot p k.processCount) k.birth)
  := by
  induction m with
  | zero =>
    have hnew : k.processCount ∉ k.live := fun hmem => lt_irrefl _ (hs.live _ hmem)
    refine ⟨hs.birth, rfl, fun _ => rfl, fun i _ => hs.files_eq_none hnew i, rfl,
      fun n => ?_, fun n => ?_⟩
    · exact hs.refs_birth
    · exact (add_zero _).symm
  | succ i ih =>
    rw [range_succ, foldl_append]
    exact (ih (by omega)).copySlot hs hp (by omega)

lemma copied_sysClone (hs : Sound k) (hp : p ∈ k.live) :
  Copied k p maxOpenFiles (k.sysClone p)
  := copied_foldl hs hp _ le_rfl

lemma Keeps.copySlot (h : Keeps P k') (hP : Stable ops P) (hcopied : Copied k p i k')
    (hi : i < maxOpenFiles) (hroom : ∀ n, k.refs n + k.rowRefs p n < 2 ^ 32) :
  Keeps P (copySlot p k.processCount k' i)
  := by
  rw [FileTables.copySlot]
  split
  · exact h
  next n hn =>
    obtain ⟨hslot, hfree⟩ := hcopied.slot_free hi
    apply h.take hP hslot hfree (refs_pos (h.1.slot _ n hn).1 hn)
    have hsucc := rowRefs_succ (n := n) (k := k) (p := p) i
    rw [if_pos (by rw [← hcopied.parent, hn])] at hsucc
    have hmono : RefCount.refs ({p} ×ˢ Finset.range (i + 1)) k.files n ≤ k.rowRefs p n := by
      apply refs_mono
      exact Finset.product_subset_product_right (Finset.range_mono hi)
    have := hroom n
    rw [hcopied.refs n]
    omega

lemma Keeps.sysClone (h : Keeps P k) (hP : Stable ops P) (hp : p ∈ k.live)
    (hroom : ∀ n, k.refs n + k.rowRefs p n < 2 ^ 32) :
  Keeps P (k.sysClone p)
  := by
  suffices hall : ∀ m ≤ maxOpenFiles, Keeps P
      ((range m).foldl (FileTables.copySlot p k.processCount) k.birth) from hall _ le_rfl
  intro m hm
  induction m with
  | zero => exact ⟨h.1.birth, hP.birth k h.1 h.2⟩
  | succ i ih =>
    rw [range_succ, foldl_append]
    exact (ih (by omega)).copySlot hP (copied_foldl h.1 hp i (by omega)) (by omega) hroom

end Clone

/-- What holds after the first `m` descriptors of `p` have been tested and closed. -/
structure Emptied (P : FileTables W → Prop) (k : FileTables W) (p : ℕ) (test : BitVec 32 → Bool)
    (m : ℕ) (k' : FileTables W) : Prop where
  keeps : Keeps P k'
  live : k'.live = k.live
  empty (i : ℕ) : (∀ flags, test flags = true) → i < m → k'.files (p, i) = none

lemma fileAt_natCast {i : ℕ} (hi : i < maxOpenFiles) : k.fileAt p i = k.files (p, i)
  := by
  rw [fileAt, if_neg (by omega), Int.toNat_natCast]

section

variable (h : Keeps P k) (hP : Stable ops P)

include h hP

lemma emptied_closeSlots (test : BitVec 32 → Bool) :
  Emptied P k p test maxOpenFiles (closeSlots ops p test k)
  := by
  suffices hall : ∀ m ≤ maxOpenFiles, Emptied P k p test m ((range m).foldl (fun k i =>
      if (k.files (p, i)).isSome && test (k.fileFlags (p, i)) then (sysClose ops k p i).2
      else k) k) from hall _ le_rfl
  intro m hm
  induction m with
  | zero => exact ⟨h, rfl, fun i _ hi => absurd hi (not_lt_zero i)⟩
  | succ i ih =>
    have hi := ih (by omega)
    rw [range_succ, foldl_append, foldl_cons, foldl_nil]
    set k' := (range i).foldl _ k
    split
    · next htest =>
      rw [Bool.and_eq_true] at htest
      obtain ⟨n, hn⟩ := isSome_iff_exists.mp htest.1
      refine ⟨hi.keeps.sysClose hP _ _, live_sysClose.trans hi.live, fun j hall hj => ?_⟩
      have hclose : (sysClose ops k' p i).2.files = update k'.files (p, i) none := by
        simp only [sysClose, fileAt_natCast hm, hn, Int.toNat_natCast, files_release]
      rw [hclose]
      by_cases hji : j = i
      · rw [hji, update_self]
      · rw [update_of_ne (fun heq => hji (Prod.mk.inj heq).2)]
        exact hi.empty j hall (by omega)
    · next htest =>
      refine ⟨hi.keeps, hi.live, fun j hall hj => ?_⟩
      by_cases hji : j = i
      · rw [hall, Bool.and_true, not_isSome_iff_eq_none] at htest
        rw [hji, htest]
      · exact hi.empty j hall (by omega)

lemma Keeps.sysExecve : Keeps P (sysExecve ops k p)
  := by
  exact (emptied_closeSlots h hP _).keeps

lemma Keeps.sysExit : Keeps P (sysExit ops k p)
  := by
  have hend := emptied_closeSlots (p := p) h hP fun _ => true
  rw [FileTables.sysExit]
  set k' := closeSlots ops p (fun _ => true) k
  have hempty : ∀ i, k'.files (p, i) = none := by
    intro i
    by_cases hi : i < maxOpenFiles
    · exact hend.empty i (fun _ => rfl) hi
    · exact hend.keeps.1.files_of_le (Nat.le_of_not_lt hi)
  exact ⟨hend.keeps.1.death hempty, hP.death _ p hend.keeps.1 hend.keeps.2 hempty⟩

end

/-! ### Runs -/

/-- No count of references reaches `2 ^ 32` in the call. -/
def FileCall.Room (k : FileTables W) (p : ℕ) : FileCall → Prop
  | .dup fd | .dup2 fd _ | .dup3 fd _ _ | .fcntlDupfd fd _ _ =>
    ∀ n, k.fileAt p fd = some n → k.refs n + 1 < 2 ^ 32
  | .clone => ∀ n, k.refs n + k.rowRefs p n < 2 ^ 32
  | _ => True

/-- No count of references reaches `2 ^ 32` in the calls. -/
def RoomRun (ops : FileOps W) (k : FileTables W) : List (ℕ × FileCall) → Prop
  | [] => True
  | c :: calls => c.2.Room k c.1 ∧ RoomRun ops (step ops k c) calls

lemma Keeps.step (h : Keeps P k) (hP : Stable ops P) {c : ℕ × FileCall} (hroom : c.2.Room k c.1) :
  Keeps P (step ops k c)
  := by
  obtain ⟨p, call⟩ := c
  rw [FileCall.step]
  split
  · next hp =>
    cases call with
    | pipe2 flags => exact h.sysPipe2 hP hp flags
    | socket flags => exact h.sysSocket hP hp flags
    | accept flags => exact h.sysSocket hP hp flags
    | eventfd flags => exact h.sysEventfd hP hp flags
    | socketpair => exact h.sysSocketpair hP hp
    | dup oldfd => exact h.sysDup hP hp hroom
    | dup2 oldfd newfd => exact h.sysDup2 hP hp hroom
    | dup3 oldfd newfd flags => exact h.sysDup3 hP hp hroom flags
    | fcntlDupfd fd cloexec arg => exact h.sysFcntlDupfd hP hp hroom cloexec arg
    | setFlags fd flags => exact h.setFlags hP _ _
    | close fd => exact h.sysClose hP p fd
    | clone => exact h.sysClone hP hp hroom
    | execve => exact h.sysExecve hP
    | exit => exact h.sysExit hP
  · exact h

lemma Keeps.run (hP : Stable ops P) (calls : List (ℕ × FileCall)) (h : Keeps P k)
    (hroom : RoomRun ops k calls) :
  Keeps P (calls.foldl (FileCall.step ops) k)
  := by
  induction calls generalizing k with
  | nil => exact h
  | cons c calls ih => exact ih (h.step hP hroom.1) hroom.2

end FileTables
