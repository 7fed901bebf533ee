import EquantOS.Mem.PageTable

/-!
# The tree of page tables

The tables under the first entries of a PML4 form a tree: no two of them share a frame, none of their
frames is available to the allocator, and no entry above the last level maps a large page.  Looking for a
table, and making it if need be, keeps this and changes no entry of the last level.
-/

open List Option

lemma hasBit_or (bit e f : Word) : hasBit bit (e ||| f) = (hasBit bit e || hasBit bit f)
  := by
  rw [Bool.eq_iff_iff]
  simp only [hasBit, bne_iff_ne, ne_eq, Bool.or_eq_true]
  rw [BitVec.and_or_distrib_right, BitVec.or_eq_zero_iff, not_and_or]

lemma hasBit_and (bit e f : Word) (h : bit &&& f = bit) : hasBit bit (e &&& f) = hasBit bit e
  := by
  rw [hasBit, hasBit, BitVec.and_assoc, BitVec.and_comm f bit, h]

lemma hasBit_and_of_zero (bit e f : Word) (h : bit &&& f = 0#64) : hasBit bit (e &&& f) = false
  := by
  rw [hasBit, BitVec.and_assoc, BitVec.and_comm f bit, h, BitVec.and_zero]
  rfl

lemma present_or (e f : Word) : present (e ||| f) = (present e || present f) := hasBit_or _ e f

lemma present_ptePresent : present ptePresent := by decide

namespace Paging

open Radix Set Paging

/-- The table that an entry points to. -/
def child (e : Word) : Option Word := if present e then some (e &&& pteAddrMask) else none

variable {e : Word} {is p : List ℕ}

lemma child_of_present (h : present e) : child e = some (e &&& pteAddrMask) :=
  if_pos h

lemma child_of_not_present (h : present e = false) : child e = none :=
  if_neg (by rw [h]; exact Bool.false_ne_true)

/-- Flags do not change what an entry points to. -/
lemma child_or_flags {f : Word} (he : present e) (hf : f &&& pteAddrMask = 0#64) :
  child (e ||| f) = child e
  := by
  rw [child_of_present (by rw [present_or, he, Bool.true_or]), child_of_present he,
    BitVec.and_or_distrib_right, hf, BitVec.or_zero]

/-- The entry for a new table. -/
lemma child_table {next : Word} (h : next &&& pteAddrMask = next) :
  child ((next &&& pteAddrMask) ||| ptePresent ||| pteWritable ||| pteUser) = some next
  := by
  have hpresent :
      present ((next &&& pteAddrMask) ||| ptePresent ||| pteWritable ||| pteUser) := by
    rw [present_or, present_or, present_or, present_ptePresent, Bool.or_true, Bool.true_or,
      Bool.true_or]
  have hmask : ∀ f : Word, f &&& pteAddrMask = 0#64 → ∀ e : Word,
      (e ||| f) &&& pteAddrMask = e &&& pteAddrMask := by
    intro f hf e
    rw [BitVec.and_or_distrib_right, hf, BitVec.or_zero]
  rw [child_of_present hpresent, hmask pteUser (by decide), hmask pteWritable (by decide),
    hmask ptePresent (by decide), h, h]

/-- The paths to tables: at most three indices, the first below `n`. -/
def paths (n : ℕ) : Set (List ℕ) :=
  {q | q.length ≤ 3 ∧ (∀ i ∈ q, i < 512) ∧ ∀ i ∈ q.head?, i < n}

variable {σ : Type} {P : FrameAllocator σ} {w w₁ w' : Paging σ} {root a b : Word} {n i l : ℕ}
  {q : List ℕ}

/-- The table that a path reaches. -/
def table (w : Paging σ) (root : Word) (q : List ℕ) : Option Word := walk child w.mem root q

/-- The tables under the first `n` entries, with the root. -/
def tables (w : Paging σ) (root : Word) (n : ℕ) : Set Word :=
  nodes child w.mem root (paths n)

/-- The entry of a table that may not exist. -/
def entryAt (w : Paging σ) (root : Word) (q : List ℕ) (l : ℕ) : Word :=
  (w.table root q).elim 0#64 fun a => w.mem a l

/-- The tables are a tree of frames in use, without large pages. -/
structure Tables (P : FrameAllocator σ) (n : ℕ) (root : Word) (w : Paging σ) : Prop where
  tree : Radix.IsTree child w.mem root (paths n)
  used (a : Word) : a ∈ w.tables root n → a ∉ P.avail w.pool
  small (q : List ℕ) (i : ℕ) (a : Word) : q ++ [i] ∈ paths n → w.table root q = some a →
    hasBit pteHuge (w.mem a i) = false

/-- Tables may have been added, and nothing else has changed but the flags of entries for tables. -/
structure Extends (P : FrameAllocator σ) (n : ℕ) (root : Word) (w w' : Paging σ) : Prop where
  tables : Tables P n root w'
  mono (q : List ℕ) (a : Word) : q ∈ paths n → w.table root q = some a → w'.table root q = some a
  leaf (q : List ℕ) (l : ℕ) : q ∈ paths n → q.length = 3 →
    w'.entryAt root q l = w.entryAt root q l
  other (a : Word) : a ∉ w.tables root n → a ∉ P.avail w.pool → w'.mem a = w.mem a
  upper (i : ℕ) : [i] ∉ paths n → w'.mem root i = w.mem root i
  added (a : Word) : a ∈ w'.tables root n → a ∈ w.tables root n ∨ a ∈ P.avail w.pool
  avail : P.avail w'.pool = P.avail w.pool \ w'.tables root n
  held : P.held w'.pool = P.held w.pool ∪ (w'.tables root n \ w.tables root n)
  victim : w'.victim = w.victim
  kernel : w'.kernelPml4 = w.kernelPml4

lemma nil_mem_paths : [] ∈ paths n := ⟨by decide, nofun, nofun⟩

lemma paths_of_isPrefix (h : p <+: q) (hq : q ∈ paths n) : p ∈ paths n
  := by
  obtain ⟨hlen, hall, hhead⟩ := hq
  refine ⟨h.length_le.trans hlen, fun j hj => hall j (h.subset hj), fun j hj => hhead j ?_⟩
  obtain ⟨r, rfl⟩ := h
  cases p with
  | nil => exact absurd hj nofun
  | cons k p => exact hj

lemma paths_closed (h : q ++ [i] ∈ paths n) : q ∈ paths n :=
  paths_of_isPrefix (List.prefix_append q [i]) h

lemma mem_tables (hq : q ∈ paths n) (h : w.table root q = some a) : a ∈ w.tables root n :=
  ⟨q, hq, h⟩

lemma tables_congr (h : ∀ q ∈ paths n, w'.table root q = w.table root q) :
  w'.tables root n = w.tables root n
  := by
  ext a
  refine exists_congr fun q => and_congr_right fun hq => ?_
  exact iff_of_eq (congrArg (· = some a) (h q hq))

lemma root_mem_tables : root ∈ w.tables root n := mem_tables nil_mem_paths rfl

lemma Extends.mono_tables (h : Extends P n root w w') : w.tables root n ⊆ w'.tables root n :=
  fun _ ⟨q, hq, hqa⟩ => mem_tables hq (h.mono q _ hq hqa)

lemma Extends.avail_subset (h : Extends P n root w w') : P.avail w'.pool ⊆ P.avail w.pool
  := by
  rw [h.avail]
  exact sdiff_subset

lemma Extends.refl (h : Tables P n root w) : Extends P n root w w where
  tables := h
  mono _ _ _ h := h
  leaf _ _ _ _ := rfl
  other _ _ _ := rfl
  upper _ _ := rfl
  added _ h := .inl h
  avail := by
    symm
    rw [sdiff_eq_left]
    exact disjoint_left.mpr fun a ha ht => h.used a ht ha
  held := by rw [sdiff_self, union_empty]
  victim := rfl
  kernel := rfl

lemma Extends.trans (h : Extends P n root w w₁) (h' : Extends P n root w₁ w') :
  Extends P n root w w'
  where
  tables := h'.tables
  mono q a hq hqa := h'.mono q a hq (h.mono q a hq hqa)
  leaf q l hq hlen := (h'.leaf q l hq hlen).trans (h.leaf q l hq hlen)
  other a ht ha := by
    rw [h'.other a (fun hmem => (h.added a hmem).elim ht ha) fun hmem => ha (h.avail_subset hmem),
      h.other a ht ha]
  upper i hi := (h'.upper i hi).trans (h.upper i hi)
  added a ha := (h'.added a ha).elim (h.added a) fun hmem => .inr (h.avail_subset hmem)
  avail := by
    rw [h'.avail, h.avail, sdiff_sdiff]
    rw [union_eq_self_of_subset_left h'.mono_tables]
  held := by
    rw [h'.held, h.held, union_assoc, union_comm (w₁.tables root n \ w.tables root n),
      sdiff_union_sdiff_cancel h'.mono_tables h.mono_tables]
  victim := h'.victim.trans h.victim
  kernel := h'.kernel.trans h.kernel

/-- The tables of the paths `added` are new, each in a frame of its own. -/
structure Grown (P : FrameAllocator σ) (n : ℕ) (root : Word) (w : Paging σ) (added : List (List ℕ))
    (w' : Paging σ) : Prop where
  ext : Extends P n root w w'
  count : P.count w.pool = P.count w'.pool + added.length
  kept (p : List ℕ) : p ∈ paths n → p ∉ added → w'.table root p = w.table root p
  new (p : List ℕ) : p ∈ added → p ∈ paths n ∧ w.table root p = none
    ∧ (w'.table root p).isSome = true

lemma Grown.refl (h : Tables P n root w) : Grown P n root w [] w :=
  ⟨.refl h, rfl, fun _ _ _ => rfl, nofun⟩

lemma Grown.trans {added added' : List (List ℕ)} (h : Grown P n root w added w₁)
    (h' : Grown P n root w₁ added' w') :
  Grown P n root w (added ++ added') w'
  where
  ext := h.ext.trans h'.ext
  count := by
    rw [h.count, h'.count, length_append]
    omega
  kept p hp hnot := by
    rw [mem_append, not_or] at hnot
    rw [h'.kept p hp hnot.2, h.kept p hp hnot.1]
  new p hp := by
    rcases mem_append.mp hp with hp | hp
    · obtain ⟨hpath, hnone, hsome⟩ := h.new p hp
      obtain ⟨a, ha⟩ := isSome_iff_exists.mp hsome
      exact ⟨hpath, hnone, isSome_iff_exists.mpr ⟨a, h'.ext.mono p a hpath ha⟩⟩
    obtain ⟨hpath, hnone, hsome⟩ := h'.new p hp
    refine ⟨hpath, ?_, hsome⟩
    by_contra hne
    obtain ⟨a, ha⟩ := ne_none_iff_exists'.mp hne
    exact absurd (hnone.symm.trans (h.ext.mono p a hpath ha)) nofun

/-! ### Looking for a table -/

lemma table_store_of_child_eq (h : child e = child (w.mem a i)) :
  (w.store a i e).table root = w.table root := funext (walk_store_of_child_eq h)

section

variable (h : Tables P n root w) (hq : q ++ [i] ∈ paths n) (ha : w.table root q = some a)

include h hq ha

/-- A table above the last level is none of the last level. -/
lemma Tables.ne_leaf
    {q' : List ℕ}
    (hq' : q' ∈ paths n) (hlen : q'.length = 3) (hb : w.table root q' = some b) :
  b ≠ a
  := by
  rintro rfl
  have heq := h.tree.inj q q' b (paths_closed hq) hq' ha hb
  have hle := hq.1
  rw [heq, length_append, length_singleton] at hle
  omega

/-- Flags may be added to the entry of a table. -/
lemma Tables.extends_flags
    (hpresent : present (w.mem a i)) {f : Word} (hf : f &&& pteAddrMask = 0#64)
    (hhuge : hasBit pteHuge f = false) :
  Grown P n root w [] (w.store a i (w.mem a i ||| f))
  := by
  have htable : (w.store a i (w.mem a i ||| f)).table root = w.table root :=
    table_store_of_child_eq (child_or_flags hpresent hf)
  have htables : (w.store a i (w.mem a i ||| f)).tables root n = w.tables root n :=
    tables_congr fun p _ => congrFun htable p
  have hkeep : ∀ b j, b ≠ a ∨ j ≠ i → (w.store a i (w.mem a i ||| f)).mem b j = w.mem b j :=
    fun b j hne => store_of_ne hne
  have hsame := Extends.refl h
  refine ⟨?_, rfl, fun p _ _ => congrFun htable p, nofun⟩
  constructor
  · refine ⟨h.tree.congr fun p _ => congrFun htable p, fun b hb => h.used b (htables ▸ hb), ?_⟩
    intro p j b hp hb
    rw [htable] at hb
    by_cases hbj : b = a ∧ j = i
    · have hself : (w.store a i (w.mem a i ||| f)).mem a i = w.mem a i ||| f := store_self
      rw [hbj.1, hbj.2, hself, hasBit_or, h.small q i a hq ha, hhuge]
      rfl
    · rw [hkeep b j (not_and_or.mp hbj)]
      exact h.small p j b hp hb
  · intro p b _ hb
    rw [htable, hb]
  · intro p l hp hlen
    rw [entryAt, entryAt, htable]
    cases hb : w.table root p with
    | none => rfl
    | some b => exact hkeep b l (.inl (h.ne_leaf hq ha hp hlen hb))
  · intro b hb _
    funext j
    exact hkeep b j (.inl fun hba => hb (hba ▸ mem_tables (paths_closed hq) ha))
  · intro j hj
    refine hkeep root j ?_
    by_contra hcon
    rw [not_or, not_not, not_not] at hcon
    have hnil := h.tree.inj q [] root (paths_closed hq) nil_mem_paths (hcon.1 ▸ ha) rfl
    rw [hnil, ← hcon.2] at hq
    exact hj hq
  · intro b hb
    exact .inl (htables ▸ hb)
  · rw [htables]
    exact hsame.avail
  · rw [htables]
    exact hsame.held
  · rfl
  · rfl

/-- A fresh table may be linked in. -/
lemma Tables.extends_link
    (hpresent : present (w.mem a i) = false) {s : σ} (halloc : P.alloc w.pool = some (b, s)) {e : Word}
    (he : child e = some b) (hhuge : hasBit pteHuge e = false) :
  Grown P n root w [q ++ [i]] (((w.withPool s).fill b fun _ => 0#64).store a i e)
    ∧ (((w.withPool s).fill b fun _ => 0#64).store a i e).table root (q ++ [i]) = some b
  := by
  set w' := ((w.withPool s).fill b fun _ => 0#64).store a i e with hw'
  have hmem : w'.mem = link w.mem 0#64 a i e b := rfl
  have hpath := paths_closed hq
  have hnone : child (w.mem a i) = none := child_of_not_present hpresent
  have havail := P.alloc_mem halloc
  have hfresh : b ∉ w.tables root n := fun hb => h.used b hb havail
  have hba : b ≠ a := fun heq => hfresh (heq ▸ mem_tables hpath ha)
  have hself : w'.table root (q ++ [i]) = some b :=
    h.tree.walk_link_self 0#64 hpath ha hfresh he
  have hother : ∀ p ∈ paths n, p ≠ q ++ [i] → w'.table root p = w.table root p := fun p =>
    h.tree.walk_link_of_ne hpath ha hfresh he hnone rfl
  have hold : w.table root (q ++ [i]) = none := by
    rw [table, walk_concat]
    rw [table] at ha
    rw [ha]
    exact hnone
  have htables : w'.tables root n = insert b (w.tables root n) := by
    ext c
    constructor
    · rintro ⟨p, hp, hc⟩
      by_cases heq : p = q ++ [i]
      · subst heq
        left
        exact some.inj (hc.symm.trans hself)
      · right
        exact mem_tables hp ((hother p hp heq).symm.trans hc)
    · rintro (rfl | ⟨p, hp, hc⟩)
      · exact mem_tables hq hself
      · refine mem_tables hp ((hother p hp ?_).trans hc)
        rintro rfl
        exact absurd (hold.symm.trans hc) nofun
  refine ⟨⟨?_, P.count_alloc halloc,
    fun p hp hnot => hother p hp fun heq => hnot (mem_singleton.mpr heq), fun p hp => ?_⟩, hself⟩
  swap
  · obtain rfl := mem_singleton.mp hp
    exact ⟨hq, hold, by rw [hself]; rfl⟩
  refine ⟨⟨?_, ?_, ?_⟩, ?_, ?_, ?_, ?_, ?_, ?_, ?_, rfl, rfl⟩
  · exact h.tree.link hpath ha hfresh he hnone rfl
  · intro c hc
    change c ∉ P.avail s
    rw [P.avail_alloc halloc]
    rw [htables] at hc
    rintro ⟨hcavail, hcb⟩
    exact hc.elim hcb fun hc => h.used c hc hcavail
  · intro p j c hp hc
    by_cases hcb : c = b
    · rw [hcb, hmem, link_fresh hba]
      exact (by decide : hasBit pteHuge 0#64 = false)
    have hne : p ≠ q ++ [i] := fun heq => hcb (some.inj (hc.symm.trans (heq ▸ hself)))
    rw [hother p (paths_closed hp) hne] at hc
    by_cases hca : c = a
    · subst hca
      by_cases hji : j = i
      · rw [hji, hmem, link_entry]
        exact hhuge
      · rw [hmem, link_entry_of_ne hba hji]
        exact h.small p j c hp hc
    · rw [hmem, link_of_ne hcb hca]
      exact h.small p j c hp hc
  · intro p c hp hc
    rw [hother p hp, hc]
    rintro rfl
    exact absurd (hold.symm.trans hc) nofun
  · intro p l hp hlen
    by_cases heq : p = q ++ [i]
    · rw [entryAt, entryAt, heq, hself, hold]
      exact congrFun (link_fresh hba) l
    rw [entryAt, entryAt, hother p hp heq]
    cases hc : w.table root p with
    | none => rfl
    | some c =>
      have hcb : c ≠ b := fun hcb => hfresh (hcb ▸ mem_tables hp hc)
      exact congrFun (link_of_ne hcb (h.ne_leaf hq ha hp hlen hc)) l
  · intro c hc hcavail
    exact link_of_ne (fun hcb => hcavail (hcb ▸ havail)) fun hca =>
      hc (hca ▸ mem_tables hpath ha)
  · intro j hj
    have hrb : root ≠ b := fun hrb => hfresh (hrb ▸ root_mem_tables)
    by_cases hra : root = a
    · have hnil := h.tree.inj q [] root hpath nil_mem_paths (hra ▸ ha) rfl
      rw [hnil] at hq
      rw [hra]
      exact link_entry_of_ne hba fun hji => hj (hji ▸ hq)
    · exact congrFun (link_of_ne hrb hra) j
  · intro c hc
    rw [htables] at hc
    exact hc.elim (fun hcb => .inr (hcb ▸ havail)) .inl
  · change P.avail s = _
    rw [P.avail_alloc halloc, htables]
    ext c
    exact and_congr_right fun hc => ⟨fun hcb hor => hor.elim hcb fun ht => h.used c ht hc,
      fun hor hcb => hor (.inl hcb)⟩
  · change P.held s = _
    rw [P.held_alloc halloc, htables, insert_sdiff_of_notMem _ hfresh, sdiff_self,
      insert_empty_eq, union_singleton]

end

lemma table_concat (ha : w.table root q = some a) : w.table root (q ++ [i]) = child (w.mem a i)
  := by
  rw [table, walk_concat]
  rw [table] at ha
  rw [ha]
  rfl

/-- `get_next_level` returns the table below an entry, and makes it if need be. -/
lemma Tables.getNextLevel
    (h : Tables P n root w) (hq : q ++ [i] ∈ paths n) (ha : w.table root q = some a)
    (hg : w.getNextLevel P a i = some (b, w')) :
  Grown P n root w (if (w.table root (q ++ [i])).isNone then [q ++ [i]] else []) w'
    ∧ w'.table root (q ++ [i]) = some b
  := by
  rw [table_concat ha]
  rw [Paging.getNextLevel] at hg
  split at hg
  case isTrue hpresent =>
    obtain ⟨rfl, rfl⟩ := Prod.mk.inj (some.inj hg)
    have hpresent' : present (w.mem a i ||| (ptePresent ||| pteUser ||| pteWritable)) := by
      rw [present_or, hpresent, Bool.true_or]
    have hchild := child_or_flags (f := ptePresent ||| pteUser ||| pteWritable) hpresent (by decide)
    rw [child_of_present hpresent]
    refine ⟨h.extends_flags hq ha hpresent (by decide) (by decide), ?_⟩
    rw [table_store_of_child_eq hchild, table_concat ha, ← hchild, child_of_present hpresent']
  case isFalse hpresent =>
    split at hg
    case h_1 => exact absurd hg nofun
    case h_2 next s halloc =>
      obtain ⟨rfl, rfl⟩ := Prod.mk.inj (some.inj hg)
      have haligned := P.aligned (.inl (P.alloc_mem halloc))
      have hnot := Bool.eq_false_iff.mpr hpresent
      rw [child_of_not_present hnot]
      refine h.extends_link hq ha hnot halloc (child_table haligned) ?_
      rw [hasBit_or, hasBit_or, hasBit_or, hasBit_and_of_zero _ _ _ (by decide)]
      decide

lemma getNextLevel_eq_none (ha : w.table root q = some a) :
  w.getNextLevel P a i = none ↔ (w.table root (q ++ [i])).isNone ∧ P.count w.pool = 0
  := by
  rw [table_concat ha, ← P.alloc_eq_none, getNextLevel, child]
  split
  · exact ⟨nofun, nofun⟩
  · cases P.alloc w.pool with
    | none => exact ⟨fun _ => ⟨rfl, rfl⟩, fun _ => rfl⟩
    | some r => exact ⟨nofun, nofun⟩

/-- Follow a path from a table, making tables as need be. -/
def descend (P : FrameAllocator σ) : Paging σ → Word → List ℕ → Option (Word × Paging σ)
  | w, a, [] => some (a, w)
  | w, a, i :: is => (w.getNextLevel P a i).bind fun r => descend P r.2 r.1 is

/-- The paths to the tables that are met on the way. -/
def onTheWay (q : List ℕ) : List ℕ → List (List ℕ)
  | [] => []
  | i :: is => (q ++ [i]) :: onTheWay (q ++ [i]) is

/-- Those of them that do not exist. -/
def missing (w : Paging σ) (root : Word) (q is : List ℕ) : List (List ℕ) :=
  (onTheWay q is).filter fun p => (w.table root p).isNone

/-- A frame of the allocator may be taken and filled. -/
lemma Tables.fill (h : Tables P n root w) {s : σ} (halloc : P.alloc w.pool = some (b, s))
    (c : ℕ → Word) :
  Tables P n root ((w.withPool s).fill b c)
    ∧ (∀ q ∈ paths n, ((w.withPool s).fill b c).table root q = w.table root q)
    ∧ ∀ q ∈ paths n, ∀ l, ((w.withPool s).fill b c).entryAt root q l = w.entryAt root q l
  := by
  have hfresh : ∀ q ∈ paths n, ∀ a, w.table root q = some a → a ≠ b := by
    rintro q hq a ha rfl
    exact h.used a (mem_tables hq ha) (P.alloc_mem halloc)
  have hkeep : ∀ a ≠ b, ((w.withPool s).fill b c).mem a = w.mem a :=
    fun a hab => Function.update_of_ne hab ..
  have htable : ∀ q ∈ paths n, ((w.withPool s).fill b c).table root q = w.table root q := by
    intro q hq
    refine walk_congr fun p i hp a ha => ?_
    rw [hkeep a (hfresh p (paths_closed (paths_of_isPrefix hp hq)) a ha)]
  refine ⟨⟨h.tree.congr htable, fun a ha => ?_, fun q i a hq ha => ?_⟩, htable, fun q hq l => ?_⟩
  · change a ∉ P.avail s
    rw [tables_congr htable] at ha
    rw [P.avail_alloc halloc]
    exact fun hmem => h.used a ha hmem.1
  · rw [htable q (paths_closed hq)] at ha
    rw [hkeep a (hfresh q (paths_closed hq) a ha)]
    exact h.small q i a hq ha
  · rw [entryAt, entryAt, htable q hq]
    cases ha : w.table root q with
    | none => rfl
    | some a => exact congrFun (hkeep a (hfresh q hq a ha)) l

lemma length_of_mem_onTheWay (h : p ∈ onTheWay q is) : q.length < p.length
  := by
  induction is generalizing q with
  | nil => exact absurd h not_mem_nil
  | cons i is ih =>
    have hlen : (q ++ [i]).length = q.length + 1 := by rw [length_append, length_singleton]
    rcases mem_cons.mp h with rfl | h
    · omega
    · have hlt := ih h
      omega

lemma isPrefix_of_mem_onTheWay (h : p ∈ onTheWay q is) : p <+: q ++ is
  := by
  induction is generalizing q with
  | nil => exact absurd h not_mem_nil
  | cons i is ih =>
    rw [append_cons]
    rcases mem_cons.mp h with rfl | h
    · exact prefix_append _ _
    · exact ih h

lemma missing_cons :
  w.missing root q (i :: is)
    = (if (w.table root (q ++ [i])).isNone then [q ++ [i]] else []) ++ w.missing root (q ++ [i]) is
  := by
  rw [missing, onTheWay, filter_cons]
  split <;> rfl

/-- A path is followed unless there is too little memory for the tables that are missing. -/
lemma Tables.descend (h : Tables P n root w) (hq : q ++ is ∈ paths n) (ha : w.table root q = some a) :
  (descend P w a is = none ↔ P.count w.pool < (w.missing root q is).length)
    ∧ ∀ b w', descend P w a is = some (b, w') →
      Grown P n root w (w.missing root q is) w' ∧ w'.table root (q ++ is) = some b
  := by
  induction is generalizing w a q with
  | nil =>
    refine ⟨⟨nofun, fun hlt => absurd hlt (Nat.not_lt_zero _)⟩, fun b w' hd => ?_⟩
    obtain ⟨rfl, rfl⟩ := Prod.mk.inj (some.inj hd)
    exact ⟨.refl h, by rwa [append_nil]⟩
  | cons i is ih =>
    have hrest : q ++ [i] ++ is ∈ paths n := by rwa [append_assoc]
    have hpath : q ++ [i] ∈ paths n := paths_of_isPrefix (prefix_append _ _) hrest
    rw [missing_cons, descend]
    cases hg : w.getNextLevel P a i with
    | none =>
      obtain ⟨hnone, hcount⟩ := (getNextLevel_eq_none ha).mp hg
      rw [if_pos hnone, hcount]
      exact ⟨⟨fun _ => Nat.succ_pos _, fun _ => rfl⟩, nofun⟩
    | some r =>
      obtain ⟨b₁, w₁⟩ := r
      obtain ⟨hgrown, hb₁⟩ := h.getNextLevel hpath ha hg
      have hsame : w₁.missing root (q ++ [i]) is = w.missing root (q ++ [i]) is := by
        refine filter_congr fun p hp => ?_
        rw [hgrown.kept p (paths_of_isPrefix (isPrefix_of_mem_onTheWay hp) hrest) fun hmem => ?_]
        have hlt := length_of_mem_onTheWay hp
        split at hmem
        · rw [mem_singleton.mp hmem] at hlt
          omega
        · exact absurd hmem not_mem_nil
      obtain ⟨hnone, hsome⟩ := ih hgrown.ext.tables hrest hb₁
      rw [hsame] at hnone hsome
      refine ⟨hnone.trans ?_, fun b w' hd => ?_⟩
      · rw [hgrown.count, length_append]
        omega
      · obtain ⟨hgrown', hb⟩ := hsome b w' hd
        exact ⟨hgrown.trans hgrown', by rwa [append_assoc] at hb⟩

end Paging
