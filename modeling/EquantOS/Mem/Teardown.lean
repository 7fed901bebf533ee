import EquantOS.Mem.AddressSpace

/-!
# The frames of an address space

If the tables of the user half are a tree, and the frames of the pages that are given back with them are
distinct and none of a table, then `vmm_destroy_address_space` gives back each table and each of these
frames once.
-/

open List Option

namespace Paging

variable {σ : Type} {P : FrameAllocator σ} {w : Paging σ} {root total a x : Word} {q q' : List ℕ}

/-- The frame is that of a table or of a page at or below a path. -/
def Occurs (w : Paging σ) (root total : Word) (q : List ℕ) (x : Word) : Prop :=
  (∃ r, q ++ r ∈ paths 256 ∧ w.table root (q ++ r) = some x)
    ∨ ∃ r l, q ++ r ∈ paths 256 ∧ (q ++ r).length = 3 ∧ l < 512
      ∧ freeable total (w.entryAt root (q ++ r) l) = true
      ∧ x = w.entryAt root (q ++ r) l &&& pteAddrMask

/-- The frames of pages are distinct, and none is that of a table. -/
structure Separate (w : Paging σ) (root total : Word) : Prop where
  inj (q q' : List ℕ) (l l' : ℕ) : q ∈ paths 256 → q.length = 3 → q' ∈ paths 256 → q'.length = 3 →
    l < 512 → l' < 512 →
    freeable total (w.entryAt root q l) = true → freeable total (w.entryAt root q' l') = true →
    w.entryAt root q l &&& pteAddrMask = w.entryAt root q' l' &&& pteAddrMask → q = q' ∧ l = l'
  table (q : List ℕ) (l : ℕ) : q ∈ paths 256 → q.length = 3 → l < 512 →
    freeable total (w.entryAt root q l) = true →
    w.entryAt root q l &&& pteAddrMask ∉ w.tables root 256

lemma occurs_split (hlen : q.length < 3) (hq : q ∈ paths 256) :
  Occurs w root total q x
    ↔ w.table root q = some x ∨ ∃ j, q ++ [j] ∈ paths 256 ∧ Occurs w root total (q ++ [j]) x
  := by
  constructor
  · rintro (⟨r, hr, hx⟩ | ⟨r, l, hr, hlen', hrest⟩)
    · cases r with
      | nil =>
        rw [append_nil] at hx
        exact .inl hx
      | cons j r =>
        rw [append_cons] at hr hx
        exact .inr ⟨j, paths_of_isPrefix (prefix_append _ _) hr, .inl ⟨r, hr, hx⟩⟩
    · cases r with
      | nil =>
        rw [append_nil] at hlen'
        omega
      | cons j r =>
        rw [append_cons] at hr hlen' hrest
        exact .inr ⟨j, paths_of_isPrefix (prefix_append _ _) hr, .inr ⟨r, l, hr, hlen', hrest⟩⟩
  · rintro (hx | ⟨j, -, ⟨r, hr, hx⟩ | ⟨r, l, hr, hrest⟩⟩)
    · exact .inl ⟨[], by rwa [append_nil], by rwa [append_nil]⟩
    · rw [← append_cons] at hr hx
      exact .inl ⟨j :: r, hr, hx⟩
    · rw [← append_cons] at hr hrest
      exact .inr ⟨j :: r, l, hr, hrest⟩

lemma occurs_leaf (hlen : q.length = 3) (hq : q ∈ paths 256) :
  Occurs w root total q x
    ↔ (∃ l, l < 512 ∧ freeable total (w.entryAt root q l)
        ∧ x = w.entryAt root q l &&& pteAddrMask) ∨ w.table root q = some x
  := by
  have hnil : ∀ r, q ++ r ∈ paths 256 → r = [] := by
    intro r hr
    have hle := hr.1
    rw [length_append] at hle
    exact length_eq_zero_iff.mp (by omega)
  constructor
  · rintro (⟨r, hr, hx⟩ | ⟨r, l, hr, -, hrest⟩)
    · obtain rfl := hnil r hr
      rw [append_nil] at hx
      exact .inr hx
    · obtain rfl := hnil r hr
      rw [append_nil] at hrest
      exact .inl ⟨l, hrest⟩
  · rintro (⟨l, hrest⟩ | hx)
    · exact .inr ⟨[], l, by rwa [append_nil], by rwa [append_nil], by rwa [append_nil]⟩
    · exact .inl ⟨[], by rwa [append_nil], by rwa [append_nil]⟩

/-- Below an existing table an entry leads on exactly if there is a table below it. -/
lemma Tables.leadsOn_iff (h : Tables P 256 root w) {j : ℕ} (hq : q ++ [j] ∈ paths 256)
    (ha : w.table root q = some a) :
  leadsOn (w.mem a j) ↔ w.table root (q ++ [j]) = some (w.mem a j &&& pteAddrMask)
  := by
  rw [table_concat ha, leadsOn, h.small q j a hq ha, child, Bool.not_false, Bool.and_true]
  split
  case isTrue hpresent => exact ⟨fun _ => rfl, fun _ => hpresent⟩
  case isFalse hpresent => exact ⟨fun hcon => absurd hcon hpresent, fun hsome => by cases hsome⟩

lemma Occurs.isSome (h : Occurs w root total q x) : (w.table root q).isSome
  := by
  have hup : ∀ r a, w.table root (q ++ r) = some a → (w.table root q).isSome := by
    intro r a ha
    rw [table, Radix.walk_append] at ha
    obtain ⟨b, hb, -⟩ := bind_eq_some_iff.mp ha
    exact isSome_iff_exists.mpr ⟨b, hb⟩
  rcases h with ⟨r, -, hx⟩ | ⟨r, l, -, -, -, hfree, -⟩
  · exact hup r x hx
  cases hb : w.table root (q ++ r) with
  | some b => exact hup r b hb
  | none =>
    rw [entryAt, hb] at hfree
    exact absurd hfree (by simp [freeable, present, hasBit])

lemma mem_paths_concat (hq : q ∈ paths 256) (hne : q ≠ []) (hlen : q.length < 3) {j : ℕ} :
  q ++ [j] ∈ paths 256 ↔ j < 512
  := by
  constructor
  · exact fun h => h.2.1 j (by simp)
  intro hj
  refine ⟨by rw [length_append, length_singleton]; omega, fun i hi => ?_, fun i hi => ?_⟩
  · rcases mem_append.mp hi with hi | hi
    · exact hq.2.1 i hi
    · rwa [mem_singleton.mp hi]
  · refine hq.2.2 i ?_
    cases q with
    | nil => exact absurd rfl hne
    | cons k q => exact hi

/-- The teardown of a table gives back what occurs below it. -/
lemma Tables.mem_teardownTable (h : Tables P 256 root w) {n : ℕ} (hq : q ∈ paths 256) (hne : q ≠ [])
    (hlen : q.length + n = 3) (ha : w.table root q = some a) :
  x ∈ teardownTable w.mem total n a ↔ Occurs w root total q x
  := by
  induction n generalizing q a with
  | zero =>
    have hentry : ∀ l, w.entryAt root q l = w.mem a l := fun l => by
      rw [entryAt, ha]
      rfl
    rw [teardownTable, occurs_leaf hlen hq, mem_append, mem_flatMap, mem_singleton, ha,
      some_inj, eq_comm (a := a)]
    refine or_congr (exists_congr fun l => ?_) Iff.rfl
    rw [mem_range, hentry, mem_ite_nil_right, mem_singleton]
  | succ n ih =>
    rw [teardownTable, occurs_split (by omega) hq, mem_append, mem_flatMap,
      mem_singleton, or_comm, ha, some_inj, eq_comm (a := a)]
    refine or_congr Iff.rfl (exists_congr fun j => ?_)
    rw [mem_range, mem_ite_nil_right, mem_paths_concat hq hne (by omega)]
    refine and_congr_right fun hj => ?_
    have hpath := (mem_paths_concat hq hne (by omega)).mpr hj
    have hlen' : (q ++ [j]).length + n = 3 := by
      rw [length_append, length_singleton]
      omega
    have hleads := h.leadsOn_iff hpath ha
    constructor
    · rintro ⟨hl, hx⟩
      exact (ih hpath (by simp) hlen' (hleads.mp hl)).mp hx
    intro hx
    have hsome := hx.isSome
    have hl : leadsOn (w.mem a j) := by
      rw [hleads, table_concat ha]
      rw [table_concat ha, child] at hsome
      split at hsome
      case isTrue hpresent => exact child_of_present hpresent
      case isFalse => cases hsome
    exact ⟨hl, (ih hpath (by simp) hlen' (hleads.mp hl)).mpr hx⟩

section

variable (h : Tables P 256 root w) (hsep : Separate w root total)

include h hsep

/-- What occurs below two paths of one length occurs below one path. -/
lemma Occurs.eq_of_length (hx : Occurs w root total q x) (hx' : Occurs w root total q' x)
    (hlen : q.length = q'.length) :
  q = q'
  := by
  rcases hx with ⟨r, hr, hx⟩ | ⟨r, l, hr, hr3, hl, hfree, hx⟩ <;>
    rcases hx' with ⟨r', hr', hx'⟩ | ⟨r', l', hr', hr3', hl', hfree', hx'⟩
  · exact append_inj_left (h.tree.inj _ _ x hr hr' hx hx') hlen
  · exact absurd (mem_tables hr (hx' ▸ hx)) (hsep.table _ l' hr' hr3' hl' hfree')
  · exact absurd (mem_tables hr' (hx ▸ hx')) (hsep.table _ l hr hr3 hl hfree)
  · have heq := (hsep.inj _ _ l l' hr hr3 hr' hr3' hl hl' hfree hfree' (hx.symm.trans hx')).1
    exact append_inj_left heq hlen

/-- A table does not occur below one of its entries. -/
lemma Occurs.ne_table {j : ℕ}
    (hq : q ∈ paths 256) (ha : w.table root q = some a) (hx : Occurs w root total (q ++ [j]) x) :
  x ≠ a
  := by
  rintro rfl
  rcases hx with ⟨r, hr, hx⟩ | ⟨r, l, hr, hr3, hl, hfree, hx⟩
  · have heq := congrArg length (h.tree.inj _ _ x hr hq hx ha)
    simp only [length_append, length_singleton] at heq
    omega
  · exact absurd (mem_tables hq (hx ▸ ha)) (hsep.table _ l hr hr3 hl hfree)

lemma Tables.nodup_teardownTable {n : ℕ}
    (hq : q ∈ paths 256) (hne : q ≠ []) (hlen : q.length + n = 3) (ha : w.table root q = some a) :
  (teardownTable w.mem total n a).Nodup
  := by
  induction n generalizing q a with
  | zero =>
    have hentry : ∀ l, w.entryAt root q l = w.mem a l := fun l => by
      rw [entryAt, ha]
      rfl
    rw [teardownTable, nodup_append, nodup_flatMap]
    refine ⟨⟨fun l _ => ?_, nodup_range.pairwise_of_forall_ne fun l hl l' hl' hne => ?_⟩,
      nodup_singleton a, fun x hx y hy => ?_⟩
    · split
      · exact nodup_singleton _
      · exact nodup_nil
    · intro x hx hx'
      obtain ⟨hfree, hx⟩ := mem_ite_nil_right.mp hx
      obtain ⟨hfree', hx'⟩ := mem_ite_nil_right.mp hx'
      have heq := (mem_singleton.mp hx).symm.trans (mem_singleton.mp hx')
      rw [← hentry] at hfree hfree'
      rw [← hentry, ← hentry] at heq
      exact hne (hsep.inj q q l l' hq hlen hq hlen (mem_range.mp hl) (mem_range.mp hl')
        hfree hfree' heq).2
    · obtain ⟨l, hl, hx⟩ := mem_flatMap.mp hx
      obtain ⟨hfree, hx⟩ := mem_ite_nil_right.mp hx
      rw [mem_singleton.mp hx, mem_singleton.mp hy]
      rw [← hentry] at hfree ⊢
      exact fun heq => hsep.table q l hq hlen (mem_range.mp hl) hfree (heq ▸ mem_tables hq ha)
  | succ n ih =>
    have hlen' : ∀ j, (q ++ [j]).length + n = 3 := fun j => by
      rw [length_append, length_singleton]
      omega
    have hpath : ∀ j ∈ range 512, q ++ [j] ∈ paths 256 := fun j hj =>
      (mem_paths_concat hq hne (by omega)).mpr (mem_range.mp hj)
    have hoccurs : ∀ j ∈ range 512, ∀ x,
        x ∈ (if leadsOn (w.mem a j) then teardownTable w.mem total n (w.mem a j &&& pteAddrMask)
          else []) → Occurs w root total (q ++ [j]) x := by
      intro j hj x hx
      obtain ⟨hleads, hx⟩ := mem_ite_nil_right.mp hx
      exact (h.mem_teardownTable (hpath j hj) (by simp) (hlen' j)
        ((h.leadsOn_iff (hpath j hj) ha).mp hleads)).mp hx
    rw [teardownTable, nodup_append, nodup_flatMap]
    refine ⟨⟨fun j hj => ?_, nodup_range.pairwise_of_forall_ne fun j hj j' hj' hne => ?_⟩,
      nodup_singleton a, fun x hx y hy => ?_⟩
    · split
      case isTrue hleads =>
        exact ih (hpath j hj) (by simp) (hlen' j) ((h.leadsOn_iff (hpath j hj) ha).mp hleads)
      case isFalse => exact nodup_nil
    · intro x hx hx'
      have heq := (hoccurs j hj x hx).eq_of_length h hsep (hoccurs j' hj' x hx') (by simp)
      exact hne (by simpa using heq)
    · obtain ⟨j, hj, hx⟩ := mem_flatMap.mp hx
      rw [mem_singleton.mp hy]
      exact (hoccurs j hj x hx).ne_table h hsep hq ha

end

lemma singleton_mem_paths {n i : ℕ} (hn : n ≤ 512) : [i] ∈ paths n ↔ i < n
  := by
  refine ⟨fun h => h.2.2 i rfl, fun hi => ⟨by simp, fun j hj => ?_, fun j hj => ?_⟩⟩
  · rw [mem_singleton.mp hj]
    omega
  · rwa [← some.inj hj]

/-- The teardown of an address space gives back all that occurs in it. -/
lemma Tables.mem_teardown (h : Tables P 256 root w) (hroot : root &&& pteAddrMask = root) :
  x ∈ teardown w.mem total root ↔ Occurs w root total [] x
  := by
  have hnil : ([] : List ℕ) ∈ paths 256 := nil_mem_paths
  rw [teardown, hroot, occurs_split (by decide) hnil, mem_append, mem_flatMap,
    mem_singleton, or_comm, table, Radix.walk, some_inj, eq_comm (a := root)]
  refine or_congr Iff.rfl (exists_congr fun i => ?_)
  rw [mem_range, mem_ite_nil_right, nil_append, singleton_mem_paths (by decide)]
  refine and_congr_right fun hi => ?_
  have hpath : [i] ∈ paths 256 := (singleton_mem_paths (by decide)).mpr hi
  have htable : w.table root [i] = child (w.mem root i) := table_concat (q := []) rfl
  constructor
  · rintro ⟨hpresent, hx⟩
    rw [child_of_present hpresent] at htable
    exact (h.mem_teardownTable hpath (by simp) rfl htable).mp hx
  · intro hx
    have hsome := hx.isSome
    rw [htable, child] at hsome
    split at hsome
    case isTrue hpresent =>
      rw [child_of_present hpresent] at htable
      exact ⟨hpresent, (h.mem_teardownTable hpath (by simp) rfl htable).mpr hx⟩
    case isFalse => cases hsome

lemma Tables.nodup_teardown (h : Tables P 256 root w) (hroot : root &&& pteAddrMask = root)
    (hsep : Separate w root total) :
  (teardown w.mem total root).Nodup
  := by
  have htable : ∀ i, present (w.mem root i) →
      w.table root [i] = some (w.mem root i &&& pteAddrMask) :=
    fun i hi => (table_concat (q := []) rfl).trans (child_of_present hi)
  have hpath : ∀ i ∈ range 256, [i] ∈ paths 256 :=
    fun i hi => (singleton_mem_paths (by decide)).mpr (mem_range.mp hi)
  have hoccurs : ∀ i ∈ range 256, ∀ x,
      x ∈ (if present (w.mem root i) then
        teardownTable w.mem total 2 (w.mem root i &&& pteAddrMask) else []) →
      Occurs w root total ([] ++ [i]) x := by
    intro i hi x hx
    obtain ⟨hpresent, hx⟩ := mem_ite_nil_right.mp hx
    exact (h.mem_teardownTable (hpath i hi) (by simp) rfl (htable i hpresent)).mp hx
  rw [teardown, hroot, nodup_append, nodup_flatMap]
  refine ⟨⟨fun i hi => ?_, nodup_range.pairwise_of_forall_ne fun i hi i' hi' hne => ?_⟩,
    nodup_singleton root, fun x hx y hy => ?_⟩
  · split
    case isTrue hpresent =>
      exact h.nodup_teardownTable hsep (hpath i hi) (by simp) rfl (htable i hpresent)
    case isFalse => exact nodup_nil
  · intro x hx hx'
    have heq := (hoccurs i hi x hx).eq_of_length h hsep (hoccurs i' hi' x hx') rfl
    exact hne (by simpa using heq)
  · obtain ⟨i, hi, hx⟩ := mem_flatMap.mp hx
    rw [mem_singleton.mp hy]
    exact (hoccurs i hi x hx).ne_table h hsep nil_mem_paths rfl

/-! ### In terms of pages -/

/-- Every entry of the last level is that of a page of the user half. -/
lemma exists_userPage {l : ℕ} (hq : q ∈ paths 256) (hlen : q.length = 3) (hl : l < 512) :
  ∃ v, UserPage v ∧ pagePath v = q ∧ ptIdx v = l
  := by
  obtain ⟨i, j, k, rfl⟩ := length_eq_three.mp hlen
  have hi : i < 256 := hq.2.2 i rfl
  have hj : j < 512 := hq.2.1 j (by simp)
  have hk : k < 512 := hq.2.1 k (by simp)
  obtain ⟨htwo, hle⟩ := (covers_root hi).put hj
  obtain ⟨hone, hle'⟩ := (Covers.mk htwo hle).put hk
  obtain ⟨v, hv⟩ : ∃ v : Word, v.toNat = 4096 * (512 * (512 * (512 * i + j) + k) + l) :=
    ⟨_, ((Covers.mk hone hle').put hl).1⟩
  refine ⟨v, ⟨by omega, by omega⟩, ?_, ?_⟩
  · rw [pagePath, pml4Idx, pdptIdx, pdIdx, tableIdx_eq, tableIdx_eq, tableIdx_eq, hv, cons.injEq,
      cons.injEq, cons.injEq]
    exact ⟨by omega, by omega, by omega, rfl⟩
  · rw [ptIdx, tableIdx_eq, hv]
    omega

/-- The frames of the pages that are given back are distinct, and none is that of a table. -/
structure PagesSeparate (w : Paging σ) (root total : Word) : Prop where
  inj (v v' : Word) : UserPage v → UserPage v' → freeable total (w.entry root v) = true →
    freeable total (w.entry root v') = true →
    w.entry root v &&& pteAddrMask = w.entry root v' &&& pteAddrMask → v = v'
  table (v : Word) : UserPage v → freeable total (w.entry root v) = true →
    w.entry root v &&& pteAddrMask ∉ w.tables root 256

lemma PagesSeparate.separate (h : PagesSeparate w root total) : Separate w root total
  := by
  constructor
  · intro q q' l l' hq hlen hq' hlen' hl hl'
    obtain ⟨v, hv, rfl, rfl⟩ := exists_userPage hq hlen hl
    obtain ⟨v', hv', rfl, rfl⟩ := exists_userPage hq' hlen' hl'
    intro hfree hfree' heq
    obtain rfl := h.inj v v' hv hv' hfree hfree' heq
    exact ⟨rfl, rfl⟩
  · intro q l hq hlen hl
    obtain ⟨v, hv, rfl, rfl⟩ := exists_userPage hq hlen hl
    exact h.table v hv

lemma occurs_nil :
  Occurs w root total [] x ↔ x ∈ w.tables root 256
    ∨ ∃ v, UserPage v ∧ freeable total (w.entry root v)
      ∧ x = w.entry root v &&& pteAddrMask
  := by
  refine or_congr Iff.rfl ?_
  constructor
  · rintro ⟨r, l, hr, hlen, hl, hfree, hx⟩
    obtain ⟨v, hv, hr', rfl⟩ := exists_userPage hr hlen hl
    rw [← hr'] at hfree hx
    exact ⟨v, hv, hfree, hx⟩
  · rintro ⟨v, hv, hfree, hx⟩
    exact ⟨pagePath v, ptIdx v, pagePath_mem hv.pml4Idx_lt, rfl, tableIdx_lt 12 v, hfree, hx⟩

end Paging
