import EquantOS.Mem.Teardown

/-!
# Copying an address space

What the copy of an address space has done after some pages: the child's tables are those on the way to
these pages, each page has a frame of its own with the contents of the parent's, and all these frames
were available before.  How the copy ends depends on the number of free frames and on the addresses of
the pages only.
-/

open Function List Option

namespace Paging

open Paging

variable {σ : Type} {P : FrameAllocator σ} {w₀ w w' : Paging σ} {child v e : Word}
  {made : List (List ℕ)} {done : List (Word × Word)}

/-- The paths to tables that a page needs and that are not made yet. -/
def newPaths (made : List (List ℕ)) (v : Word) : List (List ℕ) :=
  (onTheWay [] (pagePath v)).filter fun p => decide (p ∉ made)

/-- How a copy ends. -/
inductive Ending where
  | complete
  /-- There is no frame for the page after the given number of pages. -/
  | outOfPages (copied : ℕ)
  /-- There is no frame for a table. -/
  | panic
  deriving DecidableEq, Repr

/-- How the copy of further pages ends, given the number of free frames, the tables that are made and the
number of pages that are copied. -/
def ending : ℕ → List (List ℕ) → ℕ → List Word → Ending
  | _, _, _, [] => .complete
  | 0, _, copied, _ :: _ => .outOfPages copied
  | free + 1, made, copied, v :: vs =>
    if free < (newPaths made v).length then .panic
    else ending (free - (newPaths made v).length) (made ++ newPaths made v) (copied + 1) vs

/-- How the copy of an address space with the given pages ends. -/
def copyEnding (free : ℕ) (vs : List Word) : Ending :=
  if free = 0 then .outOfPages 0 else ending (free - 1) [[]] 0 vs

/-- The frames of the pages that are copied. -/
def copies (w : Paging σ) (child : Word) (done : List (Word × Word)) : List Word :=
  done.map fun p => w.entry child p.1 &&& pteAddrMask

/-- The pages `done` are copied, with tables for the paths `made`. -/
structure Copying (P : FrameAllocator σ) (w₀ : Paging σ) (child : Word) (made : List (List ℕ))
    (done : List (Word × Word)) (w : Paging σ) : Prop where
  tables : Tables P 256 child w
  nodup : made.Nodup
  mem_made (p : List ℕ) : p ∈ made ↔ p ∈ paths 256 ∧ (w.table child p).isSome = true
  old (a : Word) : a ∉ P.avail w₀.pool → w.mem a = w₀.mem a
  upper (i : ℕ) : 256 ≤ i → w.mem child i = w₀.mem w₀.kernelPml4 i
  absent (v : Word) : UserPage v → v ∉ done.map Prod.fst → present (w.entry child v) = false
  user (v e : Word) : (v, e) ∈ done → UserPage v
  flags (v e : Word) : (v, e) ∈ done →
    w.entry child v = mapEntry (w.entry child v &&& pteAddrMask) (e &&& pteFlagsMask)
  contents (v e : Word) : (v, e) ∈ done →
    w.mem (w.entry child v &&& pteAddrMask) = w₀.mem (e &&& pteAddrMask)
  distinct : (w.copies child done).Nodup
  apart (f : Word) : f ∈ w.copies child done → f ∉ w.tables child 256
  fresh (f : Word) : f ∈ w.tables child 256 ∨ f ∈ w.copies child done → f ∈ P.avail w₀.pool
  avail (f : Word) : f ∈ P.avail w.pool
    ↔ f ∈ P.avail w₀.pool ∧ f ∉ w.tables child 256 ∧ f ∉ w.copies child done
  held (f : Word) : f ∈ P.held w.pool
    ↔ f ∈ P.held w₀.pool ∨ f ∈ w.tables child 256 ∨ f ∈ w.copies child done
  count : P.count w₀.pool = P.count w.pool + made.length + done.length
  victim : w.victim = w₀.victim

lemma nodup_onTheWay (q is : List ℕ) : (onTheWay q is).Nodup
  := by
  induction is generalizing q with
  | nil => exact nodup_nil
  | cons i is ih =>
    exact nodup_cons.mpr
      ⟨fun hmem => absurd (length_of_mem_onTheWay hmem) (Nat.lt_irrefl _), ih _⟩

lemma Copying.missing_eq (h : Copying P w₀ child made done w) (hv : UserPage v) :
  w.missing child [] (pagePath v) = newPaths made v
  := by
  refine filter_congr fun p hp => ?_
  have hpath : p ∈ paths 256 :=
    paths_of_isPrefix (isPrefix_of_mem_onTheWay hp) (pagePath_mem hv.pml4Idx_lt)
  have hmade := h.mem_made p
  rw [Bool.eq_iff_iff, decide_eq_true_iff, hmade, isNone_iff_eq_none, not_and,
    isSome_iff_ne_none, not_not]
  exact ⟨fun hnone _ => hnone, fun hnone => hnone hpath⟩

/-- The frames of a copy are no longer available. -/
lemma Copying.notMem_avail (h : Copying P w₀ child made done w) {f : Word}
    (hf : f ∈ w.tables child 256 ∨ f ∈ w.copies child done) : f ∉ P.avail w.pool
  := by
  intro havail
  obtain ⟨-, htables, hcopies⟩ := (h.avail f).mp havail
  exact hf.elim htables hcopies

/-- A frame is taken and filled, tables are made, and the frame is mapped at a page of the user half. -/
structure PageAdded (P : FrameAllocator σ) (child v f pte : Word) (contents : ℕ → Word)
    (added : List (List ℕ)) (w w' : Paging σ) : Prop where
  tables : Tables P 256 child w'
  paths (p : List ℕ) : p ∈ added → p ∈ paths 256
  isSome (p : List ℕ) : p ∈ Paging.paths 256 →
    ((w'.table child p).isSome = true ↔ p ∈ added ∨ (w.table child p).isSome = true)
  mono (a : Word) : a ∈ w.tables child 256 → a ∈ w'.tables child 256
  made (a : Word) : a ∈ w'.tables child 256 → a ∈ w.tables child 256 ∨ a ∈ P.avail w.pool ∧ a ≠ f
  taken : f ∈ P.avail w.pool
  apart : f ∉ w'.tables child 256
  kept (a : Word) : a ∉ w.tables child 256 → a ∉ P.avail w.pool → w'.mem a = w.mem a
  upper (i : ℕ) : 256 ≤ i → w'.mem child i = w.mem child i
  contents : w'.mem f = contents
  self : w'.entry child v = pte
  others (u : Word) : UserPage u → u ≠ v → w'.entry child u = w.entry child u
  avail (a : Word) : a ∈ P.avail w'.pool
    ↔ (a ∈ P.avail w.pool ∧ a ≠ f) ∧ a ∉ w'.tables child 256
  held (a : Word) : a ∈ P.held w'.pool
    ↔ (a = f ∨ a ∈ P.held w.pool) ∨ a ∈ w'.tables child 256 ∧ a ∉ w.tables child 256
  count : P.count w.pool = P.count w'.pool + 1 + added.length
  victim : w'.victim = w.victim

section Step

variable {s : σ} {f pt : Word} {w₃ : Paging σ} {added : List (List ℕ)} {contents : ℕ → Word}

/-- Mapping a frame that was just taken and filled. -/
lemma Tables.pageAdded (h : Tables P 256 child w) (pte : Word) (hv : UserPage v)
    (halloc : P.alloc w.pool = some (f, s))
    (hgrown : Grown P 256 child ((w.withPool s).fill f contents) added w₃)
    (hpt : w₃.table child (pagePath v) = some pt) :
  PageAdded P child v f pte contents added w (w₃.store pt (ptIdx v) pte)
  := by
  have hpath := pagePath_mem hv.pml4Idx_lt
  have hfavail := P.alloc_mem halloc
  obtain ⟨-, htable₂, hentry₂⟩ := h.fill halloc contents
  obtain ⟨hext, hcount₃, hkept₃, hnew₃⟩ := hgrown
  obtain ⟨htables', htable'⟩ := hext.tables.store_leaf hpath rfl hpt (ptIdx v) pte
  set w₂ := (w.withPool s).fill f contents with hw₂
  set w' := w₃.store pt (ptIdx v) pte with hw'
  have htabs₂ : w₂.tables child 256 = w.tables child 256 := tables_congr htable₂
  have htabs' : w'.tables child 256 = w₃.tables child 256 := tables_congr htable'
  have hptmem : pt ∈ w₃.tables child 256 := mem_tables hpath hpt
  have hfill : ∀ a ≠ f, w₂.mem a = w.mem a := fun a ha => update_of_ne ha ..
  have hstore : ∀ a ≠ pt, w'.mem a = w₃.mem a := fun a ha => Radix.store_row_of_ne ha
  have havail₂ : P.avail w₂.pool = P.avail w.pool \ {f} := P.avail_alloc halloc
  have hmade : ∀ a, a ∈ w₃.tables child 256 →
      a ∈ w.tables child 256 ∨ a ∈ P.avail w.pool ∧ a ≠ f := by
    intro a ha
    rcases hext.added a ha with ha | ha
    · exact .inl (htabs₂ ▸ ha)
    · rw [havail₂] at ha
      exact .inr ha
  have hfout : f ∉ w₃.tables child 256 := fun hmem => (hmade f hmem).elim
    (fun ht => h.used f ht hfavail) fun ha => ha.2 rfl
  constructor
  case tables => exact htables'
  case paths => exact fun p hp => (hnew₃ p hp).1
  case isSome =>
    intro p hp
    rw [htable' p hp]
    by_cases hmem : p ∈ added
    · exact ⟨fun _ => .inl hmem, fun _ => (hnew₃ p hmem).2.2⟩
    · rw [hkept₃ p hp hmem, htable₂ p hp]
      exact ⟨.inr, fun hor => hor.resolve_left hmem⟩
  case mono =>
    intro a ha
    rw [htabs']
    exact hext.mono_tables (htabs₂ ▸ ha)
  case made =>
    intro a ha
    exact hmade a (htabs' ▸ ha)
  case taken => exact hfavail
  case apart =>
    rw [htabs']
    exact hfout
  case kept =>
    intro a ht ha
    rw [hstore a fun heq => (hmade a (heq ▸ hptmem)).elim ht fun hav => ha hav.1,
      hext.other a (htabs₂ ▸ ht) (by rw [havail₂]; exact fun hmem => ha hmem.1),
      hfill a fun heq => ha (heq ▸ hfavail)]
  case upper =>
    intro i hi
    have hout : [i] ∉ paths 256 := fun hmem => absurd (hmem.2.2 i rfl) (by omega)
    have hroot : child ≠ pt := by
      rintro rfl
      exact absurd (hext.tables.tree.inj [] _ child nil_mem_paths hpath rfl hpt) nofun
    rw [hstore child hroot, hext.upper i hout, hfill child fun heq => hfout (heq ▸ root_mem_tables)]
  case contents =>
    rw [hstore f fun heq => hfout (heq ▸ hptmem),
      hext.other f (fun hmem => hfout (hext.mono_tables hmem))
        (by rw [havail₂]; exact fun hmem => hmem.2 rfl)]
    exact update_self ..
  case self => exact hext.tables.entryAt_store_self hpath rfl hpt _ _
  case others =>
    intro u hu hne
    have hupath := pagePath_mem hu.pml4Idx_lt
    have hne' : pagePath u ≠ pagePath v ∨ ptIdx u ≠ ptIdx v := by
      by_contra hcon
      rw [not_or, not_not, not_not] at hcon
      exact hne (hu.isPage.eq_of_path hv.isPage hcon.1 hcon.2)
    exact (hext.tables.entryAt_store_of_ne hpath rfl hpt _ hupath hne').trans
      ((hext.leaf _ _ hupath rfl).trans (hentry₂ _ hupath _))
  case avail =>
    intro a
    change a ∈ P.avail w₃.pool ↔ _
    rw [hext.avail, havail₂, htabs']
    exact Iff.rfl
  case held =>
    intro a
    have hheld₂ : P.held w₂.pool = insert f (P.held w.pool) := P.held_alloc halloc
    change a ∈ P.held w₃.pool ↔ _
    rw [hext.held, hheld₂, htabs₂, htabs']
    exact Iff.rfl
  case count =>
    have hone : P.count w.pool = P.count w₂.pool + 1 := P.count_alloc halloc
    change P.count w.pool = P.count w₃.pool + 1 + added.length
    omega
  case victim => exact hext.victim

/-- One page more is copied. -/
lemma Copying.pageAdded (h : Copying P w₀ child made done w) (hv : UserPage v)
    (hnew : v ∉ done.map Prod.fst) (hold : e &&& pteAddrMask ∉ P.avail w₀.pool)
    (ha : PageAdded P child v f (mapEntry f (e &&& pteFlagsMask)) (w.mem (e &&& pteAddrMask))
      (newPaths made v) w w') :
  Copying P w₀ child (made ++ newPaths made v) (done ++ [(v, e)]) w'
  := by
  have hframe : w'.entry child v &&& pteAddrMask = f := by
    rw [ha.self, mapEntry_and_addrMask, P.aligned (.inl ha.taken)]
  have hdone : ∀ u d, (u, d) ∈ done → w'.entry child u = w.entry child u := by
    intro u d hu
    exact ha.others u (h.user u d hu) fun heq => hnew (heq ▸ mem_map_of_mem (f := Prod.fst) hu)
  have hcopies : w'.copies child (done ++ [(v, e)]) = w.copies child done ++ [f] := by
    rw [copies, map_append, map_singleton, hframe]
    congr 1
    exact map_congr_left fun p hp => by rw [hdone p.1 p.2 hp]
  have hsplit : ∀ u d, (u, d) ∈ done ++ [(v, e)] → (u, d) ∈ done ∨ u = v ∧ d = e := by
    intro u d hu
    exact (mem_append.mp hu).imp_right fun hu => Prod.mk.inj (mem_singleton.mp hu)
  constructor
  case tables => exact ha.tables
  case nodup =>
    refine nodup_append.mpr ⟨h.nodup, (nodup_onTheWay [] (pagePath v)).filter _, ?_⟩
    rintro p hp q hq rfl
    exact absurd hp (of_decide_eq_true (mem_filter.mp hq).2)
  case mem_made =>
    intro p
    rw [mem_append]
    constructor
    · rintro (hp | hp)
      · obtain ⟨hpath, hsome⟩ := (h.mem_made p).mp hp
        exact ⟨hpath, (ha.isSome p hpath).mpr (.inr hsome)⟩
      · exact ⟨ha.paths p hp, (ha.isSome p (ha.paths p hp)).mpr (.inl hp)⟩
    · rintro ⟨hpath, hsome⟩
      rcases (ha.isSome p hpath).mp hsome with hp | hp
      · exact .inr hp
      · exact .inl ((h.mem_made p).mpr ⟨hpath, hp⟩)
  case old =>
    intro a hout
    rw [ha.kept a (fun ht => hout (h.fresh a (.inl ht))) fun hav => hout ((h.avail a).mp hav).1]
    exact h.old a hout
  case upper =>
    intro i hi
    rw [ha.upper i hi, h.upper i hi]
  case absent =>
    intro u hu hnot
    rw [map_append, mem_append, not_or] at hnot
    rw [ha.others u hu fun heq => hnot.2 (mem_singleton.mpr heq)]
    exact h.absent u hu hnot.1
  case user =>
    intro u d hu
    rcases hsplit u d hu with hu | ⟨rfl, rfl⟩
    · exact h.user u d hu
    · exact hv
  case flags =>
    intro u d hu
    rcases hsplit u d hu with hu | ⟨rfl, rfl⟩
    · rw [hdone u d hu]
      exact h.flags u d hu
    · rw [hframe]
      exact ha.self
  case contents =>
    intro u d hu
    rcases hsplit u d hu with hu | ⟨rfl, rfl⟩
    · have hcopy : w.entry child u &&& pteAddrMask ∈ w.copies child done :=
        mem_map.mpr ⟨(u, d), hu, rfl⟩
      rw [hdone u d hu, ha.kept _ (h.apart _ hcopy) (h.notMem_avail (.inr hcopy))]
      exact h.contents u d hu
    · rw [hframe, ha.contents, h.old _ hold]
  case distinct =>
    rw [hcopies]
    refine nodup_append.mpr ⟨h.distinct, nodup_singleton f, fun a hcopy b hb => ?_⟩
    rintro rfl
    exact h.notMem_avail (.inr hcopy) (mem_singleton.mp hb ▸ ha.taken)
  case apart =>
    intro a hcopy ht
    rw [hcopies] at hcopy
    rcases mem_append.mp hcopy with hcopy | hcopy
    · exact (ha.made a ht).elim (h.apart a hcopy) fun hav => h.notMem_avail (.inr hcopy) hav.1
    · exact ha.apart (mem_singleton.mp hcopy ▸ ht)
  case fresh =>
    intro a hor
    rw [hcopies] at hor
    rcases hor with ht | hcopy
    · exact (ha.made a ht).elim (fun ht => h.fresh a (.inl ht)) fun hav =>
        ((h.avail a).mp hav.1).1
    rcases mem_append.mp hcopy with hcopy | hcopy
    · exact h.fresh a (.inr hcopy)
    · rw [mem_singleton.mp hcopy]
      exact ((h.avail f).mp ha.taken).1
  case avail =>
    intro a
    rw [ha.avail, h.avail, hcopies, mem_append, mem_singleton]
    constructor
    · rintro ⟨⟨⟨hav, -, hcopy⟩, hne⟩, ht⟩
      exact ⟨hav, ht, fun hor => hor.elim hcopy hne⟩
    · rintro ⟨hav, ht, hnot⟩
      exact ⟨⟨⟨hav, fun hmem => ht (ha.mono a hmem), fun hmem => hnot (.inl hmem)⟩,
        fun heq => hnot (.inr heq)⟩, ht⟩
  case held =>
    intro a
    rw [ha.held, h.held, hcopies, mem_append, mem_singleton]
    constructor
    · rintro ((heq | hheld | ht | hcopy) | ⟨ht, -⟩)
      · exact .inr (.inr (.inr heq))
      · exact .inl hheld
      · exact .inr (.inl (ha.mono a ht))
      · exact .inr (.inr (.inl hcopy))
      · exact .inr (.inl ht)
    · rintro (hheld | ht | hcopy | heq)
      · exact .inl (.inr (.inl hheld))
      · by_cases hmem : a ∈ w.tables child 256
        · exact .inl (.inr (.inr (.inl hmem)))
        · exact .inr ⟨ht, hmem⟩
      · exact .inl (.inr (.inr (.inr hcopy)))
      · exact .inl (.inl heq)
  case count =>
    have hall := h.count
    have hone := ha.count
    rw [length_append, length_append, length_singleton]
    omega
  case victim => exact ha.victim.trans h.victim

end Step

/-- A page is copied, or there is too little memory for it or for its tables. -/
lemma Copying.clonePage (h : Copying P w₀ child made done w) (hv : UserPage v)
    (hnew : v ∉ done.map Prod.fst) (hold : e &&& pteAddrMask ∉ P.avail w₀.pool) :
  (P.count w.pool = 0 → clonePage P child v e w = .error (.outOfPages (w.oomKiller P)))
  ∧ ∀ free, P.count w.pool = free + 1 →
    (free < (newPaths made v).length → clonePage P child v e w = .error .panic)
    ∧ ((newPaths made v).length ≤ free →
      ∃ w', clonePage P child v e w = .ok w'
        ∧ Copying P w₀ child (made ++ newPaths made v) (done ++ [(v, e)]) w'
        ∧ P.count w'.pool = free - (newPaths made v).length)
  := by
  cases halloc : P.alloc w.pool with
  | none =>
    have hzero := (P.alloc_eq_none w.pool).mp halloc
    exact ⟨fun _ => clonePage_of_none v e halloc, fun free hfree => by omega⟩
  | some r =>
    obtain ⟨f, s⟩ := r
    have hcount := P.count_alloc halloc
    refine ⟨fun hzero => by omega, fun free hfree => ?_⟩
    obtain ⟨htables₂, htable₂, -⟩ := h.tables.fill halloc (w.mem (e &&& pteAddrMask))
    have hmissing : ((w.withPool s).fill f (w.mem (e &&& pteAddrMask))).missing child []
        (pagePath v) = newPaths made v := by
      rw [← h.missing_eq hv]
      refine filter_congr fun p hp => ?_
      rw [htable₂ p (paths_of_isPrefix (isPrefix_of_mem_onTheWay hp) (pagePath_mem hv.pml4Idx_lt))]
    obtain ⟨hnone, hsome⟩ := htables₂.vmmMap hv.pml4Idx_lt f (e &&& pteFlagsMask)
    rw [hmissing] at hnone hsome
    change _ ↔ P.count s < _ at hnone
    rw [clonePage_of_some v e halloc]
    constructor
    · intro hlt
      rw [hnone.mpr (by omega)]
      rfl
    · intro hle
      cases hmap : ((w.withPool s).fill f (w.mem (e &&& pteAddrMask))).vmmMap P child v f
        (e &&& pteFlagsMask) with
      | none =>
        have hlt := hnone.mp hmap
        omega
      | some w' =>
        obtain ⟨w₃, pt, hgrown, hpt, rfl⟩ := hsome w' hmap
        have hadded := h.tables.pageAdded (mapEntry f (e &&& pteFlagsMask)) hv halloc hgrown hpt
        have hone := hadded.count
        exact ⟨_, rfl, h.pageAdded hv hnew hold hadded, by omega⟩

/-! ### From the first page to the last -/

/-- The copy of the pages `all` has ended as predicted. -/
def Ended (P : FrameAllocator σ) (w₀ : Paging σ) (child : Word) (all : List (Word × Word))
    (r : Except (Stop σ) (Paging σ)) : Ending → Prop
  | .complete => ∃ w made, r = .ok w ∧ Copying P w₀ child made all w
  | .outOfPages copied => ∃ w made, r = .error (.outOfPages (w.oomKiller P))
      ∧ Copying P w₀ child made (all.take copied) w ∧ copied ≤ all.length ∧ P.count w.pool = 0
  | .panic => r = .error .panic

lemma Copying.clonePages {ps : List (Word × Word)} (h : Copying P w₀ child made done w)
    (huser : ∀ p ∈ ps, UserPage p.1 ∧ p.2 &&& pteAddrMask ∉ P.avail w₀.pool)
    (hnodup : ((done ++ ps).map Prod.fst).Nodup) :
  Ended P w₀ child (done ++ ps) (clonePages P child ps w)
    (ending (P.count w.pool) made done.length (ps.map Prod.fst))
  := by
  induction ps generalizing w made done with
  | nil =>
    rw [append_nil]
    exact ⟨w, made, rfl, h⟩
  | cons p ps ih =>
    obtain ⟨v, e⟩ := p
    obtain ⟨hv, hold⟩ := huser (v, e) mem_cons_self
    have hnew : v ∉ done.map Prod.fst := by
      rw [map_append, nodup_append] at hnodup
      exact fun hmem => hnodup.2.2 v hmem v mem_cons_self rfl
    obtain ⟨hempty, hpage⟩ := h.clonePage hv hnew hold
    rw [clonePages, foldlM_cons, map_cons]
    cases hfree : P.count w.pool with
    | zero =>
      rw [hempty hfree]
      refine ⟨w, made, rfl, ?_, ?_, hfree⟩
      · rw [take_left]
        exact h
      · rw [length_append]
        omega
    | succ free =>
      obtain ⟨hpanic, hok⟩ := hpage free hfree
      rw [ending]
      split
      case isTrue hlt =>
        rw [hpanic hlt]
        rfl
      case isFalse hle =>
        obtain ⟨w₁, hw₁, hcopying, hcount⟩ := hok (by omega)
        rw [hw₁, append_cons, ← hcount]
        have hrest := ih hcopying (fun q hq => huser q (mem_cons_of_mem _ hq))
          (by rwa [← append_cons])
        rw [length_append] at hrest
        exact hrest

lemma Copying.clonePages_nil {ps : List (Word × Word)} (h : Copying P w₀ child made [] w)
    (huser : ∀ p ∈ ps, UserPage p.1 ∧ p.2 &&& pteAddrMask ∉ P.avail w₀.pool)
    (hnodup : (ps.map Prod.fst).Nodup) :
  Ended P w₀ child ps (Paging.clonePages P child ps w)
    (ending (P.count w.pool) made 0 (ps.map Prod.fst))
  := h.clonePages huser hnodup

/-- The address space that `vmm_create_address_space` makes. -/
lemma copying_create {s : σ} (halloc : P.alloc w₀.pool = some (child, s))
    (hkernel : w₀.kernelPml4 ∉ P.avail w₀.pool) :
  ∃ w, w₀.vmmCreateAddressSpace P = (some child, w) ∧ Copying P w₀ child [[]] [] w
    ∧ P.count w₀.pool = P.count w.pool + 1
  := by
  have havail := P.alloc_mem halloc
  have hne : w₀.kernelPml4 ≠ child := fun heq => hkernel (heq ▸ havail)
  rw [vmmCreateAddressSpace, pmmAlloc, halloc]
  refine ⟨_, rfl, ?_, P.count_alloc halloc⟩
  set w₁ := (w₀.withPool s).fill child fun _ => 0#64 with hw₁
  set w := w₁.fill child fun i => if 256 ≤ i then w₁.mem w₁.kernelPml4 i else w₁.mem child i with hw
  have hother : ∀ a ≠ child, w.mem a = w₀.mem a := fun a ha =>
    (update_of_ne ha ..).trans (update_of_ne ha ..)
  have hzero : w₁.mem child = fun _ => 0#64 := update_self ..
  have hself : w.mem child = fun i => if 256 ≤ i then w₁.mem w₁.kernelPml4 i else w₁.mem child i :=
    update_self ..
  have hupper : w₁.mem w₁.kernelPml4 = w₀.mem w₀.kernelPml4 := update_of_ne hne ..
  have hpool : P.avail w.pool = P.avail w₀.pool \ {child} := P.avail_alloc halloc
  obtain ⟨htables, hnil, hentry⟩ := tables_blank (P := P) (w := w) (n := 256) child
    (fun i hi => by rw [hself, hzero]; exact if_neg (by omega))
    (by rw [hpool]; exact fun hmem => hmem.2 rfl)
  have htabs : ∀ a, a ∈ w.tables child 256 ↔ a = child := by
    intro a
    constructor
    · rintro ⟨q, hq, ha⟩
      obtain rfl := hnil q hq a ha
      exact (some.inj ha).symm
    · rintro rfl
      exact root_mem_tables
  have hcopies : w.copies child [] = [] := rfl
  constructor
  case tables => exact htables
  case nodup => exact nodup_singleton _
  case mem_made =>
    intro p
    rw [mem_singleton]
    constructor
    · rintro rfl
      exact ⟨nil_mem_paths, rfl⟩
    · rintro ⟨hp, hsome⟩
      obtain ⟨a, ha⟩ := isSome_iff_exists.mp hsome
      exact hnil p hp a ha
  case old => exact fun a ha => hother a fun heq => ha (heq ▸ havail)
  case upper =>
    intro i hi
    rw [hself, hupper]
    exact if_pos hi
  case absent =>
    intro v hv _
    rw [hentry v hv.pml4Idx_lt]
    decide
  case user => exact fun _ _ hmem => absurd hmem not_mem_nil
  case flags => exact fun _ _ hmem => absurd hmem not_mem_nil
  case contents => exact fun _ _ hmem => absurd hmem not_mem_nil
  case distinct => exact nodup_nil
  case apart => exact fun _ hmem => absurd hmem not_mem_nil
  case fresh =>
    rintro f (hf | hf)
    · rwa [(htabs f).mp hf]
    · exact absurd hf not_mem_nil
  case avail =>
    intro f
    rw [hpool, htabs]
    exact ⟨fun hmem => ⟨hmem.1, hmem.2, not_mem_nil⟩, fun hmem => ⟨hmem.1, hmem.2.1⟩⟩
  case held =>
    intro f
    have hheld : P.held w.pool = insert child (P.held w₀.pool) := P.held_alloc halloc
    rw [hheld, htabs]
    constructor
    · exact fun hmem => hmem.elim (fun heq => .inr (.inl heq)) .inl
    · rintro (hmem | heq | hmem)
      · exact .inr hmem
      · exact .inl heq
      · exact absurd hmem not_mem_nil
  case count => exact P.count_alloc halloc
  case victim => rfl

/-! ### Giving the copy back -/

/-- The page is given back with the copy. -/
def cached (p : Word × Word) : Bool := !hasBit ptePcd p.2

section

variable (h : Copying P w₀ child made done w)

include h

lemma Copying.frame_mem (hp : (v, e) ∈ done) :
  w.entry child v &&& pteAddrMask ∈ P.avail w₀.pool :=
  h.fresh _ (.inr (List.mem_map.mpr ⟨(v, e), hp, rfl⟩))

lemma Copying.freeable_iff (hp : (v, e) ∈ done) :
  freeable P.totalMemory (w.entry child v) = cached (v, e)
  := by
  have hmem := h.frame_mem hp
  have hframe := P.aligned (.inl hmem)
  have hbelow := P.below (.inl hmem)
  have hflags := h.flags v e hp
  have hpresent : present (w.entry child v) := by
    rw [hflags]
    exact present_mapEntry ..
  have hpcd : hasBit ptePcd (w.entry child v) = hasBit ptePcd e := by
    rw [hflags, mapEntry, hframe, hasBit_or, hasBit_or,
      ← hframe, hasBit_and_of_zero _ _ _ (by decide), hasBit_and _ _ pteFlagsMask (by decide),
      hasBit_and _ _ pteFlagsMask (by decide), Bool.false_or]
    exact Bool.or_false _
  rw [freeable, hpresent, hpcd, decide_eq_true hbelow, cached, Bool.true_and, Bool.and_true]

lemma Copying.mem_done (hv : UserPage v)
    (hpresent : present (w.entry child v)) :
  ∃ e, (v, e) ∈ done
  := by
  by_contra hnot
  have habsent := h.absent v hv fun hmem => by
    obtain ⟨⟨u, e⟩, hu, rfl⟩ := mem_map.mp hmem
    exact hnot ⟨e, hu⟩
  rw [hpresent] at habsent
  exact absurd habsent nofun

end

lemma present_of_freeable {total e : Word} (h : freeable total e) : present e
  := by
  rw [freeable, Bool.and_eq_true] at h
  exact h.1

section

variable (h : Copying P w₀ child made done w)

include h

lemma Copying.separate :
  PagesSeparate w child P.totalMemory
  := by
  constructor
  · intro v v' hv hv' hfree hfree' heq
    obtain ⟨e, he⟩ := h.mem_done hv (present_of_freeable hfree)
    obtain ⟨e', he'⟩ := h.mem_done hv' (present_of_freeable hfree')
    exact congrArg Prod.fst (inj_on_of_nodup_map h.distinct he he' heq)
  · intro v hv hfree
    obtain ⟨e, he⟩ := h.mem_done hv (present_of_freeable hfree)
    exact h.apart _ (mem_map.mpr ⟨(v, e), he, rfl⟩)

/-- The teardown gives back the tables and the cached pages. -/
lemma Copying.mem_teardown {f : Word} :
  f ∈ teardown w.mem P.totalMemory child
    ↔ f ∈ w.tables child 256 ∨ f ∈ w.copies child (done.filter cached)
  := by
  have hroot := P.aligned (.inl (h.fresh child (.inl root_mem_tables)))
  rw [h.tables.mem_teardown hroot, occurs_nil]
  refine or_congr Iff.rfl ?_
  constructor
  · rintro ⟨v, hv, hfree, rfl⟩
    obtain ⟨e, he⟩ := h.mem_done hv (present_of_freeable hfree)
    exact mem_map.mpr ⟨(v, e), mem_filter.mpr ⟨he, (h.freeable_iff he).symm.trans hfree⟩, rfl⟩
  · intro hf
    obtain ⟨⟨v, e⟩, hp, rfl⟩ := mem_map.mp hf
    obtain ⟨he, hcached⟩ := mem_filter.mp hp
    exact ⟨v, h.user v e he, (h.freeable_iff he).trans hcached, rfl⟩

lemma Copying.nodup_teardown :
  (teardown w.mem P.totalMemory child).Nodup :=
  h.tables.nodup_teardown (P.aligned (.inl (h.fresh child (.inl root_mem_tables))))
    h.separate.separate

lemma Copying.length_teardown :
  (teardown w.mem P.totalMemory child).length = made.length + (done.filter cached).length
  := by
  have htable : ∀ p ∈ made, w.table child p = some ((w.table child p).getD 0) := by
    intro p hp
    obtain ⟨a, ha⟩ := isSome_iff_exists.mp ((h.mem_made p).mp hp).2
    rw [ha]
    rfl
  have hnodup : (made.map fun p => (w.table child p).getD 0).Nodup := by
    refine List.Nodup.map_on (fun p hp q hq heq => ?_) h.nodup
    exact h.tables.tree.inj p q _ ((h.mem_made p).mp hp).1 ((h.mem_made q).mp hq).1 (htable p hp)
      (heq ▸ htable q hq)
  have hmem : ∀ a, a ∈ made.map (fun p => (w.table child p).getD 0) ↔ a ∈ w.tables child 256 := by
    intro a
    rw [List.mem_map]
    constructor
    · rintro ⟨p, hp, rfl⟩
      exact mem_tables ((h.mem_made p).mp hp).1 (htable p hp)
    · rintro ⟨p, hp, ha⟩
      have hsome : (w.table child p).isSome := isSome_iff_exists.mpr ⟨a, ha⟩
      refine ⟨p, (h.mem_made p).mpr ⟨hp, hsome⟩, ?_⟩
      rw [table, ha]
      rfl
  have hsub : (w.copies child (done.filter cached)).Nodup :=
    h.distinct.sublist (filter_sublist.map _)
  have hperm : (teardown w.mem P.totalMemory child).Perm
      (made.map (fun p => (w.table child p).getD 0) ++ w.copies child (done.filter cached)) := by
    refine (perm_ext_iff_of_nodup h.nodup_teardown ?_).mpr fun a => ?_
    · refine nodup_append.mpr ⟨hnodup, hsub, fun a ha b hb => ?_⟩
      rintro rfl
      have hcopy : a ∈ w.copies child done := (filter_sublist.map _).subset hb
      exact h.apart a hcopy ((hmem a).mp ha)
    · rw [h.mem_teardown, mem_append, hmem]
  rw [hperm.length_eq, length_append, length_map, copies, length_map]

end

end Paging
