import EquantOS.Proc.MemCalls
import Mathlib.Algebra.BigOperators.Intervals
import Mathlib.Algebra.Order.BigOperators.Group.Finset

/-!
# Where `mmap` puts memory

A range that `mmap` chooses begins at a cursor that all processes share, and nothing looks at what is
mapped there.  The ranges are apart from all other pages as long as the other calls stay away from the
part of the address spaces that the cursor runs through, and no call fails after it has moved the
cursor.
-/

open Function Option

namespace MemCalls

open Sys Finset List Nat

/-! ### The law of `mmap` -/

/-- A call that fails leaves the pages and tables of the caller, the number of free frames and the cursor
as they were.  A call that succeeds and chooses the address returns a range of pages that lie in the
user half, were not mapped in the caller and are mapped now. -/
def MmapOk (s : Sys) (pid : ℕ) (a : MmapArgs) : Prop :=
  match s.sysMmap pid a with
  | none => True
  | some (.error, s') => s'.space pid = s.space pid ∧ s'.free.length = s.free.length ∧
    s'.mmapBase = s.mmapBase
  | some (.addr v, s') => a.fixed = false → v % 4096 = 0 ∧ v + a.length ≤ 2 ^ 47 ∧
    ∀ page, pageOf v ≤ page → page * 4096 < v + a.length →
      (s.space pid).pages.lookup page = none ∧ ((s'.space pid).pages.lookup page).isSome

/-- The calls of `sys_mmap_handler` that a call makes keep the law. -/
def CallOk (s : Sys) : Call → Prop
  | .mmap pid a => MmapOk s pid a
  | .mremap pid oldAddr oldSize newSize => newSize ≠ 0 → oldAddr % 4096 = 0 → oldSize < newSize →
    MmapOk s pid (remapArgs newSize)
  | _ => True

/-- The pages are not between the cursor and the limit. -/
def Apart (limit : ℕ) (s : Sys) (page n : ℕ) : Prop :=
  page + n ≤ 2 ^ 36 ∧ (page + n ≤ pageOf s.mmapBase ∨ limit ≤ page * 4096)

/-- The kernel chooses the address. -/
def MmapArgs.Placed (a : MmapArgs) : Prop := a.addr = 0 ∨ a.fixed = false

/-- There is something to map, and there are frames enough for the pages and their tables. -/
def Provided (s : Sys) (pid : ℕ) (a : MmapArgs) : Prop :=
  if s.fileAt pid a.fd = .framebuffer then
    ∃ first size, s.kernelFb = some (first, size) ∧ pageCount a.length * 4096 ≤ size
  else
    (a.anonymous ∨ s.fileAt pid a.fd = .plain) ∧ 4 * pageCount a.length +
      ∑ i ∈ range (pageCount a.length), a.taken i ≤ s.free.length

/-- There is nothing to map. -/
def Refused (s : Sys) (pid : ℕ) (a : MmapArgs) : Prop :=
  if s.fileAt pid a.fd = .framebuffer then s.kernelFb = none
  else a.anonymous = false ∧ s.fileAt pid a.fd ≠ .plain

/-- An `mmap` that chooses the address has room up to the limit, something to map and frames enough.
One at a given address stays away from the part between the cursor and the limit; it may fail if
it does so at once. -/
def TameMmap (limit : ℕ) (s : Sys) (pid : ℕ) (a : MmapArgs) : Prop :=
  a.length ≠ 0 → a.offsetOk → a.length + 4095 < 2 ^ 64 ∧
    (a.Placed → s.mmapBase + pageCount a.length * 4096 ≤ limit ∧ Provided s pid a) ∧
    (¬ a.Placed → Apart limit s (pageOf a.addr) (pageCount a.length) ∧
      (Provided s pid a ∨ Refused s pid a))

def Tame (limit : ℕ) (s : Sys) : Call → Prop
  | .mmap pid a => TameMmap limit s pid a
  | .munmap _ _ _ => True
  | .mremap pid _ _ newSize => TameMmap limit s pid (remapArgs newSize)
  | .shmat _ shmid addr => ∀ frames, s.segments.lookup shmid = some frames →
    Apart limit s (pageOf (if addr = 0 then s.shmNext else addr)) frames.length

/-- No process has a page between the cursor and the limit. -/
structure Clear (limit : ℕ) (s : Sys) : Prop where
  aligned : s.mmapBase % 4096 = 0
  clear (pid page : ℕ) : s.mmapBase ≤ page * 4096 → page * 4096 < limit →
    (s.space pid).pages.lookup page = none

/-! ### Mapping pages -/

/-- The pages of a range are mapped, and nothing else happens but that tables are made. -/
structure Maps (pid page n : ℕ) (s s' : Sys) : Prop where
  base : s'.mmapBase = s.mmapBase
  inside {k : ℕ} : k < n → ((s'.space pid).pages.lookup ((page + k) % 2 ^ 36)).isSome
  outside {pid' p : ℕ} : (pid' = pid → ∀ k < n, p ≠ (page + k) % 2 ^ 36) →
    (s'.space pid').pages.lookup p = (s.space pid').pages.lookup p

variable {s s' : Sys} {pid page : ℕ}

lemma getNextLevel_spec (level : ℕ) :
  (∀ s', s.getNextLevel pid level page = some s' → s'.mmapBase = s.mmapBase ∧
      (∀ pid', (s'.space pid').pages = (s.space pid').pages) ∧ s.free.length ≤ s'.free.length + 1) ∧
    (s.free ≠ [] → ∃ s', s.getNextLevel pid level page = some s')
  := by
  unfold getNextLevel pmmAlloc
  split
  · refine ⟨fun s' hs' => ?_, fun _ => ⟨s, rfl⟩⟩
    obtain rfl := some.inj hs'
    exact ⟨rfl, fun _ => rfl, le_succ _⟩
  cases hfree : s.free with
  | nil => exact ⟨nofun, fun hne => absurd rfl hne⟩
  | cons f free =>
    refine ⟨fun s' hs' => ?_, fun _ => ⟨_, rfl⟩⟩
    obtain rfl := some.inj hs'
    refine ⟨rfl, fun pid' => ?_, le_refl _⟩
    simp only [setSpace, update_apply]
    split_ifs with hpid
    · rw [hpid]
    · rfl

/-- `vmm_map` maps its page, and takes three frames for tables at most. -/
lemma vmmMap_spec (frame : ℕ) :
  (∀ s', s.vmmMap pid page frame = some s' → s'.mmapBase = s.mmapBase ∧
      (∀ pid' p, (s'.space pid').pages.lookup p
        = if pid' = pid ∧ p = page % 2 ^ 36 then some frame else (s.space pid').pages.lookup p) ∧
      s.free.length ≤ s'.free.length + 3) ∧
    (3 ≤ s.free.length → ∃ s', s.vmmMap pid page frame = some s')
  := by
  unfold vmmMap
  constructor
  · intro s' hs'
    obtain ⟨s₁, h₁, hs'⟩ := bind_eq_some_iff.mp hs'
    obtain ⟨s₂, h₂, hs'⟩ := bind_eq_some_iff.mp hs'
    obtain ⟨s₃, h₃, hs'⟩ := bind_eq_some_iff.mp hs'
    obtain rfl := some.inj hs'
    obtain ⟨hb₁, hp₁, hf₁⟩ := (getNextLevel_spec 3).1 s₁ h₁
    obtain ⟨hb₂, hp₂, hf₂⟩ := (getNextLevel_spec 2).1 s₂ h₂
    obtain ⟨hb₃, hp₃, hf₃⟩ := (getNextLevel_spec 1).1 s₃ h₃
    have hpages : ∀ pid', (s₃.space pid').pages = (s.space pid').pages := fun pid' =>
      (hp₃ pid').trans ((hp₂ pid').trans (hp₁ pid'))
    refine ⟨hb₃.trans (hb₂.trans hb₁), fun pid' p => ?_, ?_⟩
    · simp only [setSpace]
      by_cases hpid : pid' = pid
      · subst hpid
        simp only [update_self, AssocMap.lookup_put, true_and, hpages]
      · simp only [update_of_ne hpid, hpid, false_and, if_false, hpages]
    · change s.free.length ≤ s₃.free.length + 3
      omega
  · intro hfree
    have hne : ∀ {l : List ℕ}, 0 < l.length → l ≠ [] := fun h => ne_nil_of_length_pos h
    obtain ⟨s₁, h₁⟩ := (@getNextLevel_spec s pid (page % 2 ^ 36) 3).2 (hne (by omega))
    have hf₁ := ((getNextLevel_spec 3).1 s₁ h₁).2.2
    obtain ⟨s₂, h₂⟩ := (@getNextLevel_spec s₁ pid (page % 2 ^ 36) 2).2 (hne (by omega))
    have hf₂ := ((getNextLevel_spec 2).1 s₂ h₂).2.2
    obtain ⟨s₃, h₃⟩ := (@getNextLevel_spec s₂ pid (page % 2 ^ 36) 1).2 (hne (by omega))
    simp only [h₁, h₂, h₃, bind_eq_bind, bind_some]
    exact ⟨_, rfl⟩

/-- One page, then the pages after it. -/
lemma Maps.cons
    {s₁ : Sys} {frame n : ℕ} (h : s.vmmMap pid page frame = some s₁) (hrest : Maps pid (page + 1) n s₁ s') :
  Maps pid page (n + 1) s s'
  := by
  obtain ⟨hbase, hpages, -⟩ := (vmmMap_spec frame).1 s₁ h
  constructor
  · exact hrest.base.trans hbase
  · intro k hk
    cases k with
    | succ k =>
      rw [show page + (k + 1) = page + 1 + k by omega]
      exact hrest.inside (by omega)
    | zero =>
      -- the first page is mapped now, and later again or not at all
      by_cases hagain : ∃ k < n, page % 2 ^ 36 = (page + 1 + k) % 2 ^ 36
      · obtain ⟨k, hk, heq⟩ := hagain
        rw [add_zero, heq]
        exact hrest.inside hk
      · rw [add_zero, hrest.outside fun _ k hk heq => hagain ⟨k, hk, heq⟩, hpages,
          if_pos ⟨rfl, rfl⟩]
        rfl
  · intro pid' p hp
    rw [hrest.outside, hpages, if_neg]
    · rintro ⟨hpid, heq⟩
      exact hp hpid 0 (succ_pos n) heq
    · intro hpid k hk heq
      apply hp hpid (k + 1) (by omega)
      rw [heq, show page + (k + 1) = page + 1 + k by omega]

lemma Maps.nil : Maps pid page 0 s s := ⟨rfl, fun hk => absurd hk (not_lt_zero _), fun _ => rfl⟩

/-- The cursor and the frames do not matter. -/
lemma Maps.congr
    {s₁ : Sys} {n : ℕ} (hspace : s₁.space = s.space) (hbase : s₁.mmapBase = s.mmapBase)
    (h : Maps pid page n s₁ s') :
  Maps pid page n s s'
  := by
  refine ⟨h.base.trans hbase, h.inside, fun hp => ?_⟩
  rw [h.outside hp, hspace]

/-- With frames enough for the caches, nothing happens but that they are taken. -/
lemma eat_eq (n : ℕ) : ∀ s : Sys, n ≤ s.free.length → eat n s = { s with free := s.free.drop n }
  := by
  induction n with
  | zero => exact fun s _ => rfl
  | succ n ih =>
    intro s hn
    cases hfree : s.free with
    | nil =>
      rw [hfree] at hn
      exact absurd hn (not_succ_le_zero n)
    | cons f free =>
      have hnext : s.pmmAlloc.2 = { s with free := free } := by
        unfold pmmAlloc
        rw [hfree]
      rw [hfree, length_cons] at hn
      rw [eat, hnext, ih _ (le_of_succ_le_succ hn)]
      rfl

/-- With frames for all pages and tables the loop of `mmap` maps the whole range. -/
lemma mapPages_maps
    {eaten : ℕ → ℕ} (n : ℕ) :
  ∀ (i page : ℕ) (s : Sys), 4 * n + ∑ k ∈ range n, eaten (i + k) ≤ s.free.length →
    ∃ s', mapPages pid eaten n i page s = some (true, s') ∧ Maps pid page n s s'
  := by
  induction n with
  | zero => exact fun i page s _ => ⟨s, rfl, Maps.nil⟩
  | succ n ih =>
    intro i page s hfree
    have hsum : ∑ k ∈ range n, eaten (i + (k + 1)) = ∑ k ∈ range n, eaten (i + 1 + k) :=
      sum_congr rfl fun k _ => by rw [add_right_comm, add_assoc]
    simp only [Finset.sum_range_succ', add_zero] at hfree
    cases hf : s.free with
    | nil =>
      rw [hf, length_nil] at hfree
      omega
    | cons f free =>
      rw [hf, length_cons] at hfree
      obtain ⟨t, ht⟩ : ∃ t : Sys, t = { s with free := free.drop (eaten i) } := ⟨_, rfl⟩
      have hlen : t.free.length = free.length - eaten i := by rw [ht]; exact length_drop
      obtain ⟨s₁, h₁⟩ := (@vmmMap_spec t pid page f).2 (by omega)
      have hfree₁ := ((vmmMap_spec f).1 s₁ h₁).2.2
      obtain ⟨s', hs', hmaps⟩ := ih (i + 1) (page + 1) s₁ (by omega)
      refine ⟨s', ?_, (hmaps.cons h₁).congr (by rw [ht]) (by rw [ht])⟩
      have heat : eat (eaten i) { s with free := free } = t := by
        rw [eat_eq, ht]
        change eaten i ≤ free.length
        omega
      unfold mapPages pmmAlloc
      simp only [hf, heat, h₁]
      exact hs'

/-- The loops over given frames map the whole range if they end. -/
lemma mapFrames_maps
    (frames : List ℕ) :
  ∀ (page : ℕ) (s : Sys), mapFrames pid frames page s = some s' → Maps pid page frames.length s s'
  := by
  induction frames with
  | nil =>
    intro page s hs'
    obtain rfl := some.inj hs'
    exact Maps.nil
  | cons f frames ih =>
    intro page s hs'
    unfold mapFrames at hs'
    split at hs'
    · cases hs'
    · rename_i s₁ h₁
      exact (ih (page + 1) s₁ hs').cons h₁

/-! ### The part between the cursor and the limit -/

variable {limit n : ℕ}

/-- Pages apart from the part do not fill it. -/
lemma Clear.apart
    (h : Clear limit s) (hmaps : Maps pid page n s s') (hapart : Apart limit s page n) :
  Clear limit s'
  := by
  obtain ⟨hspace, hapart⟩ := hapart
  have hbase := h.aligned
  refine ⟨by rw [hmaps.base]; exact hbase, fun pid' p hp hlimit => ?_⟩
  rw [hmaps.base] at hp
  rw [hmaps.outside, h.clear pid' p hp hlimit]
  intro _ k hk heq
  unfold pageOf at hapart
  omega

/-- The pages from the cursor on are cut off by moving the cursor. -/
lemma Clear.placed
    (h : Clear limit s) (hlimit : limit ≤ 2 ^ 47) (hroom : s.mmapBase + n * 4096 ≤ limit)
    (hmaps : Maps pid (pageOf s.mmapBase) n
      { s with mmapBase := (s.mmapBase + n * 4096) % 2 ^ 64 } s') :
  Clear limit s'
  := by
  have hbase := h.aligned
  have hcursor : s'.mmapBase = s.mmapBase + n * 4096 := by
    rw [hmaps.base]
    exact mod_eq_of_lt (by omega)
  refine ⟨by omega, fun pid' p hp hp' => ?_⟩
  rw [hmaps.outside]
  · exact h.clear pid' p (by omega) hp'
  · intro _ k hk heq
    unfold pageOf at heq
    omega

lemma unmapPages_spec (n : ℕ) :
  ∀ (page : ℕ) (s : Sys), (unmapPages pid n page s).mmapBase = s.mmapBase ∧
    ∀ pid' p, (s.space pid').pages.lookup p = none →
      ((unmapPages pid n page s).space pid').pages.lookup p = none
  := by
  induction n with
  | zero => exact fun page s => ⟨rfl, fun _ _ hp => hp⟩
  | succ n ih =>
    intro page s
    unfold unmapPages
    split
    · exact ih (page + 1) s
    rename_i f _
    obtain ⟨hbase, hpages⟩ := ih (page + 1) ((s.pmmFree f).vmmUnmap pid page)
    have hfree : (s.pmmFree f).mmapBase = s.mmapBase ∧ (s.pmmFree f).space = s.space := by
      unfold pmmFree
      split <;> exact ⟨rfl, rfl⟩
    refine ⟨hbase.trans hfree.1, fun pid' p hp => hpages pid' p ?_⟩
    rw [← hfree.2] at hp
    simp only [vmmUnmap, setSpace]
    by_cases hpid : pid' = pid
    · subst hpid
      simp only [update_self, AssocMap.lookup_erase, hp, ite_self]
    · rwa [update_of_ne hpid]

lemma Clear.munmap (h : Clear limit s) (addr length : ℕ) : Clear limit (s.sysMunmap pid addr length).2 := by
  unfold sysMunmap
  split
  · exact h
  · obtain ⟨hbase, hpages⟩ := @unmapPages_spec pid (pageCount length) (pageOf addr) s
    refine ⟨by rw [hbase]; exact h.aligned, fun pid' p hp hlimit => hpages pid' p ?_⟩
    exact h.clear pid' p (by rwa [hbase] at hp) hlimit

/-! ### One call -/

variable {a : MmapArgs}

/-- With something to map and frames enough the range is mapped. -/
lemma mmapAt_provided
    (hprovided : Provided s pid a) (hcount : 0 < pageCount a.length) (virt : ℕ) :
  s.mmapAt pid virt a = none ∨ ∃ s', s.mmapAt pid virt a = some (.addr virt, s') ∧
    Maps pid (pageOf virt) (pageCount a.length) s s'
  := by
  unfold Provided at hprovided
  unfold mmapAt
  dsimp only
  split_ifs at hprovided ⊢ with hfb hkind
  · obtain ⟨first, size, hsome, hsize⟩ := hprovided
    unfold devFbMmap
    rw [hsome]
    dsimp only
    rw [if_neg (by omega), show (pageCount a.length * 4096 + 4095) / 4096 = pageCount a.length by omega]
    split
    · exact .inl rfl
    rename_i s' hs'
    have hmaps := mapFrames_maps _ _ _ hs'
    rw [length_range'] at hmaps
    exact .inr ⟨s', rfl, hmaps⟩
  · obtain ⟨s', hs', hmaps⟩ := @mapPages_maps pid a.taken (pageCount a.length) 0 (pageOf virt) s
      (by simpa only [zero_add] using hprovided.2)
    rw [hs']
    exact .inr ⟨s', rfl, hmaps⟩
  · exact absurd hprovided.1 hkind

/-- With nothing to map nothing happens. -/
lemma mmapAt_refused (hrefused : Refused s pid a) (virt : ℕ) : s.mmapAt pid virt a = some (.error, s)
  := by
  unfold Refused at hrefused
  unfold mmapAt
  dsimp only
  split_ifs at hrefused ⊢ with hfb hkind
  · unfold devFbMmap
    rw [hrefused]
  · obtain ⟨hanon, hplain⟩ := hrefused
    rcases hkind with hkind | hkind
    · exact absurd hanon (by rw [hkind]; decide)
    · exact absurd hkind hplain
  · rfl

lemma pageCount_eq
    {length : ℕ} (hlength : length ≠ 0) (h : length + 4095 < 2 ^ 64) :
  0 < pageCount length ∧ length ≤ pageCount length * 4096 ∧ pageCount length * 4096 < length + 4096
  := by
  unfold pageCount
  omega

/-- The `mmap` keeps the law and the part between the cursor and the limit clear. -/
def Keeps (limit : ℕ) (s : Sys) (pid : ℕ) (a : MmapArgs) : Prop :=
  MmapOk s pid a ∧ ∀ r s', s.sysMmap pid a = some (r, s') → Clear limit s'

lemma Keeps.panicked (heq : s.sysMmap pid a = none) : Keeps limit s pid a := by
  unfold Keeps MmapOk
  rw [heq]
  exact ⟨trivial, nofun⟩

lemma Keeps.error
    (h : Clear limit s) (heq : s.sysMmap pid a = some (.error, s)) :
  Keeps limit s pid a
  := by
  unfold Keeps MmapOk
  rw [heq]
  refine ⟨⟨rfl, rfl, rfl⟩, fun r s' hs' => ?_⟩
  obtain ⟨-, rfl⟩ := Prod.mk.inj (some.inj hs')
  exact h

lemma Keeps.addr
    {v : ℕ} (heq : s.sysMmap pid a = some (.addr v, s')) (hclear : Clear limit s')
    (h : a.fixed = false → v % 4096 = 0 ∧ v + a.length ≤ 2 ^ 47 ∧
      ∀ page, pageOf v ≤ page → page * 4096 < v + a.length →
        (s.space pid).pages.lookup page = none ∧ ((s'.space pid).pages.lookup page).isSome) :
  Keeps limit s pid a
  := by
  unfold Keeps MmapOk
  rw [heq]
  refine ⟨h, fun r s'' hs'' => ?_⟩
  obtain ⟨-, rfl⟩ := Prod.mk.inj (some.inj hs'')
  exact hclear

/-- At the cursor. -/
lemma Keeps.placed
    (hlimit : limit ≤ 2 ^ 47) (h : Clear limit s) (hcount : 0 < pageCount a.length)
    (hle : a.length ≤ pageCount a.length * 4096) (hlt : pageCount a.length * 4096 < a.length + 4096)
    (hroom : s.mmapBase + pageCount a.length * 4096 ≤ limit) (hprovided : Provided s pid a)
    (heq : s.sysMmap pid a = { s with
      mmapBase := (s.mmapBase + pageCount a.length * 4096) % 2 ^ 64 }.mmapAt pid s.mmapBase a) :
  Keeps limit s pid a
  := by
  have hbase := h.aligned
  obtain ⟨t, ht⟩ : ∃ t : Sys, t = { s with
    mmapBase := (s.mmapBase + pageCount a.length * 4096) % 2 ^ 64 } := ⟨_, rfl⟩
  have hprovided : Provided t pid a := by rw [ht]; exact hprovided
  rw [← ht] at heq
  rcases mmapAt_provided hprovided hcount s.mmapBase with hnone | ⟨s', hs', hmaps⟩
  · exact .panicked (heq.trans hnone)
  have hclear : Clear limit s' := by
    rw [ht] at hmaps
    exact h.placed hlimit hroom hmaps
  refine .addr (heq.trans hs') hclear fun _ => ⟨hbase, by omega, fun p hge hp => ⟨?_, ?_⟩⟩
  · unfold pageOf at hge
    exact h.clear pid p (by omega) (hp.trans_le ((Nat.add_le_add_left hle _).trans hroom))
  · unfold pageOf at hge hmaps
    have hk : p - s.mmapBase / 4096 < pageCount a.length := by omega
    have hin := hmaps.inside hk
    rwa [show (s.mmapBase / 4096 + (p - s.mmapBase / 4096)) % 2 ^ 36 = p by omega] at hin

/-- A tame `mmap` keeps the law. -/
lemma TameMmap.keeps
    (hlimit : limit ≤ 2 ^ 47) (h : Clear limit s) (htame : TameMmap limit s pid a) :
  Keeps limit s pid a
  := by
  by_cases hlength : a.length = 0
  · exact .error h (by rw [sysMmap, if_pos hlength])
  by_cases hoffset : a.offsetOk
  swap
  · exact .error h (by rw [sysMmap, if_neg hlength, if_pos (by simpa using hoffset)])
  obtain ⟨hno, hplaced, hgiven⟩ := htame hlength hoffset
  obtain ⟨hcount, hle, hlt⟩ := pageCount_eq hlength hno
  have heq := sysMmap.eq_1 s pid a
  rw [if_neg hlength, if_neg (by simpa using hoffset)] at heq
  by_cases hp : a.addr = 0 ∨ a.fixed = false
  · obtain ⟨hroom, hprovided⟩ := hplaced hp
    rw [if_pos hp] at heq
    exact .placed hlimit h hcount hle hlt hroom hprovided heq
  obtain ⟨hapart, hprovided | hrefused⟩ := hgiven hp
  · rw [if_neg hp] at heq
    rcases mmapAt_provided hprovided hcount a.addr with hnone | ⟨s', hs', hmaps⟩
    · exact .panicked (heq.trans hnone)
    · exact .addr (heq.trans hs') (h.apart hmaps hapart) fun hfixed => absurd (.inr hfixed) hp
  · rw [if_neg hp, mmapAt_refused hrefused a.addr] at heq
    exact .error h heq

lemma Clear.mremap
    {oldAddr oldSize newSize : ℕ} {r : Result} (hlimit : limit ≤ 2 ^ 47) (h : Clear limit s)
    (htame : TameMmap limit s pid (remapArgs newSize))
    (hs' : s.sysMremap pid oldAddr oldSize newSize = some (r, s')) :
  Clear limit s'
  := by
  unfold sysMremap at hs'
  split_ifs at hs' with hbad hle hexcess
  · obtain ⟨-, rfl⟩ := Prod.mk.inj (some.inj hs')
    exact h
  · obtain ⟨-, rfl⟩ := Prod.mk.inj (some.inj hs')
    exact h.munmap _ _
  · obtain ⟨-, rfl⟩ := Prod.mk.inj (some.inj hs')
    exact h
  · split at hs'
    · cases hs'
    · rename_i s₁ h₁
      obtain ⟨-, rfl⟩ := Prod.mk.inj (some.inj hs')
      exact (htame.keeps hlimit h).2 _ _ h₁
    · rename_i v s₁ h₁
      have hclear := (htame.keeps hlimit h).2 _ _ h₁
      obtain ⟨-, rfl⟩ := Prod.mk.inj (some.inj hs')
      split
      · exact hclear.munmap _ _
      · exact hclear

lemma Clear.shmat
    {shmid addr : ℕ} {r : Result} (h : Clear limit s) (htame : Tame limit s (.shmat pid shmid addr))
    (hs' : s.sysShmat pid shmid addr = some (r, s')) :
  Clear limit s'
  := by
  unfold sysShmat at hs'
  split at hs'
  · obtain ⟨-, rfl⟩ := Prod.mk.inj (some.inj hs')
    exact h
  rename_i frames hframes
  dsimp only at hs'
  split at hs'
  · cases hs'
  rename_i s₁ h₁
  obtain ⟨-, rfl⟩ := Prod.mk.inj (some.inj hs')
  have hmaps := mapFrames_maps _ _ _ h₁
  apply h.apart (hmaps.congr _ _) (htame frames hframes)
  · split <;> rfl
  · split <;> rfl

lemma Clear.call
    {c : Call} (hlimit : limit ≤ 2 ^ 47) (h : Clear limit s) (htame : Tame limit s c) :
  CallOk s c ∧ ∀ s', s.call c = some s' → Clear limit s'
  := by
  cases c with
  | mmap pid a =>
    obtain ⟨hok, hclear⟩ := TameMmap.keeps hlimit h htame
    refine ⟨hok, fun s' hs' => ?_⟩
    obtain ⟨⟨r, s'⟩, heq, rfl⟩ := map_eq_some_iff.mp hs'
    exact hclear r s' heq
  | munmap pid addr length =>
    refine ⟨trivial, fun s' hs' => ?_⟩
    obtain rfl := some.inj hs'
    exact h.munmap addr length
  | mremap pid oldAddr oldSize newSize =>
    refine ⟨fun _ _ _ => (TameMmap.keeps hlimit h htame).1, fun s' hs' => ?_⟩
    obtain ⟨⟨r, s'⟩, heq, rfl⟩ := map_eq_some_iff.mp hs'
    exact h.mremap hlimit htame heq
  | shmat pid shmid addr =>
    refine ⟨trivial, fun s' hs' => ?_⟩
    obtain ⟨⟨r, s'⟩, heq, rfl⟩ := map_eq_some_iff.mp hs'
    exact h.shmat htame heq

/-! ### Runs -/

/-- Eight free frames, two processes with empty address spaces, and the cursor at its first address. -/
def start : Sys where
  free := [1, 2, 3, 4, 5, 6, 7, 8]
  total := 16
  kernelFb := none
  tasks := [⟨1, 1, 0, false⟩, ⟨2, 2, 1, false⟩]
  space pid := ⟨[], [], if pid = 1 ∨ pid = 2 then 8 + pid else 0⟩
  files _ _ := .none
  mmapBase := 0x700000000000
  shmNext := 0x600000000000
  segments := []

end MemCalls
