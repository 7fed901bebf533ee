import EquantOS.Fs.PageCache
import Mathlib.Data.List.Induction
import Mathlib.Data.List.Perm.Subperm

/-!
# The structure of the page cache

The entries are on one doubly linked list and on the chains of their keys.  Every operation keeps this,
and the entry that a read or a write has at hand is in the cache until its page has been copied: an
eviction takes an entry near the tail of the list, and the entry at hand is near the head.
-/

open LinkedList Chain Function List Option

namespace PageCache

open Cache Nat

variable {δ : Type}

/-- The entries are `L`, from the head of the list on, and `C b` are those of the chain of `b`. -/
structure Consistent (s : Links) (L : List ℕ) (C : ℕ → List ℕ) : Prop where
  lru : Queue s.lruNext s.lruPrev s.lruHead s.lruTail L
  nodup : L.Nodup
  chain (b : ℕ) : Path s.hashNext (s.hashTable b) (C b) none
  chain_nodup (b : ℕ) : (C b).Nodup
  mem_chain {e b : ℕ} : e ∈ C b ↔ e ∈ L ∧ hash (s.inode e) (s.pageIndex e) = b
  key_inj {e e' : ℕ} : e ∈ L → e' ∈ L → s.inode e = s.inode e' → s.pageIndex e = s.pageIndex e' → e = e'
  count : s.cachedPageCount = L.length
  length_le : L.length ≤ maxPages
  live {e : ℕ} : s.live e ↔ e ∈ L
  lt_next {e : ℕ} : e ∈ L → e < s.next

/-! ### The entry at hand -/

/-- The entry leaves the list: the first one from the tail on that is not referenced, or the tail if all
are.  Those that are passed over are not referenced any more. -/
def Evicts (ref : ℕ → Bool) (L : List ℕ) (v : ℕ) (ref' : ℕ → Bool) : Prop :=
  (∃ pre post, L = pre ++ v :: post ∧ ref v = false ∧ (∀ e ∈ post, ref e) ∧
      ∀ e, ref' e = if e ∈ post then false else ref e) ∨
    (∃ pre, L = pre ++ [v] ∧ ∀ e ∈ L, ref' e = false)

lemma Evicts.mem {ref ref' : ℕ → Bool} {L : List ℕ} {v : ℕ} (h : Evicts ref L v ref') : v ∈ L
  := by
  obtain ⟨pre, post, rfl, -⟩ | ⟨pre, rfl, -⟩ := h
  · simp
  · simp

/-- The entry is at most `r` places from where it would be too far behind, and it is referenced, or there
are `k` entries behind it that are not. -/
def Guarded (c r k : ℕ) (L : List ℕ) (ref : ℕ → Bool) : Prop :=
  ∃ front back, L = front ++ c :: back ∧ front.length + r ≤ readAheadPages ∧
    (ref c ∨ k ≤ back.countP fun e => !ref e)

section Guard

variable {c r k e v : ℕ} {L : List ℕ} {ref ref' : ℕ → Bool}

lemma Guarded.mem (h : Guarded c r k L ref) : c ∈ L
  := by
  obtain ⟨front, back, rfl, -⟩ := h
  simp

lemma countP_erase_ge (p : ℕ → Bool) (l : List ℕ) (e : ℕ) : l.countP p ≤ (l.erase e).countP p + 1
  := by
  by_cases he : e ∈ l
  · rw [(perm_cons_erase he).countP_eq, countP_cons]
    split <;> omega
  · rw [erase_of_not_mem he]
    omega

lemma countP_update (l : List ℕ) (b : Bool) (he : e ∉ l) :
  l.countP (fun x => !(update ref e b x)) = l.countP fun x => !ref x
  := by
  apply countP_congr
  intro x hx
  rw [update_of_ne (ne_of_mem_of_not_mem hx he)]

lemma countP_eq_length_of_forall_false {l : List ℕ} (h : ∀ x ∈ l, ref x = false) :
  l.countP (fun x => !ref x) = l.length
  := countP_eq_length.mpr fun x hx => by simp [h x hx]

/-- Another entry, or the entry itself, moves to the front. -/
lemma Guarded.touch (h : Guarded c (r + 1) (k + 1) L ref) (hnodup : L.Nodup) (he : e ∈ L) :
  Guarded c r k (e :: L.erase e) (update ref e true)
  := by
  obtain ⟨front, back, rfl, hlen, hor⟩ := h
  by_cases hec : e = c
  · subst hec
    exact ⟨[], _, rfl, by simp; omega, .inl (update_self ..)⟩
  obtain ⟨-, hnodup', hdisj⟩ := nodup_append.mp hnodup
  by_cases hfront : e ∈ front
  · refine ⟨e :: front.erase e, back, ?_, ?_, ?_⟩
    · rw [erase_append_left _ hfront]
      rfl
    · have := length_erase_of_mem hfront
      rw [length_cons]
      omega
    · have hnot : e ∉ back := fun hmem => hdisj e hfront e (mem_cons_of_mem _ hmem) rfl
      rw [update_of_ne (Ne.symm hec), countP_update back true hnot]
      exact hor.imp id fun hcount => by omega
  · refine ⟨e :: front, back.erase e, ?_, ?_, ?_⟩
    · rw [erase_append_right _ hfront, erase_cons_tail (by simpa using Ne.symm hec)]
      rfl
    · rw [length_cons]
      omega
    · rw [update_of_ne (Ne.symm hec), countP_update _ true (nodup_cons.mp hnodup').2.not_mem_erase]
      have := countP_erase_ge (fun x => !ref x) back e
      exact hor.imp id fun hcount => by omega

/-- A new entry comes to the front. -/
lemma Guarded.push (h : Guarded c (r + 1) k L ref) (he : e ∉ L) :
  Guarded c r k (e :: L) (update ref e true)
  := by
  obtain ⟨front, back, rfl, hlen, hor⟩ := h
  rw [mem_append, mem_cons, not_or, not_or] at he
  refine ⟨e :: front, back, rfl, ?_, ?_⟩
  · rw [length_cons]
    omega
  · rwa [update_of_ne (Ne.symm he.2.1), countP_update back true he.2.2]

lemma Guarded.weaken (h : Guarded c r (k + 1) L ref) : Guarded c r k L ref
  := by
  obtain ⟨front, back, hL, hlen, hor⟩ := h
  exact ⟨front, back, hL, hlen, hor.imp id fun hcount => by omega⟩

/-- A full cache has entries enough behind the one at hand: if that is passed over, all of them are not
referenced any more. -/
lemma Guarded.evict (h : Guarded c r (k + 1) L ref) (hk : k ≤ readAheadPages) (hnodup : L.Nodup)
    (hfull : L.length = maxPages) (hv : Evicts ref L v ref') :
  Guarded c r k (L.erase v) ref'
  := by
  obtain ⟨front, back, rfl, hlen, hor⟩ := h
  have hlong : k + 1 ≤ back.length := by
    rw [length_append, length_cons, maxPages] at hfull
    unfold readAheadPages at hlen hk
    omega
  obtain ⟨-, hnodup', hdisj⟩ := nodup_append.mp hnodup
  obtain ⟨hcback, hnodup''⟩ := nodup_cons.mp hnodup'
  have hbehind (hmem : v ∈ back) : v ∉ front ∧ c ≠ v :=
    ⟨fun hfront => hdisj v hfront v (mem_cons_of_mem c hmem) rfl, fun hcv => hcback (hcv ▸ hmem)⟩
  obtain ⟨pre, post, hL, hvref, hpost, href'⟩ | ⟨pre, hL, href'⟩ := hv
  · have hzero : post.countP (fun x => !ref x) = 0 := countP_eq_zero.mpr fun x hx => by simp [hpost x hx]
    rcases append_eq_append_iff.mp hL with ⟨mid, rfl, hmid⟩ | ⟨mid, rfl, hmid⟩
    · cases mid with
      | nil =>
        -- the entry at hand is not referenced, and none behind it either
        obtain ⟨rfl, rfl⟩ := hmid
        obtain hc | hcount := hor
        · simp [hvref] at hc
        · omega
      | cons d mid =>
        -- it is behind the one at hand
        rw [cons_append] at hmid
        obtain ⟨rfl, rfl⟩ := hmid
        obtain ⟨hvfront, hvc⟩ := hbehind (by simp)
        have hvmid : v ∉ mid := fun hmem =>
          (nodup_append.mp hnodup'').2.2 v hmem v (by simp) rfl
        refine ⟨front, mid ++ post, ?_, hlen, ?_⟩
        · rw [erase_append_right _ hvfront, erase_cons_tail (by simpa using hvc),
            erase_append_right _ hvmid, erase_cons_head]
        rw [href' c, if_neg fun hmem => hcback (by simp [hmem])]
        refine hor.imp id fun hcount => ?_
        have hcongr : mid.countP (fun x => !ref' x) = mid.countP fun x => !ref x := by
          apply countP_congr
          intro x hx
          rw [href' x, if_neg fun hmem =>
            (nodup_append.mp hnodup'').2.2 x hx x (by simp [hmem]) rfl]
        rw [countP_append, countP_cons] at hcount
        rw [countP_append]
        have : (if (!ref v) = true then 1 else 0) ≤ 1 := by split <;> omega
        omega
    · -- it is before the one at hand, so that all behind that were passed over
      cases mid with
      | nil =>
        rw [nil_append, cons.injEq] at hmid
        obtain ⟨rfl, rfl⟩ := hmid
        obtain hc | hcount := hor
        · simp [hvref] at hc
        · omega
      | cons d mid =>
        obtain ⟨rfl, rfl⟩ := hmid
        have hvpre : v ∉ pre := by
          intro hmem
          have := (nodup_append.mp (nodup_append.mp hnodup).1).2.2 v hmem v (by simp)
          exact this rfl
        refine ⟨pre ++ mid, back, ?_, ?_, .inr ?_⟩
        · rw [append_assoc, append_assoc, erase_append_right _ hvpre, cons_append, erase_cons_head]
        · rw [length_append] at hlen ⊢
          rw [length_cons] at hlen
          omega
        · rw [countP_eq_length_of_forall_false fun x hx => by
            rw [href' x, if_pos (by simp [hx])]]
          omega
  · -- all were passed over, and it is the tail
    obtain ⟨back', rfl⟩ : ∃ back', back = back' ++ [v] := by
      rcases eq_nil_or_concat back with rfl | ⟨back', w, rfl⟩
      · simp at hlong
      refine ⟨back', ?_⟩
      rw [concat_eq_append] at hL ⊢
      rw [← cons_append, ← append_assoc] at hL
      rw [(append_inj' hL rfl).2]
    obtain ⟨hvfront, hvc⟩ := hbehind (by simp)
    have hvback : v ∉ back' := fun hmem =>
      (nodup_append.mp hnodup'').2.2 v hmem v (by simp) rfl
    refine ⟨front, back', ?_, hlen, .inr ?_⟩
    · rw [erase_append_right _ hvfront, erase_cons_tail (by simpa using hvc),
        erase_append_right _ hvback, erase_cons_head, append_nil]
    · rw [countP_eq_length_of_forall_false fun x hx => href' x (by simp [hx])]
      rw [length_append, length_singleton] at hlong
      omega

end Guard

/-! ### The list and the chains -/

section Links

variable {s : Cache δ} {L : List ℕ} {C : ℕ → List ℕ}

variable {fuel inode pageIndex : ℕ}

/-- The walk along a chain finds the first entry with the key. -/
lemma findChain_eq {h : Option ℕ} {l : List ℕ}
    (hpath : Path s.hashNext h l none) (hfuel : l.length ≤ fuel) :
  s.findChain inode pageIndex fuel h
    = l.find? fun e => s.inode e = inode ∧ s.pageIndex e = pageIndex
  := by
  induction l generalizing h fuel with
  | nil =>
    obtain rfl := hpath
    cases fuel <;> rfl
  | cons e l ih =>
    obtain ⟨rfl, hpath⟩ := hpath
    cases fuel with
    | zero => simp at hfuel
    | succ fuel =>
      rw [findChain]
      by_cases hkey : s.inode e = inode ∧ s.pageIndex e = pageIndex
      · simp [hkey]
      · rw [ih hpath (by simpa using hfuel)]
        simp [hkey]

section

variable (h : Consistent s.toLinks L C)

include h

/-- The entries of a chain were allocated, so that the walks along it are long enough. -/
lemma Consistent.length_chain_le (b : ℕ) : (C b).length ≤ s.next
  := by
  have hsub : C b ⊆ range s.next := fun e he =>
    mem_range.mpr (h.lt_next (h.mem_chain.mp he).1)
  simpa using (subperm_of_subset (h.chain_nodup b) hsub).length_le

lemma Consistent.length_le_next : L.length ≤ s.next
  := by
  have hsub : L ⊆ range s.next := fun e he => mem_range.mpr (h.lt_next he)
  simpa using (subperm_of_subset h.nodup hsub).length_le

/-- An entry moves to the front of the list. -/
lemma Consistent.touch {e : ℕ} (he : e ∈ L) (b : Bool) :
  Consistent (((s.setReferenced e b).lruRemove e).lruPushFront e).toLinks (e :: L.erase e) C
  := by
  have hmem : ∀ {x}, x ∈ e :: L.erase e ↔ x ∈ L := (perm_cons_erase he).symm.mem_iff
  refine ⟨?_, ?_, h.chain, h.chain_nodup, ?_, ?_, ?_, ?_, ?_, ?_⟩
  · exact (h.lru.remove he h.nodup).insert_head h.nodup.not_mem_erase (h.nodup.erase e)
  · exact nodup_cons.mpr ⟨h.nodup.not_mem_erase, h.nodup.erase e⟩
  · intro x b
    rw [hmem]
    exact h.mem_chain
  · intro x x' hx hx'
    exact h.key_inj (hmem.mp hx) (hmem.mp hx')
  · exact h.count.trans (perm_cons_erase he).length_eq
  · exact (perm_cons_erase he).symm.length_eq.trans_le h.length_le
  · intro x
    rw [hmem]
    exact h.live
  · intro x hx
    exact h.lt_next (hmem.mp hx)

/-- `page_cache_lookup` finds the entry of the key, if there is one. -/
lemma Consistent.lookup (inode pageIndex : ℕ) :
  (s.lookup inode pageIndex = (none, s) ∧
      ∀ e ∈ L, ¬ (s.inode e = inode ∧ s.pageIndex e = pageIndex)) ∨
    ∃ e ∈ L, s.lookup inode pageIndex
        = (some e, ((s.setReferenced e true).lruRemove e).lruPushFront e) ∧
      s.inode e = inode ∧ s.pageIndex e = pageIndex
  := by
  unfold Cache.lookup
  rw [findChain_eq (h.chain _) (h.length_chain_le _)]
  cases hfind : (C (hash inode pageIndex)).find? fun e =>
      s.inode e = inode ∧ s.pageIndex e = pageIndex with
  | none =>
    refine .inl ⟨rfl, fun e he hkey => ?_⟩
    have hmem : e ∈ C (hash inode pageIndex) := h.mem_chain.mpr ⟨he, by rw [hkey.1, hkey.2]⟩
    simpa [hkey] using find?_eq_none.mp hfind e hmem
  | some e =>
    have hmem := h.mem_chain.mp (mem_of_find?_eq_some hfind)
    have hkey := find?_some hfind
    exact .inr ⟨e, hmem.1, rfl, by simpa using hkey⟩

end

/-- The sweep passes over the entries that are referenced, from the tail on. -/
lemma sweep_spec {pre : List ℕ}
    (hprev : ∀ p v q, p ++ v :: q = pre → s.lruPrev v = p.getLast?) (hnodup : pre.Nodup)
    (hfuel : pre.length ≤ fuel) :
  (∃ p v q, pre = p ++ v :: q ∧ s.referenced v = false ∧ (∀ e ∈ q, s.referenced e) ∧
      sweep fuel pre.getLast? s
        = (some v, { s with referenced := fun e => if e ∈ q then false else s.referenced e })) ∨
    (sweep fuel pre.getLast? s
        = (none, { s with referenced := fun e => if e ∈ pre then false else s.referenced e }))
  := by
  induction pre using reverseRecOn generalizing s fuel with
  | nil =>
    refine .inr ?_
    cases fuel <;> simp [sweep]
  | append_singleton pre v ih =>
    rw [length_append, length_singleton] at hfuel
    obtain ⟨fuel, rfl⟩ := exists_eq_succ_of_ne_zero (by omega : fuel ≠ 0)
    rw [getLast?_concat, succ_eq_add_one, sweep]
    by_cases href : s.referenced v
    · rw [if_pos href, hprev pre v [] rfl]
      obtain ⟨hnodup', -, hdisj⟩ := nodup_append.mp hnodup
      have hsame : ∀ {e}, e ∈ pre → (s.setReferenced v false).referenced e = s.referenced e :=
        fun he => update_of_ne (hdisj _ he v (by simp)) _ _
      have hprev' : ∀ p w q, p ++ w :: q = pre →
          (s.setReferenced v false).lruPrev w = p.getLast? := by
        rintro p w q rfl
        exact hprev p w (q ++ [v]) (by simp)
      obtain ⟨p, w, q, rfl, hw, hq, hsweep⟩ | hsweep := @ih (s.setReferenced v false) fuel hprev' hnodup'
        (by omega)
      · refine .inl ⟨p, w, q ++ [v], by simp, ?_, ?_, ?_⟩
        · rwa [hsame (by simp)] at hw
        · intro e he
          obtain he | he := mem_append.mp he
          · rw [← hsame (by simp [he])]
            exact hq e he
          · rwa [mem_singleton.mp he]
        · rw [hsweep]
          simp only [setReferenced, update_apply, mem_append,
            mem_singleton, Prod.mk.injEq, true_and]
          congr 1
          funext e
          by_cases heq : e ∈ q <;> by_cases hev : e = v <;> simp [heq, hev]
      · refine .inr ?_
        rw [hsweep]
        simp only [setReferenced, update_apply, mem_append, mem_singleton, Prod.mk.injEq, true_and]
        congr 1
        funext e
        by_cases heq : e ∈ pre <;> by_cases hev : e = v <;> simp [heq, hev]
    · rw [if_neg href]
      exact .inl ⟨pre, v, [], rfl, by simpa using href, by simp, by simp⟩

/-- The walk along a chain finds the entry before another one. -/
lemma findBefore_eq {v c : ℕ} {h : Option ℕ} {l l' : List ℕ}
    (hpath : Path s.hashNext h (l ++ c :: v :: l') none) (hnodup : (l ++ c :: v :: l').Nodup)
    (hfuel : l.length < fuel) :
  s.findBefore v fuel h = some c
  := by
  induction l generalizing h fuel with
  | nil =>
    obtain ⟨rfl, hnext, -⟩ := hpath
    obtain ⟨fuel, rfl⟩ := Nat.exists_eq_succ_of_ne_zero (Nat.ne_zero_of_lt hfuel)
    rw [findBefore, if_pos hnext]
  | cons e l ih =>
    obtain ⟨rfl, hpath⟩ := hpath
    obtain ⟨fuel, rfl⟩ := Nat.exists_eq_succ_of_ne_zero (Nat.ne_zero_of_lt hfuel)
    rw [cons_append, nodup_cons] at hnodup
    have hne : s.hashNext e ≠ some v := by
      intro hv
      have hhead := hpath.head_eq
      rw [hv] at hhead
      cases l with
      | nil =>
        obtain rfl : v = c := by simpa using hhead
        simp at hnodup
      | cons d l =>
        obtain rfl : v = d := by simpa using hhead
        simp at hnodup
    rw [findBefore, if_neg hne]
    exact ih hpath hnodup.2 (by simpa using hfuel)

section

variable (h : Consistent s.toLinks L C)

include h

/-- An entry is taken out of its chain, and the other chains stay. -/
lemma Consistent.unchain {v : ℕ} (hv : v ∈ L) :
  (∀ b, Path (s.unchain v).hashNext ((s.unchain v).hashTable b) ((C b).erase v) none) ∧
    (s.unchain v).toLinks = { s.toLinks with
      hashNext := (s.unchain v).hashNext, hashTable := (s.unchain v).hashTable } ∧
    (s.unchain v).referenced = s.referenced ∧ (s.unchain v).uses = s.uses
  := by
  obtain ⟨bucket, hbucket⟩ : ∃ b, b = hash (s.inode v) (s.pageIndex v) := ⟨_, rfl⟩
  have hmem : v ∈ C bucket := h.mem_chain.mpr ⟨hv, hbucket.symm⟩
  have hother : ∀ {b}, b ≠ bucket → v ∉ C b := fun hb hvb =>
    hb ((h.mem_chain.mp hvb).2.symm.trans hbucket.symm)
  obtain ⟨l, l', hC⟩ := append_of_mem hmem
  have hnodup := h.chain_nodup bucket
  have hpath := h.chain bucket
  rw [hC] at hnodup hpath
  have hvl : v ∉ l := fun hl => (nodup_append.mp hnodup).2.2 v hl v (by simp) rfl
  have herase : (C bucket).erase v = l ++ l' := by
    rw [hC, erase_append_right _ hvl, erase_cons_head]
  unfold Cache.unchain
  simp only [← hbucket]
  rcases l.eq_nil_or_concat with rfl | ⟨l, c, rfl⟩
  · -- the entry is the first of its chain
    obtain ⟨hhead, hrest⟩ := hpath
    rw [if_pos hhead]
    refine ⟨fun b => ?_, rfl, rfl, rfl⟩
    by_cases hb : b = bucket
    · subst hb
      simp only [update_self]
      rwa [herase]
    · simp only [update_of_ne hb]
      rw [erase_of_not_mem (hother hb)]
      exact h.chain b
  · rw [concat_eq_append, append_assoc] at hnodup hpath
    rw [concat_eq_append] at hvl herase hC
    have hhead : s.hashTable bucket ≠ some v := by
      intro hhead
      have hfirst := hpath.head_eq
      rw [hhead] at hfirst
      refine hvl ?_
      cases l with
      | nil => simpa using hfirst
      | cons d l =>
        obtain rfl : v = d := by simpa using hfirst
        simp
    have hfuel : l.length < s.next := by
      have := h.length_chain_le bucket
      rw [hC] at this
      simp only [length_append, length_cons] at this
      omega
    rw [if_neg hhead, findBefore_eq hpath hnodup hfuel]
    refine ⟨fun b => ?_, rfl, rfl, rfl⟩
    by_cases hb : b = bucket
    · subst hb
      rw [herase, append_assoc]
      apply (hpath.remove_after hnodup).congr
      intro x hx
      have hxv : x ≠ v := by
        rintro rfl
        have hmem' : x ∈ (C (hash (s.inode x) (s.pageIndex x))).erase x := by
          rw [← hbucket, herase, append_assoc]
          exact hx
        exact (h.chain_nodup _).not_mem_erase hmem'
      rw [update_of_ne hxv]
    · rw [erase_of_not_mem (hother hb)]
      apply (h.chain b).congr
      intro x hx
      apply update_of_ne
      rintro rfl
      have hx' : x ∈ C bucket := by
        rw [hC]
        simp
      exact hb ((h.mem_chain.mp hx).2.symm.trans (h.mem_chain.mp hx').2)

/-- The tail end of an eviction. -/
lemma Consistent.removeVictim {v : ℕ} (hv : v ∈ L) :
  Consistent
    { ((s.unchain v).lruRemove v).toLinks with
      live := update ((s.unchain v).lruRemove v).live v false
      cachedPageCount := ((s.unchain v).lruRemove v).cachedPageCount - 1 }
    (L.erase v) fun b => (C b).erase v
  := by
  obtain ⟨hchain, hlinks, -⟩ := h.unchain hv
  have hmem : ∀ {x}, x ∈ L.erase v ↔ x ≠ v ∧ x ∈ L := h.nodup.mem_erase_iff
  have hlength : (L.erase v).length = L.length - 1 := length_erase_of_mem hv
  have hfields : (s.unchain v).lruNext = s.lruNext ∧ (s.unchain v).lruPrev = s.lruPrev ∧
      (s.unchain v).lruHead = s.lruHead ∧ (s.unchain v).lruTail = s.lruTail ∧
      (s.unchain v).inode = s.inode ∧ (s.unchain v).pageIndex = s.pageIndex ∧
      (s.unchain v).live = s.live ∧ (s.unchain v).cachedPageCount = s.cachedPageCount ∧
      (s.unchain v).next = s.next := by
    rw [hlinks]
    exact ⟨rfl, rfl, rfl, rfl, rfl, rfl, rfl, rfl, rfl⟩
  obtain ⟨hnext, hprev, hhead, htail, hinode, hindex, hlive, hcount, hfresh⟩ := hfields
  refine ⟨?_, h.nodup.erase v, hchain, fun b => (h.chain_nodup b).erase v, ?_, ?_, ?_, ?_, ?_, ?_⟩
  · simp only [lruRemove, hnext, hprev, hhead, htail]
    exact h.lru.remove hv h.nodup
  · intro e b
    simp only [lruRemove, hinode, hindex]
    rw [(h.chain_nodup b).mem_erase_iff, h.mem_chain, hmem]
    tauto
  · intro e e' he he'
    simp only [lruRemove, hinode, hindex]
    exact h.key_inj (hmem.mp he).2 (hmem.mp he').2
  · simp only [lruRemove, hcount]
    rw [h.count, hlength]
  · have := h.length_le
    omega
  · intro e
    simp only [lruRemove, hlive]
    by_cases hev : e = v
    · subst hev
      simp [h.nodup.not_mem_erase]
    · rw [update_of_ne hev, h.live, hmem]
      tauto
  · intro e he
    simp only [lruRemove, hfresh]
    exact h.lt_next (hmem.mp he).2

lemma Consistent.of_referenced (ref : ℕ → Bool) :
  Consistent { s with referenced := ref }.toLinks L C
  := h

/-- `page_cache_evict_one` evicts an entry, if there is one. -/
lemma Consistent.evictOne (hne : L ≠ []) :
  ∃ v C', Consistent s.evictOne.toLinks (L.erase v) C' ∧
    Evicts s.referenced L v s.evictOne.referenced ∧ s.evictOne.uses = s.uses ∧
    s.evictOne.inode = s.inode ∧ s.evictOne.pageIndex = s.pageIndex
  := by
  have htail := h.lru.tail_eq
  have hsweep := @sweep_spec δ s s.next L (fun p v q hL => (hL ▸ h.lru).prev_eq) h.nodup
    h.length_le_next
  rw [← htail] at hsweep
  unfold Cache.evictOne
  obtain ⟨p, v, q, rfl, hv, hq, hsweep⟩ | hsweep := hsweep
  · have hmem : v ∈ p ++ v :: q := by simp
    have hcons := h.of_referenced fun e => if e ∈ q then false else s.referenced e
    obtain ⟨-, hlinks, href, huses⟩ := hcons.unchain hmem
    have hinode := congrArg Links.inode hlinks
    have hindex := congrArg Links.pageIndex hlinks
    rw [hsweep]
    exact ⟨v, _, hcons.removeVictim hmem, .inl ⟨p, q, rfl, hv, hq, fun e => congrFun href e⟩, huses,
      hinode, hindex⟩
  · obtain ⟨p, v, rfl⟩ : ∃ p v, L = p ++ [v] := by
      rcases L.eq_nil_or_concat with rfl | ⟨p, v, rfl⟩
      · exact absurd rfl hne
      · exact ⟨p, v, concat_eq_append⟩
    rw [getLast?_concat] at htail
    have hmem : v ∈ p ++ [v] := by simp
    have hcons := h.of_referenced fun e => if e ∈ p ++ [v] then false else s.referenced e
    obtain ⟨-, hlinks, href, huses⟩ := hcons.unchain hmem
    have hinode := congrArg Links.inode hlinks
    have hindex := congrArg Links.pageIndex hlinks
    rw [hsweep, htail]
    exact ⟨v, _, hcons.removeVictim hmem,
      .inr ⟨p, rfl, fun e he => (congrFun href e).trans (if_pos he)⟩, huses,
      hinode, hindex⟩

end

lemma evictOne_of_nil (h : Consistent s.toLinks [] C) : s.evictOne = s
  := by
  have htail : s.lruTail = none := h.lru.tail_eq
  unfold evictOne
  rw [htail]
  cases s.next <;> rfl

/-- A new entry, with a key that no entry has. -/
lemma Consistent.insert (h : Consistent s.toLinks L C)
    (hkey : ∀ e ∈ L, ¬ (s.inode e = inode ∧ s.pageIndex e = pageIndex)) (hroom : L.length < maxPages) :
  Consistent (s.insert inode pageIndex).toLinks (s.next :: L)
    (update C (hash inode pageIndex) (s.next :: C (hash inode pageIndex)))
  := by
  have hfresh : s.next ∉ L := fun hmem => absurd (h.lt_next hmem) (lt_irrefl _)
  have hfreshC : ∀ b, s.next ∉ C b := fun b hmem => hfresh (h.mem_chain.mp hmem).1
  have hne : ∀ {e}, e ∈ L → e ≠ s.next := fun he => ne_of_mem_of_not_mem he hfresh
  refine ⟨?_, ?_, ?_, ?_, ?_, ?_, ?_, ?_, ?_, ?_⟩
  · exact h.lru.insert_head hfresh h.nodup
  · exact nodup_cons.mpr ⟨hfresh, h.nodup⟩
  · intro b
    simp only [Cache.insert, Cache.lruPushFront]
    by_cases hb : b = hash inode pageIndex
    · subst hb
      simp only [update_self]
      exact (h.chain _).insert_head (hfreshC _)
    simp only [update_of_ne hb]
    apply (h.chain b).congr
    intro e he
    exact update_of_ne (hne (h.mem_chain.mp he).1) _ _
  · intro b
    by_cases hb : b = hash inode pageIndex
    · subst hb
      rw [update_self]
      exact nodup_cons.mpr ⟨hfreshC _, h.chain_nodup _⟩
    · rw [update_of_ne hb]
      exact h.chain_nodup b
  · intro e b
    simp only [Cache.insert, Cache.lruPushFront, mem_cons]
    by_cases he : e = s.next
    · subst he
      simp only [update_self, true_or, true_and]
      by_cases hb : b = hash inode pageIndex
      · subst hb
        simp
      · rw [update_of_ne hb]
        exact iff_of_false (hfreshC b) (Ne.symm hb)
    · simp only [update_of_ne he, he, false_or]
      by_cases hb : b = hash inode pageIndex
      · subst hb
        rw [update_self, mem_cons]
        simp only [he, false_or]
        exact h.mem_chain
      · rw [update_of_ne hb]
        exact h.mem_chain
  · intro e e' he he'
    simp only [Cache.insert, Cache.lruPushFront]
    obtain rfl | he := mem_cons.mp he <;> obtain rfl | he' := mem_cons.mp he'
    · exact fun _ _ => rfl
    · simp only [update_self, update_of_ne (hne he')]
      exact fun hi hp => absurd ⟨hi.symm, hp.symm⟩ (hkey e' he')
    · simp only [update_self, update_of_ne (hne he)]
      exact fun hi hp => absurd ⟨hi, hp⟩ (hkey e he)
    · simp only [update_of_ne (hne he), update_of_ne (hne he')]
      exact h.key_inj he he'
  · simp only [Cache.insert, Cache.lruPushFront, length_cons]
    rw [h.count]
  · exact hroom
  · intro e
    simp only [Cache.insert, Cache.lruPushFront, mem_cons]
    by_cases he : e = s.next
    · simp [he]
    · simp only [update_of_ne he, he, false_or]
      exact h.live
  · intro e he
    obtain rfl | he := mem_cons.mp he
    · exact lt_succ_self _
    · exact (h.lt_next he).trans (lt_succ_self _)

/-- `page_cache_allocate` makes room if there is none, and makes an entry if the allocations succeed.
An entry at hand survives it. -/
lemma Consistent.allocate (h : Consistent s.toLinks L C) (fails : ℕ → Bool)
    (hkey : ∀ e ∈ L, ¬ (s.inode e = inode ∧ s.pageIndex e = pageIndex)) :
  ∃ L' C', Consistent (s.allocate fails inode pageIndex).2.toLinks L' C' ∧
    (s.allocate fails inode pageIndex).2.uses = s.uses ∧
    (∀ e, (s.allocate fails inode pageIndex).1 = some e →
      L'.head? = some e ∧ (s.allocate fails inode pageIndex).2.referenced e) ∧
    ∀ c r, r ≤ readAheadPages → Guarded c (r + 1) (r + 1) L s.referenced →
      Guarded c r r L' (s.allocate fails inode pageIndex).2.referenced
  := by
  -- the cache with room for an entry
  obtain ⟨s₁, hs₁⟩ : ∃ s₁, s₁ = if maxPages ≤ s.cachedPageCount then s.evictOne else s := ⟨_, rfl⟩
  obtain ⟨L₁, C₁, h₁, hroom, huses, hsub, hkeys, hguard⟩ : ∃ L₁ C₁, Consistent s₁.toLinks L₁ C₁ ∧
      L₁.length < maxPages ∧ s₁.uses = s.uses ∧ (∀ e ∈ L₁, e ∈ L) ∧
      (s₁.inode = s.inode ∧ s₁.pageIndex = s.pageIndex) ∧
      ∀ c r, r ≤ readAheadPages → Guarded c (r + 1) (r + 1) L s.referenced →
        Guarded c (r + 1) r L₁ s₁.referenced := by
    rw [hs₁, h.count]
    split
    · next hfull =>
      have hlength : L.length = maxPages := le_antisymm h.length_le hfull
      have hne : L ≠ [] := by
        rintro rfl
        simp [maxPages] at hlength
      obtain ⟨v, C', h', hev, huses, hkeys⟩ := h.evictOne hne
      refine ⟨_, C', h', ?_, huses, fun e => mem_of_mem_erase, hkeys, fun c r hr hc =>
        hc.evict hr h.nodup hlength hev⟩
      rw [length_erase_of_mem hev.mem, hlength]
      decide
    · exact ⟨L, C, h, by omega, rfl, fun _ => id, ⟨rfl, rfl⟩, fun c r _ hc => hc.weaken⟩
  have hkey₁ : ∀ e ∈ L₁, ¬ (s₁.inode e = inode ∧ s₁.pageIndex e = pageIndex) := by
    intro e he
    rw [hkeys.1, hkeys.2]
    exact hkey e (hsub e he)
  have hdrop : ∀ {c r}, Guarded c (r + 1) r L₁ s₁.referenced → Guarded c r r L₁ s₁.referenced := by
    rintro c r ⟨front, back, hL, hlen, hor⟩
    exact ⟨front, back, hL, by omega, hor⟩
  unfold Cache.allocate
  simp only [← hs₁]
  split
  · exact ⟨L₁, C₁, h₁, huses, nofun, fun c r hr hc => hdrop (hguard c r hr hc)⟩
  split
  · exact ⟨L₁, C₁, h₁, huses, nofun, fun c r hr hc => hdrop (hguard c r hr hc)⟩
  have hfresh : s₁.next ∉ L₁ := fun hmem => absurd (h₁.lt_next hmem) (lt_irrefl _)
  have hins := Consistent.insert (s := { s₁ with tries := s₁.tries + 2 }) h₁ hkey₁ hroom
  refine ⟨_, _, hins, huses, ?_, fun c r hr hc => (hguard c r hr hc).push hfresh⟩
  intro e he
  obtain rfl := some.inj he
  exact ⟨rfl, update_self ..⟩

end Links

/-! ### Reading and writing -/

section Calls

variable {s : Cache δ} {L : List ℕ} {C : ℕ → List ℕ} (D : Device δ) (fails : ℕ → Bool)

/-- The cache is as it should be, and all uses of entries were of entries in the cache. -/
def Sound (s : Cache δ) (L : List ℕ) (C : ℕ → List ℕ) : Prop :=
  Consistent s.toLinks L C ∧ ∀ u ∈ s.uses, u.2

section

variable (h : Sound s L C) {e : ℕ} (he : e ∈ L)

include h he

/-- An entry of the cache is used. -/
lemma Sound.use : Sound (s.use e) L C
  := by
  refine ⟨h.1, ?_⟩
  rintro u (_ | ⟨_, hu⟩)
  · exact h.1.live.mpr he
  · exact h.2 u hu

lemma Sound.setPage (page : ℕ → UInt8) :
  Sound (s.setPage e page) L C
  := h.use he

lemma Sound.fill (node pageIndex : ℕ) (page : ℕ → UInt8) :
  Sound (s.fill D node pageIndex e page) L C
  := by
  refine ⟨h.1, ?_⟩
  rintro u (_ | ⟨_, hu⟩)
  · exact h.1.live.mpr he
  · exact h.2 u hu

end

/-- What a search for an entry keeps. -/
structure Finds (s : Cache δ) (L : List ℕ) (found : Option ℕ × Cache δ) (L' : List ℕ) (C' : ℕ → List ℕ) :
    Prop where
  sound : Sound found.2 L' C'
  front (e : ℕ) : found.1 = some e → L'.head? = some e ∧ found.2.referenced e
  guard (c r : ℕ) : r ≤ readAheadPages → Guarded c (r + 1) (r + 1) L s.referenced →
    Guarded c r r L' found.2.referenced

section

variable (h : Sound s L C)

include h

lemma Sound.lookup (inode pageIndex : ℕ) :
  ((s.lookup inode pageIndex).1 = none ∧ (s.lookup inode pageIndex).2 = s ∧
      ∀ e ∈ L, ¬ (s.inode e = inode ∧ s.pageIndex e = pageIndex)) ∨
    ((s.lookup inode pageIndex).1 ≠ none ∧
      ∃ L' C', Finds s L (s.lookup inode pageIndex) L' C')
  := by
  obtain ⟨heq, hkey⟩ | ⟨e, he, heq, -⟩ := h.1.lookup inode pageIndex
  · rw [heq]
    exact .inl ⟨rfl, rfl, hkey⟩
  rw [heq]
  refine .inr ⟨nofun, e :: L.erase e, C, ⟨h.1.touch he true, h.2⟩, ?_, ?_⟩
  · intro e' he'
    obtain rfl := some.inj he'
    exact ⟨rfl, update_self ..⟩
  · intro c r _ hc
    exact hc.touch h.1.nodup he

lemma Sound.allocate {inode pageIndex : ℕ}
    (hkey : ∀ e ∈ L, ¬ (s.inode e = inode ∧ s.pageIndex e = pageIndex)) :
  ∃ L' C', Finds s L (s.allocate fails inode pageIndex) L' C'
  := by
  obtain ⟨L', C', hcons, huses, hfront, hguard⟩ := h.1.allocate fails hkey
  exact ⟨L', C', ⟨hcons, huses ▸ h.2⟩, hfront, hguard⟩

lemma Sound.prefetchLoop (node n pageIndex : ℕ) :
  ∃ L' C', Sound (prefetchLoop D fails node n pageIndex s) L' C' ∧
    ∀ c, Guarded c n n L s.referenced → c ∈ L'
  := by
  induction n generalizing s L C pageIndex with
  | zero => exact ⟨L, C, h, fun c hc => hc.mem⟩
  | succ n ih =>
    rw [prefetchLoop]
    split
    · exact ⟨L, C, h, fun c hc => hc.mem⟩
    have hle : ∀ c, Guarded c (n + 1) (n + 1) L s.referenced → n ≤ readAheadPages := by
      rintro c ⟨front, back, -, hlen, -⟩
      omega
    dsimp only
    obtain ⟨hnone, hsame, hkey⟩ | ⟨hsome, L₁, C₁, hfound⟩ :=
      h.lookup (D.inode s.dev node) (pageIndex % 2 ^ 64)
    · rw [hnone, hsame]
      obtain ⟨L₁, C₁, hmade⟩ := h.allocate fails hkey
      cases hentry : (s.allocate fails (D.inode s.dev node) (pageIndex % 2 ^ 64)).1 with
      | none =>
        exact ⟨L₁, C₁, hmade.sound, fun c hc => (hmade.guard c n (hle c hc) hc).mem⟩
      | some e =>
        have hmem : e ∈ L₁ := mem_of_head? (hmade.front e hentry).1
        obtain ⟨L₂, C₂, hrest, hguard⟩ :=
          ih (hmade.sound.fill D hmem node (pageIndex % 2 ^ 64) fun _ => 0) (pageIndex + 1)
        exact ⟨L₂, C₂, hrest, fun c hc => hguard c (hmade.guard c n (hle c hc) hc)⟩
    · obtain ⟨e, he⟩ := ne_none_iff_exists'.mp hsome
      rw [he]
      obtain ⟨L₂, C₂, hrest, hguard⟩ := ih hfound.sound (pageIndex + 1)
      exact ⟨L₂, C₂, hrest, fun c hc => hguard c (hfound.guard c n (hle c hc) hc)⟩

lemma Sound.prefetch (node first n : ℕ) :
  ∃ L' C', Sound (s.prefetch D fails node first n) L' C' ∧
    ∀ c, Guarded c n n L s.referenced → c ∈ L'
  := by
  unfold Cache.prefetch
  split
  · exact h.prefetchLoop D fails node n first
  · exact ⟨L, C, h, fun c hc => hc.mem⟩

/-- The entry that a read has at hand is in the cache when its page is copied, after the read-ahead. -/
lemma Sound.readPage (node pageIndex : ℕ) (sequential : Bool) :
  ∃ L' C', Sound (s.readPage D fails node pageIndex sequential).2 L' C' ∧
    ∀ e, (s.readPage D fails node pageIndex sequential).1 = some e → e ∈ L'
  := by
  unfold Cache.readPage
  dsimp only
  obtain ⟨hnone, hsame, hkey⟩ | ⟨hsome, L₁, C₁, hfound⟩ := h.lookup (D.inode s.dev node) pageIndex
  · rw [hnone, hsame]
    obtain ⟨L₁, C₁, hmade⟩ := h.allocate fails hkey
    cases hentry : (s.allocate fails (D.inode s.dev node) pageIndex).1 with
    | none => exact ⟨L₁, C₁, hmade.sound, nofun⟩
    | some e =>
      obtain ⟨hhead, href⟩ := hmade.front e hentry
      have hmem : e ∈ L₁ := mem_of_head? hhead
      have hguarded : Guarded e readAheadPages readAheadPages L₁
          (s.allocate fails (D.inode s.dev node) pageIndex).2.referenced := by
        obtain ⟨rest, rfl⟩ := head?_eq_some_iff.mp hhead
        exact ⟨[], rest, rfl, by simp, .inl href⟩
      -- filling the page changes neither the list nor what is referenced
      obtain ⟨s', hs'⟩ : ∃ s', s' = if D.canRead node then
          (s.allocate fails (D.inode s.dev node) pageIndex).2.fill D node pageIndex e fun _ => 0
        else (s.allocate fails (D.inode s.dev node) pageIndex).2.setPage e fun _ => 0 := ⟨_, rfl⟩
      have hfilled : Sound s' L₁ C₁ ∧
          s'.referenced = (s.allocate fails (D.inode s.dev node) pageIndex).2.referenced := by
        rw [hs']
        split
        · exact ⟨hmade.sound.fill D hmem node pageIndex _, rfl⟩
        · exact ⟨hmade.sound.setPage hmem _, rfl⟩
      dsimp only
      rw [← hs']
      cases sequential with
      | false => exact ⟨L₁, C₁, hfilled.1, fun e' he' => some.inj he' ▸ hmem⟩
      | true =>
        obtain ⟨L₂, C₂, hsound, hguard⟩ :=
          hfilled.1.prefetch D fails node (pageIndex + 1) readAheadPages
        refine ⟨L₂, C₂, hsound, fun e' he' => ?_⟩
        obtain rfl := some.inj he'
        exact hguard e (hfilled.2 ▸ hguarded)
  · obtain ⟨e, he⟩ := ne_none_iff_exists'.mp hsome
    rw [he]
    refine ⟨L₁, C₁, hfound.sound, fun e' he' => ?_⟩
    obtain rfl := some.inj he'
    exact mem_of_head? (hfound.front e he).1

lemma Sound.readLoop (node offset total : ℕ) (sequential : Bool) (fuel : ℕ)
    (out : List UInt8) :
  ∃ L' C', Sound (readLoop D fails node offset total sequential fuel out s).2 L' C'
  := by
  induction fuel generalizing s L C out with
  | zero => exact ⟨L, C, h⟩
  | succ fuel ih =>
    rw [readLoop]
    split
    · exact ⟨L, C, h⟩
    obtain ⟨L₁, C₁, hpage, hmem⟩ :=
      h.readPage D fails node ((offset + out.length) % 2 ^ 64 / 4096) sequential
    dsimp only
    split
    · exact ⟨L₁, C₁, hpage⟩
    · next e he => exact ih (hpage.use (hmem e he)) _

lemma Sound.read (node offset size : ℕ) :
  ∃ L' C', Sound (s.read D fails node offset size).2 L' C'
  := by
  unfold Cache.read
  split
  · exact ⟨L, C, h⟩
  obtain ⟨observed, hobserved⟩ : ∃ o, o = s.seq.observe (D.inode s.dev node) offset := ⟨_, rfl⟩
  rw [← hobserved]
  have hseq : Sound { s with seq := observed.2 } L C := h
  obtain ⟨L', C', hloop⟩ := hseq.readLoop D fails node offset _ observed.1 _ []
  exact ⟨L', C', hloop⟩

lemma Sound.writePage (node curOffset chunk : ℕ) :
  ∃ L' C', Sound (s.writePage D fails node curOffset chunk).2 L' C' ∧
    ∀ e, (s.writePage D fails node curOffset chunk).1 = some e → e ∈ L'
  := by
  unfold Cache.writePage
  dsimp only
  obtain ⟨hnone, hsame, hkey⟩ | ⟨hsome, L₁, C₁, hfound⟩ :=
    h.lookup (D.inode s.dev node) (curOffset / 4096)
  · rw [hnone, hsame]
    obtain ⟨L₁, C₁, hmade⟩ := h.allocate fails hkey
    cases hentry : (s.allocate fails (D.inode s.dev node) (curOffset / 4096)).1 with
    | none => exact ⟨L₁, C₁, hmade.sound, nofun⟩
    | some e =>
      have hmem : e ∈ L₁ := mem_of_head? (hmade.front e hentry).1
      refine ⟨L₁, C₁, ?_, fun e' he' => some.inj he' ▸ hmem⟩
      dsimp only
      split
      · split
        · exact hmade.sound.fill D hmem node _ _
        · exact hmade.sound.setPage hmem _
      · exact hmade.sound
  · obtain ⟨e, he⟩ := ne_none_iff_exists'.mp hsome
    rw [he]
    refine ⟨L₁, C₁, hfound.sound, fun e' he' => ?_⟩
    obtain rfl := some.inj he'
    exact mem_of_head? (hfound.front e he).1

lemma Sound.writeLoop (node offset : ℕ) (data : List UInt8) (fuel done : ℕ) :
  ∃ L' C', Sound (writeLoop D fails node offset data fuel done s).2 L' C'
  := by
  induction fuel generalizing s L C done with
  | zero => exact ⟨L, C, h⟩
  | succ fuel ih =>
    rw [writeLoop]
    split
    · exact ⟨L, C, h⟩
    obtain ⟨L₁, C₁, hpage, hmem⟩ := h.writePage D fails node ((offset + done) % 2 ^ 64)
      (min (4096 - (offset + done) % 2 ^ 64 % 4096) (data.length - done))
    dsimp only
    split
    · exact ⟨L₁, C₁, hpage⟩
    next e he =>
      refine ih (L := L₁) (C := C₁) ?_ _
      split
      · exact hpage.use (hmem e he)
      · exact hpage.use (hmem e he)

lemma Sound.write (node offset : ℕ) (data : List UInt8) :
  ∃ L' C', Sound (s.write D fails node offset data).2 L' C'
  := by
  unfold Cache.write
  split
  · exact ⟨L, C, h⟩
  obtain ⟨L', C', hloop⟩ := h.writeLoop D fails node offset data data.length 0
  dsimp only
  split
  · exact ⟨L', C', hloop⟩
  · exact ⟨L', C', hloop⟩

lemma Sound.step (a : Act) : ∃ L' C', Sound (s.step D fails a) L' C'
  := by
  cases a with
  | read node offset size => exact h.read D fails node offset size
  | write node offset data => exact h.write D fails node offset data
  | prefetch node first count =>
    obtain ⟨L', C', hsound, -⟩ := h.prefetch D fails node first count
    exact ⟨L', C', hsound⟩
  | evict =>
    rw [Cache.step]
    by_cases hne : L = []
    · subst hne
      rw [evictOne_of_nil h.1]
      exact ⟨[], C, h⟩
    · obtain ⟨v, C', hcons, -, huses, -⟩ := h.1.evictOne hne
      exact ⟨_, C', hcons, huses ▸ h.2⟩

end

lemma sound_init (dev : δ) (frames : ℕ → ℕ → UInt8) : Sound (init dev frames) [] fun _ => []
  := by
  refine ⟨⟨queue_nil, nodup_nil, fun _ => rfl, fun _ => nodup_nil, ?_, nofun, rfl,
    zero_le _, ?_, nofun⟩, nofun⟩
  · intro e b
    simp
  · intro e
    simp [init]

/-- After any calls, the entries of the hash chains are those of the list, the list and the chains have
no cycles and their links fit, the keys differ, the count is the length of the list and at most the
maximum, and every entry that was used was in the cache until its use was over. -/
theorem links_run (dev : δ) (frames : ℕ → ℕ → UInt8) (acts : List Act) :
  ∃ L C, Sound ((init dev frames).run D fails acts) L C
  := by
  suffices H : ∀ (s : Cache δ) L C, Sound s L C → ∃ L' C', Sound (s.run D fails acts) L' C' from
    H _ _ _ (sound_init dev frames)
  induction acts with
  | nil => exact fun s L C h => ⟨L, C, h⟩
  | cons a acts ih =>
    intro s L C h
    obtain ⟨L', C', h'⟩ := h.step D fails a
    exact ih _ L' C' h'

end Calls

end PageCache
