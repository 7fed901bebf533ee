import Mathlib.Data.Finset.Card

/-!
# Counting references

Slots refer to objects or are empty.  How many slots of a finite set refer to an object, and how
the number changes when a slot is filled or emptied.
-/

open Function

namespace RefCount

open Finset

variable {σ ν : Type*} [DecidableEq ν] {S T : Finset σ} {f g : σ → Option ν} {s : σ}
  {m n : ν}

/-- How many slots of `S` refer to an object. -/
def refs (S : Finset σ) (f : σ → Option ν) (n : ν) : ℕ := (S.filter fun s => f s = some n).card

lemma refs_pos_iff : 0 < refs S f n ↔ ∃ s ∈ S, f s = some n
  := by
  rw [refs, card_pos, filter_nonempty_iff]

lemma refs_eq_zero_iff : refs S f n = 0 ↔ ∀ s ∈ S, f s ≠ some n
  := by
  rw [refs, card_eq_zero, filter_eq_empty_iff]

lemma refs_congr (h : ∀ s ∈ S, f s = g s) : refs S f n = refs S g n
  := by
  rw [refs, refs]
  congr 1
  apply filter_congr
  intro s hs
  rw [h s hs]

lemma refs_mono (h : S ⊆ T) : refs S f n ≤ refs T f n
  := card_le_card (filter_subset_filter _ h)

lemma refs_le_card : refs S f n ≤ S.card
  := card_filter_le _ _

variable [DecidableEq σ]

/-- An empty slot is filled. -/
lemma refs_fill (hs : s ∈ S) (hf : f s = none) :
  refs S (update f s (some m)) n = refs S f n + if n = m then 1 else 0
  := by
  by_cases hnm : n = m
  · subst hnm
    have hinsert : (S.filter fun t => update f s (some n) t = some n)
        = insert s (S.filter fun t => f t = some n) := by
      ext t
      by_cases hts : t = s
      · subst hts
        simp [hs]
      · simp [hts]
    have hnot : s ∉ S.filter fun t => f t = some n := by simp [hf]
    rw [refs, refs, hinsert, card_insert_of_notMem hnot, if_pos rfl]
  · rw [if_neg hnm, Nat.add_zero, refs, refs]
    congr 1
    apply filter_congr
    intro t _
    by_cases hts : t = s
    · subst hts
      simp [hf, Ne.symm hnm]
    · simp [hts]

/-- A slot is emptied. -/
lemma refs_clear (hs : s ∈ S) (hf : f s = some m) :
  refs S f n = refs S (update f s none) n + if n = m then 1 else 0
  := by
  have hback : update (update f s none) s (some m) = f := by
    rw [update_idem, ← hf, update_eq_self]
  rw [← refs_fill hs (update_self s none f), hback]

lemma refs_union (h : Disjoint S T) : refs (S ∪ T) f n = refs S f n + refs T f n
  := by
  rw [refs, refs, refs, filter_union, card_union_of_disjoint]
  exact disjoint_filter_filter h

end RefCount
