import Mathlib.Data.List.Basic
import Mathlib.Data.List.Lookmap

/-!
# Finite maps as lists of pairs

A key has the value of its first pair.  `put` and `erase` remove the other pairs of the key.
-/

open List

namespace AssocMap

variable {κ α : Type} [DecidableEq κ] {k : κ} {v : α} {l : List (κ × α)}

/-- The map without a key. -/
def erase (k : κ) (l : List (κ × α)) : List (κ × α) := l.filter (·.1 ≠ k)

/-- The map with a new value at a key. -/
def put (k : κ) (v : α) (l : List (κ × α)) : List (κ × α) := (k, v) :: erase k l

lemma lookup_erase (k k' : κ) (l : List (κ × α)) :
  (erase k l).lookup k' = if k' = k then none else l.lookup k'
  := by
  induction l with
  | nil => simp [erase]
  | cons p l ih =>
    obtain ⟨i, v⟩ := p
    unfold erase at ih ⊢
    by_cases hik : i = k
    · subst hik
      rw [filter_cons_of_neg (by simp), ih, lookup_cons]
      split_ifs with hkey
      · rfl
      · rw [beq_false_of_ne hkey]
    · rw [filter_cons_of_pos (by simpa using hik), lookup_cons, lookup_cons, ih]
      by_cases hkey : k' = i
      · subst hkey
        simp [hik]
      · rw [beq_false_of_ne hkey]

lemma lookup_put (k k' : κ) (v : α) (l : List (κ × α)) :
  (put k v l).lookup k' = if k' = k then some v else l.lookup k'
  := by
  rw [put, lookup_cons, lookup_erase]
  split_ifs with hkey
  · simp [hkey]
  · rw [beq_false_of_ne hkey]

lemma mem_of_lookup (h : l.lookup k = some v) : (k, v) ∈ l
  := by
  induction l with
  | nil => exact absurd h nofun
  | cons p l ih =>
    obtain ⟨i, w⟩ := p
    rw [lookup_cons] at h
    by_cases hkey : k = i
    · subst hkey
      simp only [beq_self_eq_true, Option.some.injEq] at h
      exact h ▸ mem_cons_self
    · rw [beq_false_of_ne hkey] at h
      exact mem_cons_of_mem _ (ih h)

end AssocMap
