import Mathlib.Data.Set.Lattice
import Mathlib.Order.CompletePartialOrder

/-!
# Pools

A pool hands out resources one by one and takes them back.  Which resource it hands out next is left
open.  Its state says which resources are available, how many these are, and which have been handed
out; giving back is described for the latter only.
-/

/-- A pool of resources `ρ` with states `σ`. -/
structure Pool (σ ρ : Type*) where
  alloc : σ → Option (ρ × σ)
  free : σ → ρ → σ
  count : σ → ℕ
  avail : σ → Set ρ
  held : σ → Set ρ
  disjoint (s : σ) : Disjoint (avail s) (held s)
  alloc_eq_none (s : σ) : alloc s = none ↔ count s = 0
  alloc_mem {s s' : σ} {r : ρ} : alloc s = some (r, s') → r ∈ avail s
  avail_alloc {s s' : σ} {r : ρ} : alloc s = some (r, s') → avail s' = avail s \ {r}
  held_alloc {s s' : σ} {r : ρ} : alloc s = some (r, s') → held s' = insert r (held s)
  count_alloc {s s' : σ} {r : ρ} : alloc s = some (r, s') → count s = count s' + 1
  avail_free {s : σ} {r : ρ} : r ∈ held s → avail (free s r) = insert r (avail s)
  held_free {s : σ} {r : ρ} : r ∈ held s → held (free s r) = held s \ {r}
  count_free {s : σ} {r : ρ} : r ∈ held s → count (free s r) = count s + 1

namespace Pool

open List Set

variable {σ ρ : Type*} (P : Pool σ ρ) {s : σ}

/-- Give back several resources in turn. -/
def freeAll (s : σ) (rs : List ρ) : σ := rs.foldl P.free s

lemma freeAll_spec {rs : List ρ} (hnodup : rs.Nodup) (hheld : ∀ r ∈ rs, r ∈ P.held s) :
  P.avail (P.freeAll s rs) = P.avail s ∪ {r | r ∈ rs}
    ∧ P.held (P.freeAll s rs) = P.held s \ {r | r ∈ rs}
    ∧ P.count (P.freeAll s rs) = P.count s + rs.length
  := by
  induction rs generalizing s with
  | nil => simp [freeAll]
  | cons r rs ih =>
    obtain ⟨hr, hnodup⟩ := nodup_cons.mp hnodup
    have hrheld := hheld r mem_cons_self
    have hrest : ∀ c ∈ rs, c ∈ P.held (P.free s r) := by
      intro c hc
      rw [P.held_free hrheld]
      exact ⟨hheld c (mem_cons_of_mem _ hc), fun heq => hr (heq ▸ hc)⟩
    obtain ⟨havail, hheld', hcount⟩ := ih hnodup hrest
    have hfold : P.freeAll s (r :: rs) = P.freeAll (P.free s r) rs := rfl
    rw [hfold, havail, hheld', hcount, P.avail_free hrheld, P.held_free hrheld, P.count_free hrheld]
    refine ⟨?_, ?_, by rw [length_cons]; omega⟩
    · ext c
      simp only [mem_union, mem_insert_iff, mem_ofPred_eq, mem_cons]
      tauto
    · ext c
      simp only [mem_sdiff, mem_singleton_iff, mem_ofPred_eq, mem_cons]
      tauto

lemma notMem_held_of_avail {r : ρ} (h : r ∈ P.avail s) : r ∉ P.held s :=
  fun h' => (P.disjoint s).notMem_of_mem_left h h'

end Pool
