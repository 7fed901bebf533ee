import Mathlib.Data.List.Basic

/-!
# Folds that may fail

A fold over a list in `Except`: over a concatenation of lists it is a fold of folds, it keeps what its
steps keep, and its body may be replaced by one that agrees with it under such an invariant.
-/

namespace List

variable {α β ε σ : Type} {I : σ → Prop} {s s' : σ} {xs : List α}

lemma foldlM_flatMap (f : σ → β → Except ε σ) (g : α → List β) (xs : List α) (s : σ) :
  (xs.flatMap g).foldlM f s = xs.foldlM (fun s x => (g x).foldlM f s) s
  := by
  induction xs generalizing s with
  | nil => rfl
  | cons x xs ih =>
    rw [flatMap_cons, foldlM_append, foldlM_cons]
    congr 1
    funext s'
    exact ih s'

lemma foldlM_inv {f : σ → α → Except ε σ}
    (hf : ∀ s s' x, x ∈ xs → I s → f s x = .ok s' → I s') (hs : I s) (h : xs.foldlM f s = .ok s') :
  I s'
  := by
  induction xs generalizing s with
  | nil =>
    obtain rfl := Except.ok.inj h
    exact hs
  | cons x xs ih =>
    rw [foldlM_cons] at h
    cases hx : f s x with
    | error e =>
      rw [hx] at h
      exact absurd h nofun
    | ok s₁ =>
      rw [hx] at h
      exact ih (fun s s' y hy => hf s s' y (mem_cons_of_mem _ hy)) (hf s s₁ x mem_cons_self hs hx) h

lemma foldlM_congr_of_inv {f g : σ → α → Except ε σ}
    (hfg : ∀ s, I s → ∀ x ∈ xs, f s x = g s x)
    (hg : ∀ s s' x, x ∈ xs → I s → g s x = .ok s' → I s') (hs : I s) :
  xs.foldlM f s = xs.foldlM g s
  := by
  induction xs generalizing s with
  | nil => rfl
  | cons x xs ih =>
    rw [foldlM_cons, foldlM_cons, hfg s hs x mem_cons_self]
    cases hx : g s x with
    | error e => rfl
    | ok s' =>
      exact ih (fun s hs y hy => hfg s hs y (mem_cons_of_mem _ hy))
        (fun s s' y hy => hg s s' y (mem_cons_of_mem _ hy)) (hg s s' x mem_cons_self hs hx)

end List
