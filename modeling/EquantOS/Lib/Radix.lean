import Mathlib.Data.Set.Basic
import Mathlib.Data.List.Infix

/-!
# Pointer trees in a memory

A memory holds nodes, and a node is an array of entries, some of which point to other nodes.  A path
is a list of indices, followed from a root.  The nodes that the paths of a set `D` reach form a tree if
no two of these paths meet.  In a tree an entry is changed without an effect on paths that do not go
through it, and a fresh node is linked in at one path.
-/

open Function List

namespace Radix

variable {α ι ε : Type*}

/-- The node that a path reaches. -/
def walk (child : ε → Option α) (mem : α → ι → ε) : α → List ι → Option α
  | a, [] => some a
  | a, i :: p => (child (mem a i)).bind fun b => walk child mem b p

variable {child : ε → Option α} {mem mem' : α → ι → ε} {root a b : α} {i : ι} {e : ε} {p q : List ι}
  {D : Set (List ι)}

lemma walk_append (p q : List ι) :
  walk child mem a (p ++ q) = (walk child mem a p).bind fun b => walk child mem b q
  := by
  induction p generalizing a with
  | nil => rfl
  | cons i p ih =>
    rw [cons_append, walk, walk, Option.bind_assoc]
    congr 1
    funext b
    exact ih

lemma walk_concat :
  walk child mem a (p ++ [i]) = (walk child mem a p).bind fun b => child (mem b i)
  := by
  rw [walk_append]
  congr 1
  funext b
  rw [walk]
  cases child (mem b i) <;> rfl

/-- A path goes on as before if the entries that it goes through do. -/
lemma walk_congr
    (h : ∀ p i, p ++ [i] <+: q → ∀ b, walk child mem a p = some b →
      child (mem' b i) = child (mem b i)) :
  walk child mem' a q = walk child mem a q
  := by
  induction q using reverseRecOn with
  | nil => rfl
  | append_singleton q i ih =>
    have hq := ih fun p j hp => h p j (hp.trans (prefix_append q [i]))
    rw [walk_concat, walk_concat, hq]
    cases hwalk : walk child mem a q with
    | none => rfl
    | some b => exact h q i (prefix_refl _) b hwalk

/-- The paths of `D` are closed under taking parents, and no two of them meet. -/
structure IsTree (child : ε → Option α) (mem : α → ι → ε) (root : α) (D : Set (List ι)) : Prop where
  closed (p : List ι) (i : ι) : p ++ [i] ∈ D → p ∈ D
  inj (p q : List ι) (a : α) : p ∈ D → q ∈ D → walk child mem root p = some a →
    walk child mem root q = some a → p = q

/-- The nodes of the paths of `D`. -/
def nodes (child : ε → Option α) (mem : α → ι → ε) (root : α) (D : Set (List ι)) : Set α :=
  {a | ∃ p ∈ D, walk child mem root p = some a}

lemma IsTree.mem_of_isPrefix (h : IsTree child mem root D) (hpq : p <+: q) (hq : q ∈ D) : p ∈ D
  := by
  obtain ⟨r, rfl⟩ := hpq
  induction r using reverseRecOn with
  | nil => rwa [append_nil] at hq
  | append_singleton r i ih => exact ih (h.closed _ i (by rwa [append_assoc]))

lemma IsTree.congr
    (h : IsTree child mem root D)
    (hwalk : ∀ q ∈ D, walk child mem' root q = walk child mem root q) :
  IsTree child mem' root D
  := ⟨h.closed, fun p q a hp hq hpa hqa =>
    h.inj p q a hp hq (hwalk p hp ▸ hpa) (hwalk q hq ▸ hqa)⟩

variable [DecidableEq α] [DecidableEq ι]

/-- Change one entry of a node. -/
def store (mem : α → ι → ε) (a : α) (i : ι) (e : ε) : α → ι → ε :=
  Function.update mem a (Function.update (mem a) i e)

lemma store_self : store mem a i e a i = e
  := by
  rw [store, update_self, update_self]

lemma store_of_ne {j : ι} (h : b ≠ a ∨ j ≠ i) : store mem a i e b j = mem b j
  := by
  rw [store]
  by_cases hb : b = a
  · rw [hb, update_self, update_of_ne (h.resolve_left fun hne => hne hb)]
  · rw [update_of_ne hb]

lemma store_row_of_ne (h : b ≠ a) : store mem a i e b = mem b := update_of_ne h ..

/-- A change that keeps the pointer of an entry changes no path. -/
lemma walk_store_of_child_eq (h : child e = child (mem a i)) (q : List ι) :
  walk child (store mem a i e) root q = walk child mem root q
  := by
  apply walk_congr
  intro p j _ b _
  by_cases hb : b = a ∧ j = i
  · rw [hb.1, hb.2, store_self, h]
  · rw [store_of_ne (not_and_or.mp hb)]

/-- An entry that no path of `D` goes through may be changed. -/
lemma IsTree.walk_store_of_notMem
    (h : IsTree child mem root D) (hp : p ∈ D) (ha : walk child mem root p = some a)
    (hi : p ++ [i] ∉ D) (hq : q ∈ D) :
  walk child (store mem a i e) root q = walk child mem root q
  := by
  apply walk_congr
  intro p' j hj b hb
  rw [store_of_ne]
  by_contra hcon
  rw [not_or, not_not, not_not] at hcon
  obtain ⟨rfl, rfl⟩ := hcon
  have hmem := h.mem_of_isPrefix hj hq
  have heq := h.inj p p' b hp (h.closed _ _ hmem) ha hb
  exact hi (heq ▸ hmem)

/-- Link a node without pointers into the tree. -/
def link (mem : α → ι → ε) (blank : ε) (a : α) (i : ι) (e : ε) (b : α) : α → ι → ε :=
  store (Function.update mem b fun _ => blank) a i e

section Link

variable {blank : ε}

lemma link_of_ne {c : α} (hb : c ≠ b) (ha : c ≠ a) : link mem blank a i e b c = mem c
  := by
  rw [link, store_row_of_ne ha, update_of_ne hb]

lemma link_fresh (hab : b ≠ a) : link mem blank a i e b b = fun _ => blank
  := by
  rw [link, store_row_of_ne hab, update_self]

lemma link_entry_of_ne {j : ι} (hab : b ≠ a) (hj : j ≠ i) : link mem blank a i e b a j = mem a j
  := by
  rw [link, store_of_ne (.inr hj), update_of_ne hab.symm]

lemma link_entry : link mem blank a i e b a i = e := store_self

section

variable (h : IsTree child mem root D)

include h

lemma IsTree.walk_link_of_not_isPrefix
    (hp : p ∈ D) (ha : walk child mem root p = some a)
    (hfresh : b ∉ nodes child mem root D) (hq : q ∈ D) (hpq : ¬ p ++ [i] <+: q) :
  walk child (link mem blank a i e b) root q = walk child mem root q
  := by
  have hab : b ≠ a := fun hba => hfresh ⟨p, hp, hba ▸ ha⟩
  apply walk_congr
  intro p' j hj c hc
  have hp' := h.closed _ _ (h.mem_of_isPrefix hj hq)
  have hcb : c ≠ b := fun hcb => hfresh ⟨p', hp', hcb ▸ hc⟩
  by_cases hca : c = a
  · subst hca
    have heq := h.inj p p' c hp hp' ha hc
    rw [link_entry_of_ne hab fun hji => hpq (by rwa [heq, ← hji])]
  · rw [link_of_ne hcb hca]

/-- The new node is reached by one path. -/
lemma IsTree.walk_link_self
    (blank : ε) (hp : p ∈ D) (ha : walk child mem root p = some a)
    (hfresh : b ∉ nodes child mem root D) (he : child e = some b) :
  walk child (link mem blank a i e b) root (p ++ [i]) = some b
  := by
  have hself : ¬ p ++ [i] <+: p := by
    intro hpre
    have hlen := hpre.length_le
    rw [length_append, length_singleton] at hlen
    omega
  rw [walk_concat, h.walk_link_of_not_isPrefix hp ha hfresh hp hself, ha]
  change child (link mem blank a i e b a i) = some b
  rw [link_entry, he]

section

variable (hp : p ∈ D) (ha : walk child mem root p = some a) (hfresh : b ∉ nodes child mem root D)

include hp ha hfresh

/-- Other paths are as before. -/
lemma IsTree.walk_link_of_ne
    (he : child e = some b) (hnone : child (mem a i) = none)
    (hblank : child blank = none) (hq : q ∈ D) (hne : q ≠ p ++ [i]) :
  walk child (link mem blank a i e b) root q = walk child mem root q
  := by
  by_cases hpq : p ++ [i] <+: q
  · obtain ⟨r, rfl⟩ := hpq
    have hab : b ≠ a := fun hba => hfresh ⟨p, hp, hba ▸ ha⟩
    have hold : walk child mem root (p ++ [i]) = none := by
      rw [walk_concat, ha]
      exact hnone
    rw [walk_append (p ++ [i]) r, walk_append (p ++ [i]) r, hold, h.walk_link_self blank hp ha hfresh he]
    cases r with
    | nil => exact absurd (append_nil _) hne
    | cons j r =>
      change walk child (link mem blank a i e b) b (j :: r) = none
      rw [walk, link_fresh hab, hblank]
      rfl
  · exact h.walk_link_of_not_isPrefix hp ha hfresh hq hpq

lemma IsTree.link
    (he : child e = some b) (hnone : child (mem a i) = none)
    (hblank : child blank = none) :
  IsTree child (link mem blank a i e b) root D
  := by
  refine ⟨h.closed, fun q q' c hq hq' hc hc' => ?_⟩
  have hself : walk child (Radix.link mem blank a i e b) root (p ++ [i]) = some b :=
    h.walk_link_self blank hp ha hfresh he
  have hother : ∀ r ∈ D, r ≠ p ++ [i] →
      walk child (Radix.link mem blank a i e b) root r = walk child mem root r :=
    fun r => h.walk_link_of_ne hp ha hfresh he hnone hblank
  have hmeet : ∀ r r' : List ι, r = p ++ [i] → r' ∈ D → r' ≠ p ++ [i] →
      walk child (Radix.link mem blank a i e b) root r = some c →
      walk child (Radix.link mem blank a i e b) root r' ≠ some c := by
    rintro r r' rfl hr' hne hrc hrc'
    rw [hself] at hrc
    rw [hother r' hr' hne] at hrc'
    exact hfresh ⟨r', hr', (Option.some.inj hrc) ▸ hrc'⟩
  by_cases heq : q = p ++ [i] <;> by_cases heq' : q' = p ++ [i]
  · rw [heq, heq']
  · exact absurd hc' (hmeet q q' heq hq' heq' hc)
  · exact absurd hc (hmeet q' q heq' hq heq hc')
  · rw [hother q hq heq] at hc
    rw [hother q' hq' heq'] at hc'
    exact h.inj q q' c hq hq' hc hc'

end

end

end Link

end Radix
