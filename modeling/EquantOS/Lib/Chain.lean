import Mathlib.Data.List.Nodup

/-!
# Singly linked lists

`Path next h l e` states that following `next` from `h` visits exactly the nodes of `l`, in
order, and arrives at `e`.  Paths are closed under concatenation.  A node is inserted by
writing two links and removed by writing one.
-/

open Function

namespace Chain

open List

variable {α : Type*} {next next' : α → Option α}

/-- Following `next` from `h` visits the nodes of `l` and arrives at `e`. -/
def Path (next : α → Option α) : Option α → List α → Option α → Prop
  | h, [], e => h = e
  | h, a :: l, e => h = some a ∧ Path next (next a) l e

variable {h : Option α} {l l' : List α} {a : α}

/-- A path depends only on the links of its own nodes. -/
lemma Path.congr {e : Option α} (hl : Path next h l e) (hn : ∀ a ∈ l, next' a = next a) :
  Path next' h l e
  := by
  induction l generalizing h with
  | nil => exact hl
  | cons a l ih =>
    obtain ⟨rfl, hl⟩ := hl
    refine ⟨rfl, ?_⟩
    rw [hn a (by simp)]
    apply ih hl
    intro c hc
    apply hn c (by simp [hc])

lemma path_append {e : Option α} :
  Path next h (l ++ l') e ↔ ∃ m, Path next h l m ∧ Path next m l' e
  := by
  induction l generalizing h with
  | nil => simp [Path]
  | cons a l ih => simp [Path, ih, and_assoc]

/-- A path begins with its first node. -/
lemma Path.head_eq (hl : Path next h l none) : h = l.head?
  := by
  cases l with
  | nil => exact hl
  | cons a l => exact hl.1

/-- Two paths to the end from the same node are the same. -/
lemma Path.unique (hl : Path next h l none) (hl' : Path next h l' none) :
  l = l'
  := by
  induction l generalizing h l' with
  | nil =>
    obtain rfl := hl
    cases l' with
    | nil => rfl
    | cons a l' => cases hl'.1
  | cons a l ih =>
    obtain ⟨rfl, hl⟩ := hl
    cases l' with
    | nil => cases hl'
    | cons b l' =>
      obtain ⟨hab, hl'⟩ := hl'
      obtain rfl := Option.some.inj hab
      rw [ih hl hl']

variable [DecidableEq α]

/-- Inserting a node in front. -/
lemma Path.insert_head (hl : Path next h l none) (ha : a ∉ l) :
  Path (update next a h) (some a) (a :: l) none
  := by
  refine ⟨rfl, ?_⟩
  rw [update_self]
  apply hl.congr
  intro c hc
  apply update_of_ne
  rintro rfl
  exact ha hc

/-- Inserting a node behind another one. -/
lemma Path.insert_after {c : α}
    (hl : Path next h (l ++ c :: l') none) (hd : (l ++ c :: l').Nodup) (ha : a ∉ l ++ c :: l') :
  Path (update (update next a (next c)) c (some a)) h (l ++ c :: a :: l') none
  := by
  obtain ⟨m, hpre, rfl, hpost⟩ := path_append.mp hl
  obtain ⟨-, hd', hdisj⟩ := nodup_append.mp hd
  obtain ⟨hc, -⟩ := nodup_cons.mp hd'
  have hac : a ≠ c := by
    rintro rfl
    exact ha (by simp)
  have hkeep : ∀ b ≠ a, b ≠ c →
      update (update next a (next c)) c (some a) b = next b := by
    intro b hba hbc
    rw [update_of_ne hbc, update_of_ne hba]
  refine path_append.mpr ⟨some c, ?_, rfl, ?_, ?_⟩
  · apply hpre.congr
    intro b hb
    apply hkeep
    · rintro rfl
      exact ha (by simp [hb])
    · exact hdisj b hb c (by simp)
  · rw [update_self]
  · rw [update_of_ne hac, update_self]
    apply hpost.congr
    intro b hb
    apply hkeep
    · rintro rfl
      exact ha (by simp [hb])
    · rintro rfl
      exact hc hb

/-- Removing the node behind another one. -/
lemma Path.remove_after {c : α}
    (hl : Path next h (l ++ c :: a :: l') none) (hd : (l ++ c :: a :: l').Nodup) :
  Path (update (update next c (next a)) a none) h (l ++ c :: l') none
  := by
  obtain ⟨m, hpre, rfl, hca, hpost⟩ := path_append.mp hl
  obtain ⟨-, hd', hdisj⟩ := nodup_append.mp hd
  obtain ⟨hc, hd'⟩ := nodup_cons.mp hd'
  obtain ⟨ha, -⟩ := nodup_cons.mp hd'
  have hkeep : ∀ b ≠ a, b ≠ c →
      update (update next c (next a)) a none b = next b := by
    intro b hba hbc
    rw [update_of_ne hba, update_of_ne hbc]
  have hac : c ≠ a := by
    rintro rfl
    exact hc (by simp)
  refine path_append.mpr ⟨some c, ?_, rfl, ?_⟩
  · apply hpre.congr
    intro b hb
    apply hkeep
    · exact hdisj b hb a (by simp)
    · exact hdisj b hb c (by simp)
  · rw [update_of_ne hac, update_self]
    apply hpost.congr
    intro b hb
    apply hkeep
    · rintro rfl
      exact ha hb
    · rintro rfl
      exact hc (by simp [hb])

/-- Removing the first node. -/
lemma Path.remove_head (hl : Path next h (a :: l) none) (hd : (a :: l).Nodup) :
  Path (update next a none) (next a) l none
  := by
  apply hl.2.congr
  intro b hb
  apply update_of_ne
  rintro rfl
  exact (nodup_cons.mp hd).1 hb

end Chain
