import Mathlib.Data.List.Basic

/-!
# The words of a list

The words of a list are its maximal runs of elements that are not separators.  Scanning them one
after the other finds them all, and a list has at least the words that its beginning has.
-/

namespace List

variable {α : Type} {p : α → Bool} {l : List α}

/-- The maximal runs of elements that are not separators. -/
def words (p : α → Bool) (l : List α) : List (List α) :=
  (l.splitOnP p).filter fun w => !w.isEmpty

@[simp]
lemma words_nil : ([] : List α).words p = []
  := rfl

lemma words_cons_of_sep {a : α} (ha : p a) : (a :: l).words p = l.words p
  := by
  simp [words, splitOnP_cons_eq_if_modifyHead, ha]

lemma words_dropWhile (l : List α) : (l.dropWhile p).words p = l.words p
  := by
  induction l with
  | nil => rfl
  | cons a l ih =>
    by_cases ha : p a
    · rw [dropWhile_cons_of_pos ha, ih, words_cons_of_sep ha]
    · rw [dropWhile_cons_of_neg ha]

/-- The first piece ends at the first separator. -/
lemma splitOnP_eq_takeWhile_cons (l : List α) :
  ∃ pieces, l.splitOnP p = l.takeWhile (fun a => !p a) :: pieces ∧
    pieces.filter (fun w => !w.isEmpty) = ((l.dropWhile fun a => !p a).tail).words p
  := by
  induction l with
  | nil => exact ⟨[], by simp, rfl⟩
  | cons a l ih =>
    obtain ⟨pieces, hl, hpieces⟩ := ih
    by_cases ha : p a
    · exact ⟨l.splitOnP p, by simp [splitOnP_cons_eq_if_modifyHead, ha], by simp [words, ha]⟩
    · exact ⟨pieces, by simp [splitOnP_cons_eq_if_modifyHead, ha, hl], by simp [ha, hpieces]⟩

/-- The first word, and the words after the separator that ends it. -/
lemma words_cons_of_not_sep {a : α} (ha : ¬ p a) :
  (a :: l).words p = (a :: l).takeWhile (fun a => !p a)
    :: (((a :: l).dropWhile fun a => !p a).tail).words p
  := by
  obtain ⟨pieces, hl, hpieces⟩ := splitOnP_eq_takeWhile_cons (p := p) (a :: l)
  rw [words, hl, filter_cons_of_pos (by simp [ha]), hpieces]

/-- Scan the words: skip separators, take a word, skip the separator after it. -/
def scanWords (p : α → Bool) : ℕ → List α → List (List α)
  | 0, _ => []
  | n + 1, l =>
    match l.dropWhile p with
    | [] => []
    | a :: rest =>
      (a :: rest).takeWhile (fun a => !p a)
        :: scanWords p n ((a :: rest).dropWhile fun a => !p a).tail

lemma scanWords_eq_words {n : ℕ} (hn : l.length ≤ n) : scanWords p n l = l.words p
  := by
  induction n generalizing l with
  | zero =>
    obtain rfl := length_eq_zero_iff.mp (Nat.le_zero.mp hn)
    rfl
  | succ n ih =>
    rw [← words_dropWhile, scanWords]
    split
    · next h => rw [h, words_nil]
    next a rest h =>
      have ha : ¬ p a := by
        have := head_dropWhile_not p (h ▸ cons_ne_nil a rest : l.dropWhile p ≠ [])
        simpa [h] using this
      have hlen : (a :: rest).length ≤ n + 1 := by
        have := (dropWhile_sublist p (l := l)).length_le
        rw [h] at this
        exact Nat.le_trans this hn
      have hrest : (((a :: rest).dropWhile fun a => !p a).tail).length ≤ n := by
        have := (dropWhile_sublist (fun a => !p a) (l := a :: rest)).length_le
        rw [length_tail]
        omega
      rw [h, words_cons_of_not_sep ha, ih hrest]

/-- The number of positions at which a word begins, after a separator or not. -/
private def countStarts (p : α → Bool) : Bool → List α → ℕ
  | _, [] => 0
  | inWord, a :: l =>
    if p a then countStarts p false l else (if inWord then 0 else 1) + countStarts p true l

private lemma countStarts_le_append (inWord : Bool) (l r : List α) :
  countStarts p inWord l ≤ countStarts p inWord (l ++ r)
  := by
  induction l generalizing inWord with
  | nil => exact Nat.zero_le _
  | cons a l ih =>
    simp only [countStarts, cons_append]
    split
    · exact ih false
    · exact Nat.add_le_add_left (ih true) _

private lemma countStarts_eq (l : List α) :
  countStarts p false l = (l.words p).length ∧
    countStarts p true l = ((l.splitOnP p).tail.filter fun w => !w.isEmpty).length
  := by
  induction l with
  | nil => exact ⟨rfl, rfl⟩
  | cons a l ih =>
    obtain ⟨w, pieces, hl⟩ := exists_cons_of_ne_nil (splitOnP_ne_nil p l)
    simp only [words, hl, countStarts, splitOnP_cons_eq_if_modifyHead] at ih ⊢
    by_cases ha : p a
    · simp [ha, ih]
    · simp [ha, ih, Nat.add_comm]

lemma length_words_le_append (l r : List α) : (l.words p).length ≤ ((l ++ r).words p).length
  := by
  rw [← (countStarts_eq l).1, ← (countStarts_eq (l ++ r)).1]
  exact countStarts_le_append false l r

lemma length_words_take_le (n : ℕ) (l : List α) :
  ((l.take n).words p).length ≤ (l.words p).length
  := by
  have := length_words_le_append (p := p) (l.take n) (l.drop n)
  rwa [take_append_drop] at this

end List
