import EquantOS.Lib.Chain
import EquantOS.Proc.RunQueue

/-!
# The sleep queue

What the sleep queue contains: a list of distinct tasks in the order of their deadlines.
The walks along such a list end, so that a task can be put in and taken out.
-/

open Chain Function List Option

namespace SleepQueue

open SleepQueue Nat

variable {s : SleepQueue} {l : List Tid} {t : Tid}

/-- The sleep queue contains the tasks `l`, in this order. -/
structure Holds (s : SleepQueue) (l : List Tid) : Prop where
  path : Path s.sleepNext s.sleepQueueHead l none
  nodup : l.Nodup
  sorted : l.Pairwise fun a b => s.sleepUntil a ≤ s.sleepUntil b

lemma length_lt_walkLimit (h : l.Nodup) : l.length < walkLimit
  := by
  have hinj : Function.Injective (BitVec.toFin : Tid → Fin (2 ^ 64)) := fun a b hab =>
    BitVec.eq_of_toFin_eq hab
  have hcard := (h.map hinj).length_le_card
  rw [length_map, Fintype.card_fin] at hcard
  rw [walkLimit]
  omega

/-! ### Putting a task in -/

/-- The loop of `sched_make_sleep` stops in front of the first task that is due later. -/
lemma place_eq {curr : Tid} {rest : List Tid} {u fuel : ℕ}
    (hpath : Path s.sleepNext (s.sleepNext curr) rest none) (hcurr : s.sleepUntil curr ≤ u)
    (hfuel : rest.length < fuel) :
  ∃ pre c post, curr :: rest = pre ++ c :: post ∧ s.place u fuel curr = some c
    ∧ (∀ a ∈ pre, s.sleepUntil a ≤ u) ∧ s.sleepUntil c ≤ u ∧ ∀ b ∈ post.head?, u < s.sleepUntil b
  := by
  induction rest generalizing curr fuel with
  | nil =>
    obtain ⟨fuel, rfl⟩ := exists_eq_succ_of_ne_zero (ne_of_gt hfuel)
    refine ⟨[], curr, [], rfl, ?_, by simp, hcurr, by simp⟩
    have hend : s.sleepNext curr = none := hpath
    rw [succ_eq_add_one, place, hend]
  | cons a rest ih =>
    obtain ⟨fuel, rfl⟩ := Nat.exists_eq_succ_of_ne_zero (Nat.ne_zero_of_lt hfuel)
    obtain ⟨hnext, hpath⟩ := hpath
    rw [succ_eq_add_one, place, hnext]
    simp only
    by_cases ha : s.sleepUntil a ≤ u
    · rw [if_pos ha]
      have hless : rest.length < fuel := by
        rw [length_cons] at hfuel
        omega
      obtain ⟨pre, c, post, heq, hplace, hpre, hc, hpost⟩ := ih hpath ha hless
      refine ⟨curr :: pre, c, post, by rw [heq]; rfl, hplace, ?_, hc, hpost⟩
      intro b hb
      rcases mem_cons.mp hb with rfl | hb
      · exact hcurr
      · exact hpre b hb
    · rw [if_neg ha]
      refine ⟨[], curr, a :: rest, rfl, rfl, by simp, hcurr, ?_⟩
      intro b hb
      rw [head?_cons, mem_some] at hb
      subst hb
      omega

/-- The deadlines behind a task that is due later are later. -/
lemma lt_of_lt_head {u : ℕ} (hsorted : l.Pairwise fun a b => s.sleepUntil a ≤ s.sleepUntil b)
    (hhead : ∀ b ∈ l.head?, u < s.sleepUntil b) :
  ∀ b ∈ l, u < s.sleepUntil b
  := by
  cases l with
  | nil => simp
  | cons a l =>
    have ha : u < s.sleepUntil a := hhead a (by simp)
    intro b hb
    rcases mem_cons.mp hb with rfl | hb
    · exact ha
    · exact ha.trans_le ((pairwise_cons.mp hsorted).1 b hb)

/-- A queue is seen in the links and deadlines of its tasks only. -/
lemma Holds.congr {s' : SleepQueue} (h : Holds s l) (hhead : s'.sleepQueueHead = s.sleepQueueHead)
    (hnext : ∀ a ∈ l, s'.sleepNext a = s.sleepNext a)
    (huntil : ∀ a ∈ l, s'.sleepUntil a = s.sleepUntil a) :
  Holds s' l
  where
  path := by
    rw [hhead]
    exact h.path.congr hnext
  nodup := h.nodup
  sorted := by
    apply h.sorted.imp_of_mem
    intro a b ha hb hab
    rwa [huntil a ha, huntil b hb]

/-- A task can be put in at its place. -/
lemma Holds.putIn (h : Holds s l) (ht : t ∉ l) (hnext : s.sleepNext t = none) :
  ∃ s' l', s.putIn t (s.sleepUntil t) = some s' ∧ Holds s' l' ∧ l'.Perm (t :: l)
    ∧ s'.sleepUntil = s.sleepUntil
  := by
  obtain ⟨hpath, hnodup, hsorted⟩ := h
  cases l with
  | nil =>
    have hhead : s.sleepQueueHead = none := hpath
    rw [putIn, hhead]
    refine ⟨_, [t], rfl, ⟨⟨rfl, hnext⟩, nodup_singleton t, ?_⟩, List.Perm.refl _, rfl⟩
    exact pairwise_singleton ..
  | cons head l =>
    have hhead : s.sleepQueueHead = some head := hpath.1
    rw [putIn, hhead]
    simp only
    split
    · next hlt =>
      refine ⟨_, t :: head :: l, rfl, ⟨?_, nodup_cons.mpr ⟨ht, hnodup⟩, ?_⟩, List.Perm.refl _,
        rfl⟩
      · exact (hhead ▸ hpath).insert_head ht
      · refine pairwise_cons.mpr ⟨?_, hsorted⟩
        intro b hb
        apply le_of_lt
        exact lt_of_lt_head hsorted (by simpa using hlt) b hb
    · next hge =>
      have hfuel : l.length < walkLimit :=
        (lt_succ_self _).trans (length_lt_walkLimit hnodup)
      obtain ⟨pre, c, post, heq, hplace, hpre, hc, hpost⟩ :=
        place_eq hpath.2 (Nat.le_of_not_lt hge) hfuel
      rw [heq] at hsorted hpath hnodup ht
      rw [hplace, heq]
      have hperm : (pre ++ c :: t :: post).Perm (t :: (pre ++ c :: post)) :=
        (List.Perm.append_left pre (List.Perm.swap t c post)).trans perm_middle
      refine ⟨_, pre ++ c :: t :: post, rfl, ⟨?_, ?_, ?_⟩, hperm, rfl⟩
      · exact hhead ▸ hpath.insert_after hnodup ht
      · exact hperm.nodup_iff.mpr (nodup_cons.mpr ⟨ht, hnodup⟩)
      · obtain ⟨hs, hs', hcross⟩ := pairwise_append.mp hsorted
        obtain ⟨hcpost, hspost⟩ := pairwise_cons.mp hs'
        have hlater := lt_of_lt_head hspost hpost
        refine pairwise_append.mpr ⟨hs, pairwise_cons.mpr ⟨?_, pairwise_cons.mpr
          ⟨fun b hb => le_of_lt (hlater b hb), hspost⟩⟩, ?_⟩
        · intro b hb
          rcases mem_cons.mp hb with rfl | hb
          · exact hc
          · exact hcpost b hb
        · intro a ha b hb
          rcases mem_cons.mp hb with rfl | hb
          · exact hcross a ha _ (by simp)
          rcases mem_cons.mp hb with rfl | hb
          · exact hpre a ha
          · exact hcross a ha b (by simp [hb])

/-- A task that is not asleep can be put in. -/
lemma Holds.insert (h : Holds s l) (ht : t ∉ l) (u : ℕ) :
  ∃ s' l', s.insert t u = some s' ∧ Holds s' l' ∧ l'.Perm (t :: l)
    ∧ s'.sleepUntil = update s.sleepUntil t u
  := by
  have hne : ∀ a ∈ l, a ≠ t := by
    rintro a ha rfl
    exact ht ha
  set s₁ : SleepQueue := { s with
    sleepUntil := update s.sleepUntil t u
    sleepNext := update s.sleepNext t none } with hs₁
  have h₁ : Holds s₁ l := h.congr rfl (fun a ha => update_of_ne (hne a ha) ..)
    fun a ha => update_of_ne (hne a ha) ..
  have huntil : s₁.sleepUntil t = u := update_self ..
  have hput := h₁.putIn ht (update_self ..)
  rwa [huntil] at hput

/-! ### Taking a task out -/

/-- The walk along the links arrives at the link to a task of the queue. -/
lemma findLink_eq (link : Option Tid) {pre post : List Tid} {fuel : ℕ}
    (hpath : Path s.sleepNext (s.link link) (pre ++ t :: post) none) (ht : t ∉ pre)
    (hfuel : pre.length < fuel) :
  s.findLink t fuel link = some (pre.getLast?.or link)
  := by
  induction pre generalizing link fuel with
  | nil =>
    obtain ⟨fuel, rfl⟩ := Nat.exists_eq_succ_of_ne_zero (Nat.ne_zero_of_lt hfuel)
    rw [succ_eq_add_one, findLink, hpath.1]
    simp
  | cons a pre ih =>
    obtain ⟨fuel, rfl⟩ := Nat.exists_eq_succ_of_ne_zero (Nat.ne_zero_of_lt hfuel)
    have hat : a ≠ t := by
      rintro rfl
      exact ht (by simp)
    obtain ⟨hlink, hpath⟩ := hpath
    rw [succ_eq_add_one, findLink, hlink]
    simp only
    rw [if_neg hat, ih (some a) hpath (fun hmem => ht (by simp [hmem]))
      (by rw [length_cons] at hfuel; omega), getLast?_cons]
    cases pre.getLast? <;> rfl

/-- The walk ends behind the queue if the task is not there. -/
lemma findLink_of_not_mem (link : Option Tid) {fuel : ℕ}
    (hpath : Path s.sleepNext (s.link link) l none) (ht : t ∉ l) (hfuel : l.length < fuel) :
  ∃ last, s.findLink t fuel link = some last ∧ s.link last = none
  := by
  induction l generalizing link fuel with
  | nil =>
    obtain ⟨fuel, rfl⟩ := Nat.exists_eq_succ_of_ne_zero (Nat.ne_zero_of_lt hfuel)
    have hend : s.link link = none := hpath
    exact ⟨link, by rw [succ_eq_add_one, findLink, hend], hend⟩
  | cons a l ih =>
    obtain ⟨fuel, rfl⟩ := Nat.exists_eq_succ_of_ne_zero (Nat.ne_zero_of_lt hfuel)
    have hat : a ≠ t := by
      rintro rfl
      exact ht (by simp)
    obtain ⟨hlink, hpath⟩ := hpath
    rw [succ_eq_add_one, findLink, hlink]
    simp only
    rw [if_neg hat]
    exact ih (some a) hpath (fun hmem => ht (by simp [hmem]))
      (by rw [length_cons] at hfuel; omega)

/-- A task can be taken out; nothing happens to the queue if the task is not in it. -/
lemma Holds.unlink (h : Holds s l) (t : Tid) :
  ∃ s', s.unlink t = some s' ∧ Holds s' (l.erase t) ∧ s'.sleepUntil = s.sleepUntil
  := by
  obtain ⟨hpath, hnodup, hsorted⟩ := h
  have hfuel := length_lt_walkLimit hnodup
  have hsorted' := hsorted.sublist (erase_sublist (a := t))
  have hnodup' := hnodup.erase t
  by_cases ht : t ∈ l
  · obtain ⟨pre, post, rfl⟩ := append_of_mem ht
    have htpre : t ∉ pre := fun hmem => (nodup_append.mp hnodup).2.2 t hmem t (by simp) rfl
    have hless : pre.length < walkLimit := by
      rw [length_append] at hfuel
      omega
    have hfind := findLink_eq none hpath htpre hless
    rw [erase_append_right _ htpre, erase_cons_head] at *
    rw [unlink, hfind]
    rcases pre.eq_nil_or_concat with rfl | ⟨pre, c, rfl⟩
    · have hhead : s.sleepQueueHead = some t := hpath.1
      simp only [getLast?_nil, none_or, bind_eq_bind, bind_some, link,
        hhead, isSome_some, ite_true, setLink]
      exact ⟨_, rfl, ⟨hpath.remove_head hnodup, hnodup', hsorted'⟩, rfl⟩
    · rw [concat_eq_append, append_assoc, singleton_append] at *
      obtain ⟨m, -, -, hlink, -⟩ := path_append.mp hpath
      simp only [getLast?_append, getLast?_singleton, some_or,
        bind_eq_bind, bind_some, link, hlink, isSome_some, ite_true, setLink]
      exact ⟨_, rfl, ⟨hpath.remove_after hnodup, hnodup', hsorted'⟩, rfl⟩
  · obtain ⟨last, hfind, hend⟩ := findLink_of_not_mem none hpath ht hfuel
    rw [erase_of_not_mem ht, SleepQueue.unlink, hfind]
    refine ⟨_, rfl, ?_, ?_⟩
    all_goals simp only [hend, isSome_none, Bool.false_eq_true, ite_false]
    refine Holds.congr (s := s) ⟨hpath, hnodup, hsorted⟩ rfl ?_ fun _ _ => rfl
    intro a ha
    apply update_of_ne
    rintro rfl
    exact ht ha

/-- The first task can be taken out. -/
lemma Holds.pop (h : Holds s (t :: l)) : Holds (s.pop t) l
  := by
  obtain ⟨hpath, hnodup, hsorted⟩ := h
  refine ⟨hpath.remove_head hnodup, (nodup_cons.mp hnodup).2, ?_⟩
  apply (pairwise_cons.mp hsorted).2.imp_of_mem
  intro a b ha hb hab
  have hne : ∀ c ∈ l, c ≠ t := by
    rintro c hc rfl
    exact (nodup_cons.mp hnodup).1 hc
  simp only [SleepQueue.pop]
  rwa [update_of_ne (hne a ha), update_of_ne (hne b hb)]

end SleepQueue
