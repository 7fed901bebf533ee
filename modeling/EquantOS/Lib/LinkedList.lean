import Mathlib.Data.List.Nodup

/-!
# Doubly linked lists

A doubly linked list is given by two partial maps `next` and `prev` on the nodes and a
head.  `Seg next prev b h l e f` states that following `next` from `h` visits exactly the
nodes of `l`, in order, and arrives at `f`; that the `prev` link of the first node is
`b`; and that `e` is the node before `f`.  `Linked next prev head l` is the special case
of a whole list, and `Queue` that of a list whose tail is known as well.  Segments are
closed under concatenation, and a link can be redirected at either end, which is what
insertion at the head or at the tail and removal of a node amount to.
-/

open Function List Option

namespace LinkedList

variable {α : Type*}

/-- The nodes `l` form a doubly linked segment entered from `b` at `h`, and left from `e`
at `f`. -/
def Seg (next prev : α → Option α) : Option α → Option α → List α → Option α → Option α → Prop
  | b, h, [], e, f => h = f ∧ b = e
  | b, h, a :: l, e, f => h = some a ∧ prev a = b ∧ Seg next prev (some a) (next a) l e f

/-- The nodes `l` form a doubly linked list with the given head. -/
def Linked (next prev : α → Option α) (head : Option α) (l : List α) : Prop :=
  ∃ e, Seg next prev none head l e none

variable {next prev next' prev' : α → Option α}

lemma linked_nil :
  Linked next prev none []
  := ⟨none, rfl, rfl⟩

variable {l l' : List α} {a : α} {b e f h head head' tail v : Option α}

/-- A list is empty when its head is. -/
lemma Linked.eq_nil (h : Linked next prev none l) : l = []
  := by
  obtain ⟨e, h⟩ := h
  cases l with
  | nil => rfl
  | cons a l => cases h.1

/-- The head of a non-empty list is its first node. -/
lemma Linked.head_mem (h : Linked next prev (some a) l) : a ∈ l
  := by
  obtain ⟨e, h⟩ := h
  cases l with
  | nil => cases h.1
  | cons b l =>
    obtain ⟨hab, -⟩ := h
    simp [some.inj hab]

/-- A segment depends only on the links of its own nodes. -/
lemma Seg.congr (hl : Seg next prev b h l e f)
    (hn : ∀ a ∈ l, next' a = next a) (hp : ∀ a ∈ l, prev' a = prev a) :
  Seg next' prev' b h l e f
  := by
  induction l generalizing b h with
  | nil => exact hl
  | cons a l ih =>
    obtain ⟨rfl, hb, hl⟩ := hl
    refine ⟨rfl, ?_, ?_⟩
    · rw [hp a (by simp), hb]
    rw [hn a (by simp)]
    apply ih hl
    · intro c hc
      apply hn c (by simp [hc])
    · intro c hc
      apply hp c (by simp [hc])

/-- A list depends only on the links of its own nodes. -/
lemma Linked.congr (hl : Linked next prev head l)
    (hn : ∀ a ∈ l, next' a = next a) (hp : ∀ a ∈ l, prev' a = prev a) :
  Linked next' prev' head l
  := by
  obtain ⟨e, hl⟩ := hl
  use e
  apply hl.congr hn hp

lemma seg_append :
  Seg next prev b h (l ++ l') e f
    ↔ ∃ m k, Seg next prev b h l m k ∧ Seg next prev m k l' e f
  := by
  induction l generalizing b h with
  | nil => simp [Seg]
  | cons a l ih => simp [Seg, ih, and_assoc]

/-- The last node of a segment is one of its nodes, or the node it is entered from. -/
lemma Seg.last_mem (hl : Seg next prev b h l e f) :
  e = b ∧ l = [] ∨ ∃ a ∈ l, e = some a
  := by
  induction l generalizing b h with
  | nil => exact .inl ⟨hl.2.symm, rfl⟩
  | cons a l ih =>
    right
    obtain ⟨-, -, hl⟩ := hl
    rcases ih hl with ⟨he, -⟩ | ⟨c, hc, he⟩
    · exact ⟨a, by simp, he⟩
    · exact ⟨c, by simp [hc], he⟩

/-- The node before a node of a list is a node of the list. -/
lemma Linked.prev_mem {q : α} (hl : Linked next prev head l) (ha : a ∈ l) (hq : prev a = some q) :
  q ∈ l
  := by
  obtain ⟨s, t, rfl⟩ := append_of_mem ha
  obtain ⟨e, hl⟩ := hl
  obtain ⟨m, k, hs, -, hm, -⟩ := seg_append.mp hl
  rcases hs.last_mem with ⟨h, -⟩ | ⟨c, hc, h⟩
  · simp [hm, h] at hq
  · rw [hm, h] at hq
    simp [← some.inj hq, hc]

/-- The node after a node of a list is a node of the list. -/
lemma Linked.next_mem {q : α} (hl : Linked next prev head l) (ha : a ∈ l) (hq : next a = some q) :
  q ∈ l
  := by
  obtain ⟨s, t, rfl⟩ := append_of_mem ha
  obtain ⟨e, hl⟩ := hl
  obtain ⟨m, k, -, -, -, ht⟩ := seg_append.mp hl
  cases t with
  | nil => simp [hq, Seg] at ht
  | cons r t =>
    obtain ⟨hr, -⟩ := ht
    rw [hq] at hr
    simp [some.inj hr]

/-- No node of a list without repetition is before itself. -/
lemma Linked.prev_ne_self (hl : Linked next prev head l) (ha : a ∈ l) (hd : l.Nodup) :
  prev a ≠ some a
  := by
  obtain ⟨s, t, rfl⟩ := append_of_mem ha
  obtain ⟨e, hl⟩ := hl
  obtain ⟨m, k, hs, -, hm, -⟩ := seg_append.mp hl
  rw [hm]
  rintro rfl
  rcases hs.last_mem with ⟨h, -⟩ | ⟨c, hc, h⟩
  · cases h
  · rw [← some.inj h] at hc
    exact (nodup_append.mp hd).2.2 a hc a (by simp) rfl

/-- The nodes `l` form a doubly linked list with the given head and tail. -/
def Queue (next prev : α → Option α) (head tail : Option α) (l : List α) : Prop :=
  Seg next prev none head l tail none

lemma queue_nil : Queue next prev none none [] := ⟨rfl, rfl⟩

lemma Queue.linked (h : Queue next prev head tail l) :
  Linked next prev head l
  := ⟨tail, h⟩

/-- The head of a queue is its first node. -/
lemma Queue.head_eq (h : Queue next prev head tail l) : head = l.head?
  := by
  cases l with
  | nil => exact h.1
  | cons a l => exact h.1

/-- A segment is left from its last node. -/
lemma Seg.last_eq (hl : Seg next prev b h l e f) : e = l.getLast?.or b
  := by
  induction l generalizing b h with
  | nil =>
    obtain ⟨-, rfl⟩ := hl
    rfl
  | cons a l ih =>
    obtain ⟨-, -, hl⟩ := hl
    rw [ih hl, getLast?_cons]
    cases l.getLast? <;> rfl

/-- The tail of a queue is its last node. -/
lemma Queue.tail_eq (h : Queue next prev head tail l) : tail = l.getLast?
  := by
  rw [h.last_eq, or_none]

/-- The link back from a node of a queue leads to the last node before it. -/
lemma Queue.prev_eq (h : Queue next prev head tail (l ++ a :: l')) :
  prev a = l.getLast?
  := by
  obtain ⟨m, k, hl, rfl, hm, -⟩ := seg_append.mp h
  rw [hm, hl.last_eq, or_none]

/-- A node of a queue with no node before it is the head. -/
lemma Queue.head_of_prev_eq_none (h : Queue next prev head tail l) (ha : a ∈ l) (hp : prev a = none) :
  head = some a
  := by
  obtain ⟨s, t, rfl⟩ := append_of_mem ha
  obtain ⟨m, k, hs, rfl, hm, -⟩ := seg_append.mp h
  rw [hp] at hm
  subst hm
  rcases hs.last_mem with ⟨-, rfl⟩ | ⟨c, -, hc⟩
  · exact hs.1
  · cases hc

variable [DecidableEq α]

/-- The map `next` with the link of the node before redirected, if there is one. -/
def redirect (next : α → Option α) : Option α → Option α → α → Option α
  | none, _ => next
  | some a, v => Function.update next a v

lemma redirect_of_ne
    {m : Option α} (h : m ≠ some a) :
  redirect next m v a = next a
  := by
  cases m with
  | none => rfl
  | some c =>
    apply update_of_ne
    rintro rfl
    exact h rfl

/-- Where a segment is left can be changed: by redirecting `next` at its last node, or, if
it is empty, where it is entered. -/
lemma Seg.redirect_end (hl : Seg next prev none h l e f) (hd : l.Nodup) :
  Seg (redirect next e v) prev none (if e = none then v else h) l e v
  := by
  suffices H : ∀ b : Option α, (∀ a ∈ l, b ≠ some a) → Seg next prev b h l e f →
      Seg (redirect next e v) prev b (if e = b then v else h) l e v from
    H none (by simp) hl
  clear hl
  induction l generalizing h with
  | nil =>
    rintro b - ⟨-, rfl⟩
    simp [Seg]
  | cons a l ih =>
    rintro b hb ⟨rfl, hpa, hl⟩
    obtain ⟨hal, hd⟩ := nodup_cons.mp hd
    have hfresh : ∀ c ∈ l, some a ≠ some c := by
      rintro c hc h
      exact hal (some.inj h ▸ hc)
    have hrec := ih hd (some a) hfresh hl
    have hne : e ≠ b := by
      rcases hl.last_mem with ⟨rfl, -⟩ | ⟨c, hc, rfl⟩
      · exact (hb a (by simp)).symm
      · exact (hb c (by simp [hc])).symm
    rw [if_neg hne]
    refine ⟨rfl, hpa, ?_⟩
    by_cases hea : e = some a
    · subst hea
      rw [if_pos rfl] at hrec
      rw [redirect, update_self]
      exact hrec
    · rw [if_neg hea] at hrec
      rw [redirect_of_ne hea]
      exact hrec

/-- Where a segment is entered from can be changed by redirecting `prev` at its first
node. -/
lemma Seg.redirect_start (hl : Seg next prev b h l e none) (hd : l.Nodup) :
  ∃ e', Seg next (redirect prev h v) v h l e' none
  := by
  cases l with
  | nil =>
    obtain ⟨rfl, -⟩ := hl
    exact ⟨v, rfl, rfl⟩
  | cons a l =>
    obtain ⟨rfl, -, hl⟩ := hl
    obtain ⟨hal, -⟩ := nodup_cons.mp hd
    refine ⟨e, rfl, update_self .., ?_⟩
    apply hl.congr (fun _ _ => rfl)
    intro c hc
    apply update_of_ne
    rintro rfl
    exact hal hc

section

variable (hl : Linked next prev head l)

include hl

/-- Inserting a new node at the head. -/
lemma Linked.insert_head (ha : a ∉ l) (hd : l.Nodup) :
  Linked (update next a head) (redirect (update prev a none) head (some a))
    (some a) (a :: l)
  := by
  obtain ⟨e, hl⟩ := hl
  have hne : head ≠ some a := by
    rintro rfl
    exact ha (Linked.head_mem ⟨e, hl⟩)
  have hold : Seg (update next a head) (update prev a none)
      none head l e none := by
    apply hl.congr
    · intro c hc
      apply update_of_ne
      rintro rfl
      exact ha hc
    · intro c hc
      apply update_of_ne
      rintro rfl
      exact ha hc
  obtain ⟨e', hnew⟩ := hold.redirect_start (v := some a) hd
  refine ⟨e', rfl, ?_, ?_⟩
  · rw [redirect_of_ne hne, update_self]
  · rw [update_self]
    exact hnew

/-- Removing a node: the node before it is linked to the node after it, and the links of
the removed node are cleared. -/
lemma Linked.remove (ha : a ∈ l) (hd : l.Nodup) :
  Linked (update (redirect next (prev a) (next a)) a none)
    (update (redirect prev (next a) (prev a)) a none)
    (if prev a = none then next a else head) (l.erase a)
  := by
  obtain ⟨s, t, rfl⟩ := append_of_mem ha
  obtain ⟨e, hl⟩ := hl
  obtain ⟨m, k, hs, rfl, hm, ht⟩ := seg_append.mp hl
  obtain ⟨hsd, htd, hdisj⟩ := nodup_append.mp hd
  obtain ⟨hat, htd⟩ := nodup_cons.mp htd
  have has : a ∉ s := fun h => hdisj a h a (by simp) rfl
  have herase : (s ++ a :: t).erase a = s ++ t := by
    rw [erase_append_right _ has, erase_cons_head]
  rw [herase, hm]
  -- The links before the removed node, redirected past it.
  have hs' := hs.redirect_end (v := next a) hsd
  -- The links after it, redirected to the node before it.
  obtain ⟨e', ht'⟩ := ht.redirect_start (v := m) htd
  refine ⟨e', seg_append.mpr ⟨m, next a, ?_, ?_⟩⟩
  · apply hs'.congr
    · intro c hc
      apply update_of_ne
      rintro rfl
      exact has hc
    · intro c hc
      rw [update_of_ne (by rintro rfl; exact has hc)]
      apply redirect_of_ne
      intro hk
      rcases t with _ | ⟨r, t⟩
      · have := ht.1
        simp [this] at hk
      · obtain ⟨hr, -⟩ := ht
        rw [hr] at hk
        exact hdisj c hc r (by simp) (some.inj hk).symm
  · apply ht'.congr
    · intro c hc
      rw [update_of_ne (by rintro rfl; exact hat hc)]
      apply redirect_of_ne
      intro hk
      rcases hs.last_mem with ⟨h, -⟩ | ⟨q, hq, h⟩
      · rw [h] at hk
        cases hk
      · rw [h] at hk
        exact hdisj q hq c (by simp [hc]) (some.inj hk)
    · intro c hc
      apply update_of_ne
      rintro rfl
      exact hat hc

/-- Inserting a node into one list leaves a list without common nodes as it is. -/
lemma Linked.insert_other (hl' : Linked next prev head' l') (ha : a ∉ l') (hd : l.Disjoint l') :
  Linked (update next a head) (redirect (update prev a none) head (some a))
    head' l'
  := by
  have hne : ∀ c ∈ l', c ≠ a := by
    rintro c hc rfl
    exact ha hc
  apply hl'.congr
  · intro c hc
    apply update_of_ne (hne c hc)
  · intro c hc
    rw [redirect_of_ne, update_of_ne (hne c hc)]
    rintro rfl
    apply hd hl.head_mem hc

/-- Removing a node from one list leaves a queue without common nodes as it is. -/
lemma Linked.remove_queue
    {tail' : Option α} (hl' : Queue next prev head' tail' l') (ha : a ∈ l) (hd : l.Disjoint l') :
  Queue (update (redirect next (prev a) (next a)) a none)
    (update (redirect prev (next a) (prev a)) a none) head' tail' l'
  := by
  have hne : ∀ c ∈ l', c ≠ a := by
    rintro c hc rfl
    exact hd ha hc
  apply hl'.congr
  · intro c hc
    rw [update_of_ne (hne c hc)]
    apply redirect_of_ne
    intro h
    apply hd (hl.prev_mem ha h) hc
  · intro c hc
    rw [update_of_ne (hne c hc)]
    apply redirect_of_ne
    intro h
    apply hd (hl.next_mem ha h) hc

lemma Linked.remove_other (hl' : Linked next prev head' l') (ha : a ∈ l) (hd : l.Disjoint l') :
  Linked (update (redirect next (prev a) (next a)) a none)
    (update (redirect prev (next a) (prev a)) a none) head' l'
  := by
  obtain ⟨tail', hl'⟩ := hl'
  exact ⟨tail', hl.remove_queue hl' ha hd⟩

end

section

variable {head tail : Option α} {a : α} {l : List α}

/-- Inserting a new node at the tail. -/
lemma Queue.insert_tail
    (hl : Queue next prev head tail l)
    (ha : a ∉ l) (hd : l.Nodup) :
  Queue (redirect (update next a none) tail (some a)) (update prev a tail)
    (if tail = none then some a else head) (some a) (l ++ [a])
  := by
  have hne : ∀ c ∈ l, c ≠ a := by
    rintro c hc rfl
    exact ha hc
  have hold : Seg (update next a none) (update prev a tail) none head l tail
      none := by
    apply hl.congr
    · intro c hc
      apply update_of_ne (hne c hc)
    · intro c hc
      apply update_of_ne (hne c hc)
  have hta : tail ≠ some a := by
    rcases hl.last_mem with ⟨rfl, -⟩ | ⟨c, hc, rfl⟩
    · exact some_ne_none a |>.symm
    · intro h
      exact hne c hc (some.inj h)
  refine seg_append.mpr ⟨tail, some a, hold.redirect_end hd, rfl, update_self .., ?_⟩
  rw [redirect_of_ne hta, update_self]
  exact ⟨rfl, rfl⟩

/-- Inserting a new node at the head, with the tail. -/
lemma Queue.insert_head
    (hl : Queue next prev head tail l)
    (ha : a ∉ l) (hd : l.Nodup) :
  Queue (update next a head) (redirect (update prev a none) head (some a))
    (some a) (if head = none then some a else tail) (a :: l)
  := by
  obtain ⟨e, hnew⟩ := hl.linked.insert_head ha hd
  have htail : e = if head = none then some a else tail := by
    rw [Queue.tail_eq hnew, hl.head_eq, hl.tail_eq]
    cases l with
    | nil => rfl
    | cons c l => rw [getLast?_cons_cons, if_neg nofun]
  rw [← htail]
  exact hnew

/-- Removing a node, with the tail. -/
lemma Queue.remove
    (hl : Queue next prev head tail l)
    (ha : a ∈ l) (hd : l.Nodup) :
  Queue (update (redirect next (prev a) (next a)) a none)
    (update (redirect prev (next a) (prev a)) a none)
    (if prev a = none then next a else head) (if next a = none then prev a else tail) (l.erase a)
  := by
  obtain ⟨e, hrem⟩ := hl.linked.remove ha hd
  -- the tail of what is left is the tail, or the node before if the tail has gone
  have htail : e = if next a = none then prev a else tail := by
    rw [Queue.tail_eq hrem]
    obtain ⟨s, t, rfl⟩ := append_of_mem ha
    obtain ⟨m, k, hs, rfl, hm, ht⟩ := seg_append.mp hl
    have has : a ∉ s := fun h => (nodup_append.mp hd).2.2 a h a (by simp) rfl
    rw [erase_append_right _ has, erase_cons_head, hm]
    cases t with
    | nil =>
      rw [ht.1, append_nil]
      have hfirst : s.getLast? = m := by
        rcases s.eq_nil_or_concat with rfl | ⟨s, c, rfl⟩
        · exact hs.2
        · obtain ⟨n, j, -, -, -, hend⟩ := seg_append.mp (concat_eq_append ▸ hs)
          rw [concat_eq_append, getLast?_append]
          exact hend.2
      exact hfirst
    | cons r t =>
      rw [if_neg (by rw [ht.1]; exact some_ne_none r), Queue.tail_eq hl,
        getLast?_append_cons, getLast?_append_cons, getLast?_cons_cons]
  rw [← htail]
  exact hrem

end

section

variable {tail' : Option α} (hl : Queue next prev head tail l) (hl' : Queue next prev head' tail' l')

include hl hl'

/-- Inserting a node at the tail of one queue leaves a queue without common nodes as it is. -/
lemma Queue.insert_tail_other
    (ha : a ∉ l') (hd : l.Disjoint l') :
  Queue (redirect (update next a none) tail (some a)) (update prev a tail)
    head' tail' l'
  := by
  have hne : ∀ c ∈ l', c ≠ a := by
    rintro c hc rfl
    exact ha hc
  apply hl'.congr
  · intro c hc
    rw [redirect_of_ne, update_of_ne (hne c hc)]
    intro htail
    rcases hl.last_mem with ⟨h, -⟩ | ⟨q, hq, h⟩
    · rw [h] at htail
      cases htail
    · rw [h] at htail
      exact hd hq (some.inj htail ▸ hc)
  · intro c hc
    apply update_of_ne (hne c hc)

end

end LinkedList
