import Mathlib.Data.List.Nodup

/-!
# Ledgers

Resources are numbered in the order in which they are handed out.  In a ledger every resource
that counts has one owner until it is given back, and it is given back once.
-/

open List

variable {α : Type*} {own own' : α → ℕ → Prop} {counts : ℕ → Prop} {gone : List ℕ} {limit : ℕ}
  {a : α}

/-- `own` tells the owners, `gone` the resources given back, of the resources below `limit`. -/
structure Ledger (own : α → ℕ → Prop) (counts : ℕ → Prop) (gone : List ℕ) (limit : ℕ) : Prop where
  unique (a b : α) (x : ℕ) : counts x → own a x → own b x → a = b
  kept (a : α) (x : ℕ) : counts x → own a x → x ∉ gone
  once : gone.Nodup
  gone_lt : ∀ x ∈ gone, x < limit
  own_lt (a : α) (x : ℕ) : own a x → x < limit
  found (x : ℕ) : counts x → x < limit → x ∈ gone ∨ ∃ a, own a x

namespace Ledger

section

variable (h : Ledger own counts gone limit)

include h

/-- The owners matter for the resources that count only. -/
lemma congr (hlt : ∀ a x, own' a x → x < limit)
    (hown : ∀ a x, counts x → (own' a x ↔ own a x)) :
  Ledger own' counts gone limit
  where
  unique a b x hx ha hb := h.unique a b x hx ((hown a x hx).mp ha) ((hown b x hx).mp hb)
  kept a x hx ha := h.kept a x hx ((hown a x hx).mp ha)
  once := h.once
  gone_lt := h.gone_lt
  own_lt := hlt
  found x hx hlt := (h.found x hx hlt).imp_right fun ⟨a, ha⟩ => ⟨a, (hown a x hx).mpr ha⟩

/-- An owner gives a resource back. -/
lemma giveBack {x : ℕ} (hx : counts x) (ha : own a x)
    (hlt : ∀ b y, own' b y → y < limit)
    (hown : ∀ b y, counts y → (own' b y ↔ own b y ∧ y ≠ x)) :
  Ledger own' counts (x :: gone) limit
  where
  unique b c y hy hb hc := h.unique b c y hy ((hown b y hy).mp hb).1 ((hown c y hy).mp hc).1
  kept b y hy hb := by
    obtain ⟨hb, hne⟩ := (hown b y hy).mp hb
    rw [mem_cons, not_or]
    exact ⟨hne, h.kept b y hy hb⟩
  once := nodup_cons.mpr ⟨h.kept a x hx ha, h.once⟩
  gone_lt y hy := by
    rcases mem_cons.mp hy with rfl | hy
    · exact h.own_lt a y ha
    · exact h.gone_lt y hy
  own_lt := hlt
  found y hy hlt := by
    by_cases hyx : y = x
    · exact .inl (by simp [hyx])
    · rcases h.found y hy hlt with hgone | ⟨b, hb⟩
      · exact .inl (mem_cons_of_mem x hgone)
      · exact .inr ⟨b, (hown b y hy).mpr ⟨hb, hyx⟩⟩

/-- A new resource is handed out to an owner. -/
lemma handOut (hown : ∀ b y, own' b y → y < limit + 1)
    (hnew : ∀ b, own' b limit ↔ b = a)
    (hold : ∀ b y, counts y → y ≠ limit → (own' b y ↔ own b y)) :
  Ledger own' counts gone (limit + 1)
  where
  unique b c y hy hb hc := by
    by_cases hyl : y = limit
    · subst hyl
      rw [(hnew b).mp hb, (hnew c).mp hc]
    · exact h.unique b c y hy ((hold b y hy hyl).mp hb) ((hold c y hy hyl).mp hc)
  kept b y hy hb := by
    by_cases hyl : y = limit
    · subst hyl
      exact fun hgone => Nat.lt_irrefl _ (h.gone_lt y hgone)
    · exact h.kept b y hy ((hold b y hy hyl).mp hb)
  once := h.once
  gone_lt y hy := Nat.lt_succ_of_lt (h.gone_lt y hy)
  own_lt := hown
  found y hy hlt := by
    by_cases hyl : y = limit
    · subst hyl
      exact .inr ⟨a, (hnew a).mpr rfl⟩
    · rcases h.found y hy (by omega) with hgone | ⟨b, hb⟩
      · exact .inl hgone
      · exact .inr ⟨b, (hold b y hy hyl).mpr hb⟩

/-- A new resource is given back at once. -/
lemma waste : Ledger own counts (limit :: gone) (limit + 1)
  where
  unique := h.unique
  kept b y hy hb := by
    rw [mem_cons, not_or]
    exact ⟨Nat.ne_of_lt (h.own_lt b y hb), h.kept b y hy hb⟩
  once := nodup_cons.mpr ⟨fun hgone => Nat.lt_irrefl _ (h.gone_lt limit hgone), h.once⟩
  gone_lt y hy := by
    rcases mem_cons.mp hy with rfl | hy
    · exact Nat.lt_succ_self y
    · exact Nat.lt_succ_of_lt (h.gone_lt y hy)
  own_lt b y hb := Nat.lt_succ_of_lt (h.own_lt b y hb)
  found y hy hlt := by
    by_cases hyl : y = limit
    · exact .inl (by simp [hyl])
    · exact (h.found y hy (by omega)).imp_left (mem_cons_of_mem limit)

end

end Ledger
