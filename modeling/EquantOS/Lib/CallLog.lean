import Mathlib.Order.Nat
import Mathlib.Data.List.Basic

/-!
# Which call has put what

A log of what the calls of some tasks have put into a buffer, each element with the call that put it
there.  A task is in one call at a time; a call is a task and the number of calls of this task that have
returned before.  `Account` relates the log to what the calls that have returned say about themselves.
-/

namespace CallLog

open Function List

variable {α ρ : Type*}

/-- What a call has put. -/
def ofCall (log : List ((ℕ × ℕ) × α)) (call : ℕ × ℕ) : List α :=
  (log.filter (·.1 = call)).map Prod.snd

variable {log : List ((ℕ × ℕ) × α)} {call call' : ℕ × ℕ} {a : α}

lemma ofCall_append_self : ofCall (log ++ [(call, a)]) call = ofCall log call ++ [a]
  := by
  simp [ofCall]

lemma ofCall_append_of_ne (h : call' ≠ call) : ofCall (log ++ [(call', a)]) call = ofCall log call
  := by
  simp [ofCall, h]

/-- The present call of a task has put `cur`, a later one nothing.  The calls before it are those that
have returned, and what they put is right. -/
structure Account (callOf : ρ → ℕ × ℕ) (right : ρ → List α → Prop) (log : List ((ℕ × ℕ) × α))
    (calls : ℕ → ℕ) (cur : ℕ → List α) (returns : List ρ) : Prop where
  current (t : ℕ) : ofCall log (t, calls t) = cur t
  later {t k : ℕ} : calls t < k → ofCall log (t, k) = []
  before {r : ρ} : r ∈ returns → (callOf r).2 < calls (callOf r).1
  returned {t k : ℕ} : k < calls t → ∃ r ∈ returns, callOf r = (t, k)
  right {r : ρ} : r ∈ returns → right r (ofCall log (callOf r))

variable {callOf : ρ → ℕ × ℕ} {right : ρ → List α → Prop} {calls : ℕ → ℕ} {cur : ℕ → List α}
  {returns : List ρ} {r : ρ} {t : ℕ}

/-- A call that has put something has returned or is the present one of its task. -/
lemma Account.of_ne_nil (h : Account callOf right log calls cur returns) (hput : ofCall log call ≠ []) :
  call ∈ returns.map callOf ∨ call = (call.1, calls call.1)
  := by
  obtain ⟨t, k⟩ := call
  rcases Nat.lt_trichotomy k (calls t) with hk | hk | hk
  · exact .inl (mem_map.mpr (h.returned hk))
  · exact .inr (congrArg (t, ·) hk)
  · exact absurd (h.later hk) hput

/-- The present call of a task puts an element. -/
lemma Account.put (h : Account callOf right log calls cur returns) (t : ℕ) (a : α) :
  Account callOf right (log ++ [((t, calls t), a)]) calls (update cur t (cur t ++ [a])) returns
  := by
  have hother {t' k : ℕ} (hk : t' = t → k ≠ calls t) :
      ofCall (log ++ [((t, calls t), a)]) (t', k) = ofCall log (t', k) := by
    apply ofCall_append_of_ne
    intro heq
    obtain ⟨rfl, rfl⟩ := Prod.mk.inj heq
    exact hk rfl rfl
  refine ⟨fun t' => ?_, fun {t' k} hk => ?_, h.before, h.returned, fun {r} hr => ?_⟩
  · by_cases ht : t' = t
    · subst ht
      rw [ofCall_append_self, h.current, update_self]
    · rw [hother (absurd · ht), h.current, update_of_ne ht]
  · rw [hother (by rintro rfl; exact hk.ne'), h.later hk]
  · have hbefore := h.before hr
    rw [hother (by intro heq; rw [← heq]; exact hbefore.ne)]
    exact h.right hr

/-- The present call of a task returns. -/
lemma Account.ret (h : Account callOf right log calls cur returns) (hcall : callOf r = (t, calls t))
    (hr : right r (cur t)) :
  Account callOf right log (update calls t (calls t + 1)) (update cur t []) (r :: returns)
  := by
  have hle (t' : ℕ) : calls t' ≤ update calls t (calls t + 1) t' := by
    by_cases ht : t' = t
    · subst ht
      rw [update_self]
      exact Nat.le_succ _
    · rw [update_of_ne ht]
  refine ⟨fun t' => ?_, fun {t' k} hk => h.later ((hle t').trans_lt hk), ?_, fun {t' k} hk => ?_, ?_⟩
  · by_cases ht : t' = t
    · subst ht
      rw [update_self, update_self, h.later (Nat.lt_succ_self _)]
    · rw [update_of_ne ht, update_of_ne ht, h.current]
  · rintro r' (_ | ⟨_, hmem⟩)
    · rw [hcall, update_self]
      exact Nat.lt_succ_self _
    · exact (h.before hmem).trans_le (hle _)
  · by_cases hnow : (t', k) = (t, calls t)
    · exact ⟨r, mem_cons_self, hcall.trans hnow.symm⟩
    · have hk' : k < calls t' := by
        by_cases ht : t' = t
        · subst ht
          rw [update_self] at hk
          exact Nat.lt_of_le_of_ne (Nat.le_of_lt_succ hk) fun heq => hnow (by rw [heq])
        · rwa [update_of_ne ht] at hk
      obtain ⟨r', hmem, hr'⟩ := h.returned hk'
      exact ⟨r', mem_cons_of_mem _ hmem, hr'⟩
  · rintro r' (_ | ⟨_, hmem⟩)
    · rwa [hcall, h.current]
    · exact h.right hmem

end CallLog
