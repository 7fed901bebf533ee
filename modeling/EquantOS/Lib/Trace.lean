import Mathlib.Control.Monad.Writer

/-!
# Computations with a trace

A computation that logs what it does on its way is a writer of a list.  A property of all
that is logged is found along the computation, one step at a time.
-/

namespace Trace

variable {ε α β : Type}

/-- A computation that logs its accesses. -/
abbrev Traced (ε : Type) := Writer (List ε)

def value (m : Traced ε α) : α := (Id.run (WriterT.run m)).1

def log (m : Traced ε α) : List ε := (Id.run (WriterT.run m)).2

/-- All that a computation logs has a property. -/
def All (P : ε → Prop) (m : Traced ε α) : Prop := ∀ e ∈ log m, P e

@[simp]
lemma value_pure (a : α) : value (pure a : Traced ε α) = a := rfl

@[simp]
lemma value_bind (m : Traced ε α) (f : α → Traced ε β) :
  value (m >>= f) = value (f (value m))
  := rfl

lemma value_ite {c : Prop} [Decidable c] (m m' : Traced ε α) :
  value (if c then m else m') = if c then value m else value m'
  := apply_ite value c m m'

variable {P : ε → Prop}

@[simp]
lemma all_pure (a : α) : All P (pure a : Traced ε α)
  := by
  intro e he
  cases he

@[simp]
lemma all_bind (m : Traced ε α) (f : α → Traced ε β) :
  All P (m >>= f) ↔ All P m ∧ All P (f (value m))
  := by
  have hlog : log (m >>= f) = log m ++ log (f (value m)) := rfl
  simp only [All, hlog, List.forall_mem_append]

@[simp]
lemma all_tell (l : List ε) : All P (tell l : Traced ε PUnit) ↔ ∀ e ∈ l, P e := Iff.rfl

lemma all_ite {c : Prop} [Decidable c] (m m' : Traced ε α) :
  All P (if c then m else m') ↔ (c → All P m) ∧ (¬ c → All P m')
  := by
  split <;> simp [*]

end Trace
