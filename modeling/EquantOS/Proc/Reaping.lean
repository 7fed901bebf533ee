import EquantOS.Proc.Apart

/-!
# Reaping orphans

`clone` and `kill` start with `reap_orphan_zombies`, which releases zombies that nobody can wait
for.  Nothing happens to the other tasks.
-/

open Function Option

namespace Kernel

open Sched

variable {k k' : Kernel} {t : Tid}

/-- From `k` to `k'` zombies are reaped. -/
structure Reaps (k k' : Kernel) : Prop where
  guards : Guards (fun _ => True) k.toSched k'.toSched
  state : k'.state = k.state
  current : k'.currentTask = k.currentTask
  idle : k'.idleTask = k.idleTask
  futexAddr : k'.futexAddr = k.futexAddr
  processes : k'.processes = k.processes
  taskList : k'.taskList.Sublist k.taskList
  processCount : k'.processCount = k.processCount
  process (t : Tid) (p : ℕ) : k'.process t = some p → k.process t = some p
  live (t : Tid) : k.state t ≠ .zombie →
    (t ∈ k.taskList → t ∈ k'.taskList) ∧ k'.process t = k.process t
  caller (t : Tid) : k.currentTask = some t → k'.process t = k.process t

lemma Reaps.refl (h : InOrder k.toSched) : Reaps k k
  := ⟨(Tends.refl h).toGuards, rfl, rfl, rfl, rfl, rfl, List.Sublist.refl _, rfl, fun _ _ h => h,
    fun _ _ => ⟨fun h => h, rfl⟩,
    fun _ _ => rfl⟩

lemma Reaps.trans {k'' : Kernel} (h : Reaps k k') (h' : Reaps k' k'') : Reaps k k''
  where
  guards := h.guards.trans h'.guards
  state := h'.state.trans h.state
  current := h'.current.trans h.current
  idle := h'.idle.trans h.idle
  futexAddr := h'.futexAddr.trans h.futexAddr
  processes := h'.processes.trans h.processes
  taskList := h'.taskList.trans h.taskList
  processCount := h'.processCount.trans h.processCount
  process t p ht := h.process t p (h'.process t p ht)
  live t ht := by
    have hlive := h.live t ht
    have hlive' := h'.live t (by rwa [h.state])
    exact ⟨fun hmem => hlive'.1 (hlive.1 hmem), hlive'.2.trans hlive.2⟩
  caller t ht := (h'.caller t (h.current.trans ht)).trans (h.caller t ht)

/-- `release_task` of an orphan. -/
lemma reaps_releaseTask (h : InOrder k.toSched) (ht : k.orphan t) :
  ∃ k', k.releaseTask t = some k' ∧ Reaps k k'
  := by
  have hzombie : k.state t = .zombie ∧ k.currentTask ≠ some t := by
    simp only [orphan, Bool.and_eq_true, beq_iff_eq, bne_iff_ne] at ht
    exact ⟨ht.1.1.2, ht.1.1.1⟩
  have hfirst : k.freeSiblings t = some k := by
    rw [freeSiblings, siblings_of_orphan ht]
    split <;> rfl
  obtain ⟨s, hs, htends, hstate, -⟩ := tends_forget (T := fun _ => True) h t
  have hfree : k.freeTaskStruct t
      = some { k.withSched s with taskList := k.taskList.erase t } := by
    rw [freeTaskStruct, hs]
    rfl
  have hmem : ∀ c ≠ t, c ∈ k.taskList → c ∈ k.taskList.erase t := fun c hc hmem =>
    (List.mem_erase_of_ne hc).mpr hmem
  have hreaps : ∀ destroyed, Reaps k { k.withSched s with
      taskList := k.taskList.erase t, destroyed := destroyed
      process := update k.process t none } := by
    intro destroyed
    refine ⟨htends.toGuards, hstate, htends.current, htends.idle, rfl, rfl, List.erase_sublist, rfl,
      ?_, ?_, ?_⟩
    · intro c p (hc : update k.process t none c = some p)
      by_cases hct : c = t
      · subst hct
        simp at hc
      · rwa [update_of_ne hct] at hc
    · intro c hc
      have hct : c ≠ t := by
        rintro rfl
        exact hc hzombie.1
      exact ⟨hmem c hct, update_of_ne hct ..⟩
    · intro c hc
      apply update_of_ne
      rintro rfl
      exact hzombie.2 hc
  simp only [releaseTask, hfirst, bind_eq_bind, bind_some, hfree]
  refine ⟨_, rfl, ?_⟩
  rw [dropProcess]
  cases hp : k.process t with
  | none =>
    have hsame : ({ k.withSched s with taskList := k.taskList.erase t } : Kernel).process t = none :=
      hp
    rw [hsame]
    have := hreaps k.destroyed
    rw [← hp, update_eq_self] at this
    exact this
  | some p =>
    have hsame : ({ k.withSched s with taskList := k.taskList.erase t } : Kernel).process t
        = some p := hp
    rw [hsame]
    simp only
    split
    · exact hreaps _
    · exact hreaps k.destroyed

lemma reaps_reapOrphanZombies (h : InOrder k.toSched) :
  ∃ k', k.reapOrphanZombies = some k' ∧ Reaps k k'
  := by
  suffices hloop : ∀ (fuel : ℕ) (k : Kernel), InOrder k.toSched →
      ∃ k', reapLoop fuel k = some k' ∧ Reaps k k' from hloop _ k h
  intro fuel
  induction fuel with
  | zero => exact fun k h => ⟨k, rfl, Reaps.refl h⟩
  | succ fuel ih =>
    intro k h
    rw [reapLoop]
    cases hfind : k.taskList.find? k.orphan with
    | none => exact ⟨k, rfl, Reaps.refl h⟩
    | some t =>
      obtain ⟨k₁, hk₁, hr₁⟩ := reaps_releaseTask h (List.find?_some hfind)
      obtain ⟨k₂, hk₂, hr₂⟩ := ih k₁ hr₁.guards.order
      simp only [hk₁, bind_eq_bind, bind_some]
      exact ⟨k₂, hk₂, hr₁.trans hr₂⟩

lemma Reaps.matchesPid (h : Reaps k k') (pid : ℤ) (p : Process) :
  k'.matchesPid pid p = k.matchesPid pid p
  := by
  have hself : k'.currentTask.bind k'.processOf = k.currentTask.bind k.processOf := by
    rw [h.current]
    cases hc : k.currentTask with
    | none => rfl
    | some c =>
      rw [bind_some, bind_some, processOf, processOf, h.caller c hc, h.processes]
  rw [Kernel.matchesPid, Kernel.matchesPid, hself]

end Kernel
