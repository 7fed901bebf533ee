import EquantOS.Proc.Spaces

/-!
# Calls and address spaces

The calls that create, replace and destroy address spaces keep the accounts in order, if a
process that gives its address space up is the only one that uses it.
-/

open Function List Option

namespace Kernel

variable {k k' : Kernel} {t child : Tid} {p : ℕ}

/-! ### The calls -/

/-- No task that is not a zombie, of another process, uses the address space of process `p`. -/
def Sole (k : Kernel) (p : ℕ) : Prop :=
  ∀ t ∈ k.taskList, k.state t ≠ .zombie → ∀ q, k.process t = some q → q ≠ p →
    (k.processes q).cr3 ≠ (k.processes p).cr3

/-- If the process owns its address space, nobody else uses it. -/
def MayGo (k : Kernel) (p : ℕ) : Prop := (k.processes p).vmShared = false → Sole k p

lemma inUse_eq_false {x : ℕ} (h : ∀ t ∈ k.taskList, k.state t ≠ .zombie →
    ∀ q, k.process t = some q → (k.processes q).cr3 ≠ x) :
  k.inUse x = false
  := by
  rw [inUse, List.any_eq_false]
  intro t ht huse
  rw [Bool.and_eq_true, bne_iff_ne, Option.any_eq_true] at huse
  obtain ⟨hstate, q, hq, hx⟩ := huse
  obtain ⟨r, hr, rfl⟩ := Option.map_eq_some_iff.mp hq
  exact h t ht hstate r hr (beq_iff_eq.mp hx)

lemma ok_releaseTask (h : k.view.Ok) (hrelease : k.releaseTask child = some k')
    (hp : k.process child = some p) (hchild : child ∈ k.taskList)
    (hself : ∀ self ∈ k.taskList, k.currentTask = some self → k.process self ≠ some p)
    (hgo : MayGo k p) :
  k'.view.Ok ∧ k'.state = k.state ∧ k'.currentTask = k.currentTask ∧ k'.processes = k.processes
    ∧ k'.taskList = k.taskList.filter (fun t => k.process t != some p)
    ∧ k'.process = update k.process child none
  := by
  obtain ⟨s, hstate, hcurrent, rfl⟩ := releaseTask_eq hrelease hp h.nodup hself
  set k₁ : Kernel :=
    { k.withSched s with taskList := k.taskList.filter fun t => k.process t != some p } with hk₁
  have hp₁ : k₁.process child = some p := hp
  rw [dropProcess, hp₁]
  simp only
  split
  · next hcr3 =>
    have hnot : k₁.inUse (k₁.processes p).cr3 = false := by
      apply inUse_eq_false
      intro t ht hlive q hq
      obtain ⟨ht, hne⟩ := mem_filter.mp ht
      have hlive' : k.state t ≠ .zombie := hstate ▸ hlive
      refine hgo hcr3.2.2 t ht hlive' q hq ?_
      rintro rfl
      exact bne_iff_ne.mp hne hq
    refine ⟨?_, hstate, hcurrent, rfl, rfl, rfl⟩
    have hok := h.withoutProcess_destroy (v := k.view) (x := (k.processes p).cr3) hp
      ⟨hcr3.1, hcr3.2.1⟩ ⟨⟨child, hchild, hp⟩, hcr3.2.2, rfl⟩
    rw [destroySpace, hnot]
    exact hok
  · next hcr3 =>
    refine ⟨?_, hstate, hcurrent, rfl, rfl, rfl⟩
    apply h.withoutProcess (v := k.view) hp
    rintro x hx ⟨-, hs, rfl⟩
    exact hcr3 ⟨hx.1, hx.2, hs⟩

/-- From `k` to `k'` tasks have left the task list, but not the current one. -/
structure Shrinks (k k' : Kernel) : Prop where
  state : k'.state = k.state
  current : k'.currentTask = k.currentTask
  processes : k'.processes = k.processes
  subset : k'.taskList ⊆ k.taskList
  process (c : Tid) : c ∈ k'.taskList → k'.process c = k.process c
  caller (c : Tid) : k.currentTask = some c → c ∈ k.taskList → c ∈ k'.taskList

lemma Shrinks.refl (k : Kernel) : Shrinks k k
  := ⟨rfl, rfl, rfl, fun _ h => h, fun _ _ => rfl, fun _ _ h => h⟩

lemma Shrinks.trans {k'' : Kernel} (h : Shrinks k k') (h' : Shrinks k' k'') : Shrinks k k''
  where
  state := h'.state.trans h.state
  current := h'.current.trans h.current
  processes := h'.processes.trans h.processes
  subset := fun _ hc => h.subset (h'.subset hc)
  process c hc := (h'.process c hc).trans (h.process c (h'.subset hc))
  caller c hc hmem := h'.caller c (h.current.trans hc) (h.caller c hc hmem)

lemma Shrinks.mayGo (h : Shrinks k k') (hgo : MayGo k p) : MayGo k' p
  := by
  intro hs t ht hlive q hq hqp
  rw [h.processes] at hs ⊢
  rw [h.state] at hlive
  rw [h.process t ht] at hq
  exact hgo hs t (h.subset ht) hlive q hq hqp

def OrphansMayGo (k : Kernel) : Prop :=
  ∀ t ∈ k.taskList, k.orphan t = true → ∀ p, k.process t = some p → MayGo k p

lemma orphan_iff :
  k.orphan t ↔ k.currentTask ≠ some t ∧ k.state t = .zombie
    ∧ (∃ p, k.process t = some p ∧ (k.processes p).parentPid ≠ 0
      ∧ k.processAlive (k.processes p).parentPid = false)
    ∧ ∀ c ∈ k.taskList, c ≠ t → k.process c ≠ k.process t
  := by
  simp only [orphan, processOf, Bool.and_eq_true, bne_iff_ne, beq_iff_eq, Option.any_eq_true,
    Option.map_eq_some_iff, Bool.not_eq_true', List.any_eq_false, not_and, and_assoc]
  constructor
  · rintro ⟨h₁, h₂, ⟨_, ⟨p, hp, rfl⟩, h₃, h₄⟩, h₅⟩
    exact ⟨h₁, h₂, ⟨p, hp, h₃, h₄⟩, h₅⟩
  · rintro ⟨h₁, h₂, ⟨p, hp, h₃, h₄⟩, h₅⟩
    exact ⟨h₁, h₂, ⟨_, ⟨p, hp, rfl⟩, h₃, h₄⟩, h₅⟩

lemma processAlive_iff {pid : ℕ} :
  k.processAlive pid ↔ pid ≠ 0 ∧ ∃ t ∈ k.taskList, k.state t ≠ .zombie
    ∧ ∃ p, k.process t = some p ∧ (k.processes p).pid = pid
  := by
  simp only [processAlive, processOf, Bool.and_eq_true, bne_iff_ne, List.any_eq_true,
    Option.any_eq_true, Option.map_eq_some_iff, beq_iff_eq]
  constructor
  · rintro ⟨h₀, t, ht, ⟨_, ⟨p, hp, rfl⟩, hpid⟩, hlive⟩
    exact ⟨h₀, t, ht, hlive, p, hp, hpid⟩
  · rintro ⟨h₀, t, ht, hlive, p, hp, hpid⟩
    exact ⟨h₀, t, ht, ⟨_, ⟨p, hp, rfl⟩, hpid⟩, hlive⟩

/-- `release_task` of an orphan. -/
lemma ok_release_orphan (h : k.view.Ok) (hgo : OrphansMayGo k) (ht : t ∈ k.taskList)
    (horphan : k.orphan t) (hrelease : k.releaseTask t = some k') :
  k'.view.Ok ∧ Shrinks k k' ∧ OrphansMayGo k'
  := by
  obtain ⟨hcur, hzombie, ⟨p, hp, -⟩, halone⟩ := orphan_iff.mp horphan
  have hothers : ∀ c ∈ k.taskList, c ≠ t → k.process c ≠ some p := by
    intro c hc hct
    rw [← hp]
    exact halone c hc hct
  have hself : ∀ self ∈ k.taskList, k.currentTask = some self → k.process self ≠ some p := by
    intro self hmem hself
    apply hothers self hmem
    rintro rfl
    exact hcur hself
  obtain ⟨hok, hstate, hcurrent, hprocesses, hlist, hprocess⟩ :=
    ok_releaseTask h hrelease hp ht hself (hgo t ht horphan p hp)
  have hmem : ∀ c, c ∈ k'.taskList ↔ c ∈ k.taskList ∧ c ≠ t := by
    intro c
    rw [hlist, mem_filter, bne_iff_ne]
    refine and_congr_right fun hc => ⟨?_, hothers c hc⟩
    rintro hne rfl
    exact hne hp
  have hkept : ∀ c ≠ t, k'.process c = k.process c := by
    intro c hc
    rw [hprocess, update_of_ne hc]
  have hshrinks : Shrinks k k' := by
    refine ⟨hstate, hcurrent, hprocesses, fun c hc => ((hmem c).mp hc).1,
      fun c hc => hkept c ((hmem c).mp hc).2, ?_⟩
    intro c hc hin
    refine (hmem c).mpr ⟨hin, ?_⟩
    rintro rfl
    exact hcur hc
  refine ⟨hok, hshrinks, ?_⟩
  -- who is an orphan now was one before
  intro c hc horphan'
  obtain ⟨hcur', hzombie', ⟨r, hr, hparent, hdead⟩, halone'⟩ := orphan_iff.mp horphan'
  obtain ⟨hin, hct⟩ := (hmem c).mp hc
  have hbefore : k.orphan c := by
    rw [orphan_iff, ← hcurrent, ← hstate, ← hprocesses]
    refine ⟨hcur', hzombie', ⟨r, (hkept c hct).symm.trans hr, hparent, ?_⟩, ?_⟩
    · rw [← Bool.not_eq_true, processAlive_iff]
      rintro ⟨hzero, u, hu, hlive, q, hq, hpid⟩
      have hut : u ≠ t := by
        rintro rfl
        exact hlive hzombie
      rw [← Bool.not_eq_true, processAlive_iff, hstate] at hdead
      refine hdead ⟨hzero, u, (hmem u).mpr ⟨hu, hut⟩, hlive, q, (hkept u hut).trans hq, ?_⟩
      rw [hprocesses] at hpid ⊢
      exact hpid
    · intro u hu huc
      by_cases hut : u = t
      · subst hut
        exact (halone c hin huc.symm).symm
      · rw [← hkept u hut, ← hkept c hct]
        exact halone' u ((hmem u).mpr ⟨hu, hut⟩) huc
  intro q hq
  exact hshrinks.mayGo (hgo c hin hbefore q ((hkept c hct).symm.trans hq))

lemma ok_reapOrphanZombies (h : k.view.Ok) (hgo : OrphansMayGo k)
    (hreap : k.reapOrphanZombies = some k') :
  k'.view.Ok ∧ Shrinks k k'
  := by
  suffices hloop : ∀ (fuel : ℕ) (k k' : Kernel), k.view.Ok → OrphansMayGo k →
      reapLoop fuel k = some k' → k'.view.Ok ∧ Shrinks k k' from hloop _ k k' h hgo hreap
  intro fuel
  induction fuel with
  | zero =>
    intro k k' h _ hreap
    obtain rfl := some.inj hreap
    exact ⟨h, Shrinks.refl k⟩
  | succ fuel ih =>
    intro k k' h hgo hreap
    rw [reapLoop] at hreap
    cases hfind : k.taskList.find? k.orphan with
    | none =>
      rw [hfind] at hreap
      obtain rfl := some.inj hreap
      exact ⟨h, Shrinks.refl k⟩
    | some t =>
      rw [hfind] at hreap
      obtain ⟨k₁, hk₁, hrest⟩ := bind_eq_some_iff.mp hreap
      obtain ⟨h₁, hs₁, hgo₁⟩ := ok_release_orphan h hgo (mem_of_find?_eq_some hfind)
        (find?_some hfind) hk₁
      obtain ⟨h₂, hs₂⟩ := ih k₁ k' h₁ hgo₁ hrest
      exact ⟨h₂, hs₁.trans hs₂⟩

lemma ok_sysKill {closing : ℕ → List Wakeup} {writable : Bool} {pid : ℤ} {sig : ℕ}
    (h : k.view.Ok) (hgo : OrphansMayGo k) (hkill : sysKill closing writable k pid sig = some k') :
  k'.view.Ok
  := by
  obtain ⟨k₁, hk₁, hkill⟩ := bind_eq_some_iff.mp hkill
  obtain ⟨r, hr, hkill⟩ := bind_eq_some_iff.mp hkill
  have h₁ := (ok_reapOrphanZombies h hgo hk₁).1
  rw [← view_killLoop hr] at h₁
  split at hkill
  · rwa [view_sysExit hkill]
  · rwa [← some.inj hkill]

/-- `sys_wait4_handler`: the child that is found may be released. -/
lemma ok_sysWait4 {pid : ℤ} {nohang : Bool} {r : WaitResult × Kernel} (h : k.view.Ok)
    (hgo : ∀ self parent t p, k.currentTask = some self → k.processOf self = some parent →
      k.taskList.find? (k.waitable parent pid) = some t → k.process t = some p → MayGo k p)
    (hwait : k.sysWait4 pid nohang = some r) :
  r.2.view.Ok
  := by
  rw [sysWait4] at hwait
  split at hwait
  · rw [← some.inj hwait]
    exact h
  next self hself =>
  split at hwait
  · rw [← some.inj hwait]
    exact h
  next parent hparent =>
  split at hwait
  · next child hfind =>
    obtain ⟨k₁, hk₁, hr⟩ := bind_eq_some_iff.mp hwait
    rw [← some.inj hr]
    have hmatch := find?_some hfind
    rw [waitable, Bool.and_eq_true, waitMatches, Option.any_eq_true] at hmatch
    obtain ⟨⟨p', hp', hmatch⟩, -⟩ := hmatch
    obtain ⟨p, hp, rfl⟩ := map_eq_some_iff.mp hp'
    rw [Bool.and_eq_true, beq_iff_eq] at hmatch
    have hchild := mem_of_find?_eq_some hfind
    refine (ok_releaseTask h hk₁ hp hchild ?_ (hgo self parent child p hself hparent hfind hp)).1
    -- a process is not its own child
    intro c hc hcur hcp
    obtain rfl := some.inj (hself.symm.trans hcur)
    rw [processOf, hcp] at hparent
    obtain rfl := some.inj hparent
    exact h.no_loop p ⟨child, hchild, hp⟩ hmatch.1
  · split_ifs at hwait
    · rw [← some.inj hwait]
      exact h
    · rw [← some.inj hwait]
      exact h
    · rw [← some.inj hwait]
      exact h

/-- The current task is on the task list. -/
def CallerListed (k : Kernel) : Prop := ∀ self, k.currentTask = some self → self ∈ k.taskList

lemma view_startTask (k : Kernel) (child : Tid) (p priority clearTid : ℕ) :
  (k.startTask child p priority clearTid).view = { k.view with
    taskList := (k.linkTask child).taskList
    process := update k.view.process child (some p) }
  := rfl

lemma linkTask_perm (k : Kernel) (child : Tid) :
  (k.linkTask child).taskList.Perm (child :: k.taskList)
  := by
  rw [linkTask]
  cases k.taskList with
  | nil => exact List.Perm.refl _
  | cons t tasks => exact List.Perm.swap _ _ _

lemma view_copyProcess (k : Kernel) (parent : Process) (vm : Bool) (space : ℕ) :
  (k.copyProcess parent vm space).view = { k.view with
    processes := update k.view.processes k.processCount
      { pid := k.nextPid, parentPid := parent.pid
        cr3 := if vm then parent.cr3 else space, vmShared := vm }
    nextPid := k.nextPid + 1, processCount := k.processCount + 1 }
  := by
  simp only [view, copyProcess, identity_update]
  rfl

/-- `sys_clone_handler`, unless it makes a thread with an address space of its own. -/
lemma ok_sysClone {vm thread : Bool} {clearTid : ℕ} {outcome : CloneOutcome} (h : k.view.Ok)
    (hgo : OrphansMayGo k) (hlisted : CallerListed k)
    (hfresh : ∀ child, outcome = .created child →
      child ∉ k.taskList ∧ (thread → vm))
    (hclone : k.sysClone vm thread clearTid outcome = some k') :
  k'.view.Ok
  := by
  rw [sysClone] at hclone
  split at hclone
  · rw [← some.inj hclone]
    exact h
  next self hself =>
  split at hclone
  · rw [← some.inj hclone]
    exact h
  next p hp =>
  obtain ⟨k₁, hk₁, hclone⟩ := bind_eq_some_iff.mp hclone
  obtain ⟨h₁, hs₁⟩ := ok_reapOrphanZombies h hgo hk₁
  have hself₁ : self ∈ k₁.taskList := hs₁.caller self hself (hlisted self hself)
  have hattached : k₁.view.Attached p := ⟨self, hself₁, (hs₁.process self hself₁).trans hp⟩
  have hnot : k₁.inUse k₁.spaceCount = false := by
    apply inUse_eq_false
    intro t ht _ q hq
    exact Nat.ne_of_lt (h₁.known q ⟨t, ht, hq⟩)
  have hwaste : ({ k₁ with spaceCount := k₁.spaceCount + 1 }.destroySpace
      k₁.spaceCount).view.Ok := by
    have hsame : ({ k₁ with spaceCount := k₁.spaceCount + 1 } : Kernel).inUse k₁.spaceCount
        = false := hnot
    rw [destroySpace, hsame]
    exact h₁.waste
  cases outcome with
  | refused =>
    rw [← some.inj hclone]
    exact h₁
  | noProcess =>
    simp only at hclone
    split_ifs at hclone
    · rw [← some.inj hclone]
      exact h₁
    · rw [← some.inj hclone]
      exact h₁
    · rw [← some.inj hclone]
      exact hwaste
  | noTask =>
    rw [← some.inj hclone]
    cases vm with
    | true =>
      cases thread with
      | true => exact h₁
      | false =>
        simp only [if_true, Bool.false_eq_true, if_false]
        rw [view_copyProcess]
        exact h₁.spareProcess _
    | false =>
      cases thread with
      | true => exact hwaste
      | false =>
        -- the process that is given up has no task
        set k₂ : Kernel := { k₁ with spaceCount := k₁.spaceCount + 1 }.copyProcess
          (k₁.processes p) false k₁.spaceCount with hk₂
        have hcopy : k₂.inUse k₁.spaceCount = false := by
          apply inUse_eq_false
          intro t ht _ q hq
          have hqt : k₁.view.Attached q := ⟨t, ht, hq⟩
          have hsame : k₂.processes q = k₁.processes q :=
            update_of_ne (Nat.ne_of_lt (h₁.numbered q hqt)) ..
          rw [hsame]
          exact Nat.ne_of_lt (h₁.known q hqt)
        have hview : (k₂.destroySpace k₁.spaceCount).view
            = { k₂.view with destroyed := (k₁.spaceCount, false) :: k₁.destroyed } := by
          rw [destroySpace, hcopy]
          rfl
        have hgoal : (k₂.destroySpace k₁.spaceCount).view.Ok := by
          rw [hview, view_copyProcess]
          exact h₁.waste.spareProcess _
        exact hgoal
  | created child =>
    obtain ⟨hchild, hvm⟩ := hfresh child rfl
    have hchild₁ : child ∉ k₁.taskList := fun hmem => hchild (hs₁.subset hmem)
    simp only at hclone
    split at hclone
    · next hthread =>
      obtain rfl := hvm hthread
      rw [← some.inj hclone]
      exact h₁.withThread (linkTask_perm k₁ child) hchild₁ hattached
    · rw [← some.inj hclone, view_startTask, view_copyProcess]
      have hparent : (k₁.processes p).pid < k₁.nextPid := h₁.pid_lt p hattached
      have hperm := linkTask_perm k₁ child
      cases vm with
      | true =>
        exact h₁.withProcess hperm hchild₁ rfl hparent (.inl ⟨rfl, h₁.known p hattached, rfl⟩)
      | false => exact h₁.withProcess hperm hchild₁ rfl hparent (.inr ⟨rfl, rfl, rfl⟩)

/-- `sys_execve_handler` of a process that borrows its address space, or that owns one that
nobody else uses. -/
lemma ok_sysExecve {outcome : ExecOutcome} (h : k.view.Ok) (hlisted : CallerListed k)
    (hgo : outcome = .loaded → ∀ p, k.currentTask.bind k.process = some p →
      (k.processes p).vmShared = false →
      (k.processes p).cr3 ≠ 0 ∧ (k.processes p).cr3 ≠ k.kernelCr3 ∧ Sole k p) :
  (k.sysExecve outcome).view.Ok
  := by
  rw [sysExecve]
  cases hcur : k.currentTask.bind k.process with
  | none => exact h
  | some p =>
    obtain ⟨self, hself, hp⟩ := bind_eq_some_iff.mp hcur
    have hattached : k.view.Attached p := ⟨self, hlisted self hself, hp⟩
    cases outcome with
    | refused => exact h
    | dropped =>
      have hnot : ({ k with spaceCount := k.spaceCount + 1 } : Kernel).inUse k.spaceCount
          = false := by
        apply inUse_eq_false
        intro t ht _ q hq
        exact Nat.ne_of_lt (h.known q ⟨t, ht, hq⟩)
      simp only
      rw [destroySpace, hnot]
      exact h.waste
    | loaded =>
      simp only
      set k₁ : Kernel := ({ k with spaceCount := k.spaceCount + 1 } : Kernel).modProcess p fun q =>
        { q with cr3 := k.spaceCount, vmShared := false } with hk₁
      have hview : k₁.view = k.view.withNewSpace p := by
        rw [view_modProcess]
        rfl
      split
      · next hshared =>
        rw [hview]
        exact h.withNewSpace hattached hshared
      next hshared =>
        have hunshared : (k.processes p).vmShared = false := by simpa using hshared
        obtain ⟨hzero, hkernel, hsole⟩ := hgo rfl p hcur hunshared
        have hnot : k₁.inUse (k.processes p).cr3 = false := by
          apply inUse_eq_false
          intro t ht hlive q hq
          by_cases hqp : q = p
          · subst hqp
            have hself : k₁.processes q = { k.processes q with cr3 := k.spaceCount, vmShared := false } :=
              update_self ..
            rw [hself]
            exact Nat.ne_of_gt (h.known q hattached)
          · have hsame : k₁.processes q = k.processes q := update_of_ne hqp ..
            rw [hsame]
            exact hsole t ht hlive q hq hqp
        have hgoal : (k₁.destroySpace (k.processes p).cr3).view
            = (k.view.withNewSpace p).destroy (k.processes p).cr3 := by
          rw [← hview, destroySpace, hnot]
          rfl
        rw [hgoal]
        exact h.withNewSpace_destroy ⟨hzero, hkernel⟩ ⟨hattached, hunshared, rfl⟩

/-- `oom_killer`, if the process of its victim owns the address space, and neither another task
of it nor another process uses it. -/
lemma ok_oomKiller (h : k.view.Ok)
    (hgo : ∀ t p, k.oomVictim = some t → k.process t = some p → (k.processes p).cr3 ≠ 0 →
      (k.processes p).vmShared = false ∧ (k.processes p).cr3 ≠ k.kernelCr3 ∧ Sole k p
        ∧ ∀ c ∈ k.taskList, c ≠ t → k.process c = some p → k.state c = .zombie) :
  k.oomKiller.view.Ok
  := by
  rw [oomKiller]
  split
  · exact h
  next t ht =>
  split
  · exact h
  next p hp =>
  simp only
  set k₁ : Kernel := k.modProcess p fun q => { q with exitCode := 137, exited := true } with hk₁
  have hview₁ : k₁.view = k.view := view_modProcess_same fun _ => rfl
  set k₂ : Kernel := k₁.withSched ((k₁.stop t .zombie).dequeue t) with hk₂
  have hview₂ : k₂.view = k.view := hview₁
  have hself : k₂.processes p = { k.processes p with exitCode := 137, exited := true } :=
    update_self ..
  split
  · rw [hview₂]
    exact h
  next hzero =>
    rw [hself] at hzero ⊢
    obtain ⟨hunshared, hkernel, hsole, halone⟩ := hgo t p ht hp hzero
    have hcr3 : ∀ q, (k₂.processes q).cr3 = (k.processes q).cr3 := fun q =>
      congrArg Identity.cr3 (congrFun (congrArg View.processes hview₂) q)
    have hnot : k₂.inUse (k.processes p).cr3 = false := by
      apply inUse_eq_false
      intro c hc hlive q hq
      have hct : c ≠ t := by
        rintro rfl
        apply hlive
        rw [hk₂]
        simp only [withSched, Sched.state_dequeue]
        exact update_self ..
      have hlive' : k.state c ≠ .zombie := by
        have hsame : k₂.state c = k.state c := by
          rw [hk₂]
          simp only [withSched, Sched.state_dequeue]
          exact update_of_ne hct ..
        rwa [hsame] at hlive
      rw [hcr3]
      refine hsole c hc hlive' q hq ?_
      rintro rfl
      exact hlive' (halone c hc hct hq)
    have hgoal : ((k₂.destroySpace (k.processes p).cr3).modProcess p fun q =>
        { q with cr3 := 0 }).view = (k.view.withSpace p 0).destroy (k.processes p).cr3 := by
      have hidentity : identity { k₂.processes p with cr3 := 0 }
          = { k.view.processes p with cr3 := 0, vmShared := false } := by
        rw [hself]
        simp only [identity, view, hunshared]
      have hdestroy : (k₂.destroySpace (k.processes p).cr3).view
          = k.view.destroy (k.processes p).cr3 := by
        rw [← hview₂, destroySpace, hnot]
        rfl
      rw [view_modProcess, hdestroy]
      simp only [View.withSpace, ← hidentity]
      rfl
    rw [hgoal]
    exact h.lose ⟨hzero, hkernel⟩ ⟨⟨t, mem_oomVictim ht, hp⟩, hunshared, rfl⟩

/-! ### Runs -/

/-- A call that matters to address spaces; `schedule` is whatever happens to the scheduler
between such calls. -/
inductive LifeCall where
  | clone (vm thread : Bool) (clearTid : ℕ) (outcome : CloneOutcome)
  | execve (outcome : ExecOutcome)
  | exit (closing : ℕ → List Wakeup) (writable : Bool) (code : ℤ)
  | exitGroup (closing : ℕ → List Wakeup) (writable : Bool) (code : ℤ)
  | kill (closing : ℕ → List Wakeup) (writable : Bool) (pid : ℤ) (sig : ℕ)
  | wait4 (pid : ℤ) (nohang : Bool)
  | oomKiller
  | schedule (s : Sched)

def LifeCall.step (k : Kernel) : LifeCall → Option Kernel
  | .clone vm thread clearTid outcome => k.sysClone vm thread clearTid outcome
  | .execve outcome => some (k.sysExecve outcome)
  | .exit closing writable code => sysExit closing writable k code
  | .exitGroup closing writable code => Kernel.exitGroup closing writable k code
  | .kill closing writable pid sig => sysKill closing writable k pid sig
  | .wait4 pid nohang => (k.sysWait4 pid nohang).map Prod.snd
  | .oomKiller => some k.oomKiller
  | .schedule s => some (k.withSched s)

/-- The calls that respect who uses an address space: who calls `clone` or `execve` is on the
task list, and a new task is not; a thread shares the address space; and a process that is
released, calls `execve` or is killed for want of memory does not own an address space that
somebody else uses. -/
def LifeCall.Sound (k : Kernel) : LifeCall → Prop
  | .clone vm thread _ outcome =>
    OrphansMayGo k ∧ CallerListed k
      ∧ ∀ child, outcome = .created child → child ∉ k.taskList ∧ (thread = true → vm = true)
  | .execve outcome =>
    CallerListed k ∧ (outcome = .loaded → ∀ p, k.currentTask.bind k.process = some p →
      (k.processes p).vmShared = false →
      (k.processes p).cr3 ≠ 0 ∧ (k.processes p).cr3 ≠ k.kernelCr3 ∧ Sole k p)
  | .kill _ _ _ _ => OrphansMayGo k
  | .wait4 pid _ =>
    ∀ self parent t p, k.currentTask = some self → k.processOf self = some parent →
      k.taskList.find? (k.waitable parent pid) = some t → k.process t = some p → MayGo k p
  | .oomKiller =>
    ∀ t p, k.oomVictim = some t → k.process t = some p → (k.processes p).cr3 ≠ 0 →
      (k.processes p).vmShared = false ∧ (k.processes p).cr3 ≠ k.kernelCr3 ∧ Sole k p
        ∧ ∀ c ∈ k.taskList, c ≠ t → k.process c = some p → k.state c = .zombie
  | _ => True

lemma ok_step (h : k.view.Ok) {call : LifeCall} (hsound : call.Sound k)
    (hstep : call.step k = some k') :
  k'.view.Ok
  := by
  cases call with
  | clone vm thread clearTid outcome =>
    exact ok_sysClone h hsound.1 hsound.2.1 hsound.2.2 hstep
  | execve outcome =>
    rw [← some.inj hstep]
    exact ok_sysExecve h hsound.1 hsound.2
  | exit closing writable code => rwa [view_sysExit hstep]
  | exitGroup closing writable code => rwa [view_exitGroup hstep]
  | kill closing writable pid sig => exact ok_sysKill h hsound hstep
  | wait4 pid nohang =>
    obtain ⟨r, hr, rfl⟩ := map_eq_some_iff.mp hstep
    exact ok_sysWait4 h hsound hr
  | oomKiller =>
    rw [← some.inj hstep]
    exact ok_oomKiller h hsound
  | schedule s =>
    rw [← some.inj hstep]
    exact h

/-- Every call of a run is sound in the state in which it comes. -/
def SoundRun : Kernel → List LifeCall → Prop
  | _, [] => True
  | k, call :: calls => call.Sound k ∧ ∀ k', call.step k = some k' → SoundRun k' calls

lemma ok_run {calls : List LifeCall} (h : k.view.Ok) (hsound : SoundRun k calls)
    (hrun : calls.foldlM LifeCall.step k = some k') :
  k'.view.Ok
  := by
  induction calls generalizing k with
  | nil =>
    rw [← some.inj hrun]
    exact h
  | cons call calls ih =>
    obtain ⟨k₁, hk₁, hrest⟩ := bind_eq_some_iff.mp hrun
    exact ih (ok_step h hsound.1 hk₁) (hsound.2 k₁ hk₁) hrest

/-- In every run of sound calls, from a state in which every address space has its owner: no
address space is destroyed while a task that is not a zombie uses it, none is destroyed twice,
and each that no process uses any more has been destroyed. -/
theorem spaces_destroyed_once (k k' : Kernel) (calls : List LifeCall) (h : k.view.Ok)
    (hsound : SoundRun k calls) (hrun : calls.foldlM LifeCall.step k = some k') :
  (∀ e ∈ k'.destroyed, e.2 = false) ∧ (k'.destroyed.map Prod.fst).Nodup
    ∧ ∀ x, x ≠ 0 → x ≠ k'.kernelCr3 → x < k'.spaceCount →
      (∀ t ∈ k'.taskList, ∀ p, k'.process t = some p → (k'.processes p).cr3 ≠ x) →
      x ∈ k'.destroyed.map Prod.fst
  := by
  have h' := ok_run h hsound hrun
  refine ⟨h'.unused, h'.ledger.once, ?_⟩
  intro x hzero hkernel hlt hnobody
  rcases h'.ledger.found x ⟨hzero, hkernel⟩ hlt with hgone | ⟨p, ⟨t, ht, hp⟩, -, hx⟩
  · exact hgone
  · exact absurd hx (hnobody t ht p hp)

/-- The first process: task 1 runs on address space 1, that of the kernel is 0. -/
def firstProcess : Kernel where
  toSched := (Sched.boot (fun _ => prioNormal) (fun _ => .blocked) (fun _ => false) (some 9)).init 1
  taskList := [1]
  futexAddr _ := 0
  clearChildTid _ := 0
  process t := if t = 1 then some 0 else none
  processes _ :=
    { pid := 2, parentPid := 0, pgid := 2, cr3 := 1, vmShared := false, handler := fun _ => 0
      sigpending := 0, exitCode := 0, exited := false }
  nextPid := 3
  processCount := 1
  spaceCount := 2
  destroyed := []
  kernelCr3 := 0

lemma ok_firstProcess : firstProcess.view.Ok
  := by
  have hattached : ∀ p, firstProcess.view.Attached p → p = 0 := by
    rintro p ⟨t, ht, hp⟩
    obtain rfl := mem_singleton.mp ht
    exact (some.inj hp).symm
  have hfirst : firstProcess.view.Attached 0 := ⟨1, mem_singleton.mpr rfl, rfl⟩
  refine ⟨⟨nodup_singleton _, ?_, fun _ _ => Nat.lt_succ_self 2, fun _ _ => Nat.zero_ne_add_one 1⟩,
    by decide, fun _ _ => Nat.lt_succ_self 1, ⟨?_, ?_, nodup_nil, ?_, ?_, ?_⟩, ?_⟩
  · intro p hp
    rw [hattached p hp]
    decide
  · rintro p q x - ⟨hp, -⟩ ⟨hq, -⟩
    rw [hattached p hp, hattached q hq]
  · exact fun _ _ _ _ => not_mem_nil
  · intro x hx
    cases hx
  · rintro p x ⟨-, -, rfl⟩
    exact Nat.lt_succ_self 1
  · intro x hx hlt
    right
    have hone : x = 1 := by
      have hlt' : x < 2 := hlt
      have := hx.1
      omega
    exact ⟨0, hfirst, rfl, hone.symm⟩
  · intro e he
    cases he

theorem spaces_destroyed_once_exec :
  ∃ k', [LifeCall.execve .loaded].foldlM LifeCall.step firstProcess = some k'
    ∧ (∀ e ∈ k'.destroyed, e.2 = false) ∧ (k'.destroyed.map Prod.fst).Nodup
    ∧ ∀ x, x ≠ 0 → x ≠ k'.kernelCr3 → x < k'.spaceCount →
      (∀ t ∈ k'.taskList, ∀ p, k'.process t = some p → (k'.processes p).cr3 ≠ x) →
      x ∈ k'.destroyed.map Prod.fst
  := by
  refine ⟨_, rfl, spaces_destroyed_once firstProcess _ [.execve .loaded] ok_firstProcess ?_ rfl⟩
  refine ⟨⟨?_, ?_⟩, fun _ _ => trivial⟩
  · intro self hself
    have hone : firstProcess.currentTask = some 1 := by decide +kernel
    rw [hone] at hself
    rw [← some.inj hself]
    exact mem_singleton.mpr rfl
  · intro _ p hp _
    refine ⟨Nat.one_ne_zero, Nat.one_ne_zero, ?_⟩
    intro t ht _ q hq hqp
    obtain rfl := mem_singleton.mp ht
    have hone : firstProcess.currentTask = some 1 := by decide +kernel
    rw [hone] at hp
    exact absurd (some.inj (hq.symm.trans hp)) hqp

/-- The first process makes a child that shares its address space, and calls `execve`: address
space 1 is destroyed while the child uses it. -/
theorem borrowed_space_destroyed :
  (do
    let k₁ ← firstProcess.sysClone true false 0 (.created 5)
    some (k₁.sysExecve .loaded).destroyed) = some [(1, true)]
  := by
  decide +kernel

end Kernel
