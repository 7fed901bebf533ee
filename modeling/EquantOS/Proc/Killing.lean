import EquantOS.Proc.Ending

/-!
# How processes are killed

What `kill` does once the orphans are reaped: the tasks that the signal kills end one by one, the
current one last, and their processes are marked as exited.
-/

namespace Kernel

open Sched

variable {k k' : Kernel} {t c : Tid} {p : ℕ} {S Z : Tid → Prop} {E : ℕ → Option ℤ}
  {pid : ℤ} {sig : ℕ} {closing : ℕ → List Wakeup}

/-- The signals that kill some processes. -/
def mayKill (sig : ℕ) : Prop := sig = sigkill ∨ sig = sigterm ∨ sig = sigint ∨ sig = sigquit

/-- The signal kills a process with this handler. -/
def lethal (sig handler : ℕ) : Prop :=
  sig = sigkill ∨ sig = sigterm ∨ (sig = sigint ∨ sig = sigquit) ∧ handler = 0

/-- `kill` is to end the task. -/
def Hit (k : Kernel) (pid : ℤ) (sig : ℕ) (t : Tid) : Prop :=
  ∃ p, k.process t = some p ∧ k.matchesPid pid (k.processes p) = true
    ∧ lethal sig ((k.processes p).handler sig)

lemma Ends.pid_eq (h : Ends S Z E k k') (p : ℕ) : (k'.processes p).pid = (k.processes p).pid
  := congrArg Identity.pid (congrFun (congrArg View.processes h.view) p)

lemma Ends.matchesPid_eq (h : Ends S Z E k k') (pid : ℤ) (p : ℕ) :
  k'.matchesPid pid (k'.processes p) = k.matchesPid pid (k.processes p)
  := by
  have hcaller : (k'.currentTask.bind k'.processOf).any (fun q => (k'.processes p).pgid == q.pgid)
      = (k.currentTask.bind k.processOf).any fun q => (k.processes p).pgid == q.pgid := by
    rw [h.current]
    cases k.currentTask with
    | none => rfl
    | some c =>
      simp only [Option.bind_some, processOf, h.process_eq]
      cases k.process c with
      | none => rfl
      | some q => simp [h.pgid]
  simp only [matchesPid, h.pid_eq, h.pgid]
  rw [h.pgid p] at hcaller
  rw [hcaller]

lemma Ends.hit_iff (h : Ends S Z E k k') : Hit k' pid sig t ↔ Hit k pid sig t
  := by simp only [Hit, h.process_eq, h.matchesPid_eq, h.handler]

lemma ends_modProcess (h : InOrder k.toSched) (p : ℕ) (f : BitVec 64 → BitVec 64) :
  Ends S nobody noCode k (k.modProcess p fun q => { q with sigpending := f q.sigpending })
  := by
  set k₁ := k.modProcess p fun q => { q with sigpending := f q.sigpending } with hk₁
  have hprocess : ∀ r, ∃ pending, k₁.processes r = { k.processes r with sigpending := pending } := by
    intro r
    by_cases hr : r = p
    · subst hr
      exact ⟨_, Function.update_self ..⟩
    · exact ⟨_, Function.update_of_ne hr ..⟩
  refine ⟨⟨h, fun _ _ _ ha => ha, fun _ ht => ht.elim, fun _ ht => .inl ht,
    view_modProcess_same fun _ => rfl, ?_, ?_, ?_, ?_⟩, rfl, rfl⟩
  all_goals
    intro r
    obtain ⟨pending, hr⟩ := hprocess r
    rw [hr]
  · exact (Bool.or_false _).symm
  · rfl

/-- A live task gets a signal that does not kill it. -/
lemma ends_postSignal (h : InOrder k.toSched) (p sig : ℕ) (c : Tid) :
  Ends S nobody noCode k (k.postSignal p sig c)
  := by
  have hpend := ends_modProcess (S := S) h p fun pending => pending ||| 1#64 <<< (sig - 1)
  rw [postSignal]
  split
  · next hwaits =>
    refine hpend.trans_idle (ends_unblock hpend.order ?_ ?_)
    · rcases hwaits with hw | hw <;> rw [hw] <;> decide
    · intro hrun
      rcases hwaits with hw | hw <;> rw [hw] at hrun <;> cases hrun
  · exact hpend

/-- What becomes of a live task `c` of process `p` that gets a signal: it is the current one and
will be killed, it ends, or it stays. -/
inductive Signalled (S : Tid → Prop) (sig : ℕ) (c : Tid) (p : ℕ) (k : Kernel) : Bool → Kernel → Prop
  | marked : lethal sig ((k.processes p).handler sig) → k.currentTask = some c →
    Signalled S sig c p k true k
  | killed (k' : Kernel) : lethal sig ((k.processes p).handler sig) → k.currentTask ≠ some c →
    Ends S (· = c) (oneCode p (128 + sig)) k k' → Signalled S sig c p k false k'
  | spared (k' : Kernel) : ¬lethal sig ((k.processes p).handler sig) →
    Ends S nobody noCode k k' → Signalled S sig c p k false k'

lemma signalled_signalTask (h : InOrder k.toSched) (hp : k.process c = some p)
    (hlive : k.state c ≠ .zombie) (hS : ∀ t, S t → mayKill sig)
    (hclosing : lethal sig ((k.processes p).handler sig) →
      Harmless (fun t => S t ∨ t = c) k (closing p)) :
  ∃ flag k', signalTask closing k sig c p = some (flag, k') ∧ Signalled S sig c p k flag k'
  := by
  have hmark : lethal sig ((k.processes p).handler sig) →
      ∃ flag k', killOrMark closing k sig c = some (flag, k') ∧ Signalled S sig c p k flag k' := by
    intro hlethal
    rw [killOrMark]
    split
    · next hself => exact ⟨true, k, rfl, .marked hlethal hself⟩
    · next hself =>
      obtain ⟨k', hk', hends⟩ := ends_processTerminateTask h hp (hclosing hlethal) (128 + sig)
      exact ⟨false, k', by rw [hk']; rfl, .killed k' hlethal hself hends⟩
  -- the other signals leave the task alive
  have hstay : ∀ k', ¬lethal sig ((k.processes p).handler sig) → Ends S nobody noCode k k' →
      ∃ flag k'', some (false, k') = some (flag, k'') ∧ Signalled S sig c p k flag k'' :=
    fun k' hnot hends => ⟨false, k', rfl, .spared k' hnot hends⟩
  rw [signalTask]
  split_ifs with hkill hint hone hmany hwinch hmany' hstop hcont
  · exact hmark (by unfold lethal; tauto)
  · apply hstay _ _ (Ends.refl h)
    unfold lethal
    omega
  · apply hstay _ _ (ends_postSignal h p sig c)
    unfold lethal
    omega
  · apply hmark
    unfold lethal
    omega
  all_goals
    have hnot : ¬lethal sig ((k.processes p).handler sig) := by
      unfold lethal
      tauto
    apply hstay _ hnot
  · exact ends_postSignal h p sig c
  · exact Ends.refl h
  · apply Ends.sched (tends_block h c)
    rintro t state (rfl | ⟨rfl, hSt⟩) ha rfl
    · exact hlive ha.state_eq
    · exact absurd (hS t hSt) (by unfold mayKill; tauto)
  · apply Ends.sched (tends_enqueue h c)
    rintro t state (rfl | ⟨rfl, hSt⟩) ha rfl
    · exact hlive ha.state_eq
    · exact absurd (hS t hSt) (by unfold mayKill; tauto)
  · exact Ends.refl h

/-- The tasks of the list that `kill` ends in its loop. -/
def Victim (k : Kernel) (pid : ℤ) (sig : ℕ) (tasks : List Tid) (t : Tid) : Prop :=
  t ∈ tasks ∧ Hit k pid sig t ∧ k.state t ≠ .zombie ∧ k.currentTask ≠ some t

/-- The current task is on the list and is to end. -/
def SelfHit (k : Kernel) (pid : ℤ) (sig : ℕ) (tasks : List Tid) : Prop :=
  ∃ t ∈ tasks, Hit k pid sig t ∧ k.state t ≠ .zombie ∧ k.currentTask = some t

lemma hit_ne_none (h : Hit k pid sig t) : k.process t ≠ none
  := by
  obtain ⟨p, hp, -⟩ := h
  rw [hp]
  exact Option.some_ne_none p

variable {tasks : List Tid}

/-- One task of the list is dealt with, then the others. -/
lemma victim_cons (h : Ends S Z E k k') (hz : Settled k tasks)
    (hc : Z c ↔ Hit k pid sig c ∧ k.state c ≠ .zombie ∧ k.currentTask ≠ some c)
    (hother : ∀ t, Z t → t = c) (t : Tid) :
  Victim k pid sig (c :: tasks) t ↔ Z t ∨ Victim k' pid sig tasks t
  := by
  have hrest : t ∈ tasks → (Victim k' pid sig tasks t
      ↔ Hit k pid sig t ∧ (k.state t ≠ .zombie ∧ ¬Z t) ∧ k.currentTask ≠ some t) := by
    intro ht
    rw [Victim, h.hit_iff, h.current, and_iff_right ht]
    apply and_congr_right
    intro hhit
    rw [hz.live_iff h.toDeparts ht (hit_ne_none hhit)]
  by_cases htc : t = c
  · subst htc
    rw [hc]
    constructor
    · rintro ⟨-, hhit⟩
      exact .inl hhit
    · rintro (hhit | hhit)
      · exact ⟨by simp, hhit⟩
      · obtain ⟨hhit', ⟨hlive, -⟩, hself⟩ := (hrest hhit.1).mp hhit
        exact ⟨by simp, hhit', hlive, hself⟩
  · have hnot : ¬Z t := fun hzt => htc (hother t hzt)
    rw [or_iff_right hnot]
    by_cases ht : t ∈ tasks
    · rw [hrest ht, Victim]
      simp [ht, hnot]
    apply iff_of_false
    · rintro ⟨hmem, -⟩
      exact ht ((List.mem_cons.mp hmem).resolve_left htc)
    · rintro ⟨hmem, -⟩
      exact ht hmem

lemma selfHit_cons (h : Ends S Z E k k') (hz : Settled k tasks)
    (hself : ∀ t, Z t → k.currentTask ≠ some t) :
  SelfHit k pid sig (c :: tasks)
    ↔ (Hit k pid sig c ∧ k.state c ≠ .zombie ∧ k.currentTask = some c) ∨ SelfHit k' pid sig tasks
  := by
  have hrest : SelfHit k' pid sig tasks ↔ SelfHit k pid sig tasks := by
    apply exists_congr
    intro t
    apply and_congr_right
    intro ht
    rw [h.hit_iff, h.current]
    apply and_congr_right
    intro hhit
    apply and_congr_left
    intro hcur
    rw [hz.live_iff h.toDeparts ht (hit_ne_none hhit)]
    exact and_iff_left fun hzt => hself t hzt hcur
  rw [hrest, SelfHit, List.exists_mem_cons_iff]
  rfl

/-- The loop of `kill`. -/
lemma ends_killLoop (h : InOrder k.toSched) (hz : Settled k tasks)
    (hS : ∀ t, S t → mayKill sig ∧ k.currentTask = some t)
    (hclosing : ∀ p, Harmless (fun t => S t ∨ Hit k pid sig t) k (closing p)) (flag : Bool) :
  ∃ flag' k', killLoop closing pid sig tasks flag k = some (flag', k')
    ∧ Ends S (Victim k pid sig tasks) (codesOf k (Victim k pid sig tasks) (128 + sig)) k k'
    ∧ (flag' ↔ flag ∨ SelfHit k pid sig tasks)
  := by
  induction tasks generalizing k flag with
  | nil =>
    refine ⟨flag, k, rfl, (Ends.refl h).congr ?_ ?_, ?_⟩
    · simp [Victim, nobody]
    · intro p
      have hnobody : Victim k pid sig [] = nobody := by
        funext t
        simp [Victim, nobody]
      rw [hnobody, codesOf_nobody]
    · simp [SelfHit]
  | cons c tasks ih =>
    have hz' : Settled k tasks := fun t ht => hz t (List.mem_cons_of_mem c ht)
    -- the rest of the list, after something has been done to the task
    have hrest : ∀ (k₁ : Kernel) (Z : Tid → Prop) (flag' : Bool),
        Ends S Z (codesOf k Z (128 + sig)) k k₁ →
        (Z c ↔ Hit k pid sig c ∧ k.state c ≠ .zombie ∧ k.currentTask ≠ some c) →
        (∀ t, Z t → t = c) →
        (flag' ↔ flag ∨ Hit k pid sig c ∧ k.state c ≠ .zombie ∧ k.currentTask = some c) →
        ∃ flag'' k', killLoop closing pid sig tasks flag' k₁ = some (flag'', k')
          ∧ Ends S (Victim k pid sig (c :: tasks))
            (codesOf k (Victim k pid sig (c :: tasks)) (128 + sig)) k k'
          ∧ (flag'' ↔ flag ∨ SelfHit k pid sig (c :: tasks)) := by
      intro k₁ Z flag' hone hc hother hflag
      have hself : ∀ t, Z t → k.currentTask ≠ some t := by
        intro t hzt
        obtain rfl := hother t hzt
        exact (hc.mp hzt).2.2
      have hhit : (fun t => S t ∨ Hit k₁ pid sig t) = fun t => S t ∨ Hit k pid sig t := by
        funext t
        rw [hone.hit_iff]
      have hclosing₁ : ∀ p, Harmless (fun t => S t ∨ Hit k₁ pid sig t) k₁ (closing p) := by
        intro p
        rw [hhit]
        apply (hclosing p).of_ends hone.toDeparts
        intro t hzt
        obtain rfl := hother t hzt
        exact .inr (hc.mp hzt).1
      obtain ⟨flag'', k', hk', hends, hflag'⟩ := ih hone.order (hz'.departs hone.toDeparts)
        (fun t ht => by rw [hone.current]; exact hS t ht) hclosing₁ flag'
      have hvictim := victim_cons hone hz' hc hother
      refine ⟨flag'', k', hk', (hone.trans hends).congr hvictim ?_, ?_⟩
      · intro p
        rw [codesOf_congr hone.process_eq]
        exact codesOf_or hvictim _ p
      · rw [hflag', hflag, selfHit_cons hone hz' hself, or_assoc]
    have hskip : ¬Hit k pid sig c ∨ k.state c = .zombie →
        ∃ flag' k', killLoop closing pid sig tasks flag k = some (flag', k')
          ∧ Ends S (Victim k pid sig (c :: tasks))
            (codesOf k (Victim k pid sig (c :: tasks)) (128 + sig)) k k'
          ∧ (flag' ↔ flag ∨ SelfHit k pid sig (c :: tasks)) := by
      intro hnot
      apply hrest k nobody flag
      · exact (Ends.refl h).congr (fun _ => Iff.rfl) fun p => (codesOf_nobody _ p).symm
      · simp only [nobody, false_iff]
        tauto
      · exact fun _ hzt => hzt.elim
      · tauto
    rw [killLoop]
    cases hp : k.process c with
    | none =>
      apply hskip
      exact .inl fun hhit => hit_ne_none hhit hp
    | some p =>
      simp only
      split
      · next hmeant =>
        have hhit : Hit k pid sig c ↔ lethal sig ((k.processes p).handler sig) := by
          constructor
          · rintro ⟨q, hq, -, hlethal⟩
            rwa [Option.some.inj (hp.symm.trans hq)]
          · exact fun hlethal => ⟨p, hp, hmeant.2, hlethal⟩
        obtain ⟨r, k₁, hk₁, hsignalled⟩ := signalled_signalTask h hp hmeant.1
          (fun t ht => (hS t ht).1) (fun hlethal t ht => by
            obtain ⟨hzombie, hnot⟩ := hclosing p t ht
            refine ⟨hzombie, ?_⟩
            rintro (hSt | rfl)
            · exact hnot (.inl hSt)
            · exact hnot (.inr (hhit.mpr hlethal)))
        rw [hk₁]
        cases hsignalled with
        | marked hlethal hself =>
          apply hrest k nobody
          · exact (Ends.refl h).congr (fun _ => Iff.rfl) fun p => (codesOf_nobody _ p).symm
          · simp [nobody, hself]
          · exact fun _ hzt => hzt.elim
          · simp [hhit, hlethal, hmeant.1, hself]
        | killed _ hlethal hself hends =>
          apply hrest k₁ (· = c)
          · exact hends.congr (fun _ => Iff.rfl) (codesOf_self hp _)
          · simp [hhit, hlethal, hmeant.1, hself]
          · exact fun _ hzt => hzt
          · simp [hself]
        | spared _ hlethal hends =>
          apply hrest k₁ nobody
          · exact hends.congr (fun _ => Iff.rfl) fun p => (codesOf_nobody _ p).symm
          · simp [nobody, hhit, hlethal]
          · exact fun _ hzt => hzt.elim
          · simp [hhit, hlethal]
      · next hmeant =>
        apply hskip
        by_cases hzombie : k.state c = .zombie
        · exact .inr hzombie
        left
        rintro ⟨q, hq, hmatch, -⟩
        rw [← Option.some.inj (hp.symm.trans hq)] at hmatch
        exact hmeant ⟨hzombie, hmatch⟩

/-- `kill` once the orphans are gone. -/
lemma leave_kill {closing : ℕ → List Wakeup} {pid : ℤ} {sig : ℕ} (h : InOrder k.toSched) (hz : Settled k k.taskList)
    (hcaller : ∀ c, k.currentTask = some c → Hit k pid sig c → k.state c ≠ .zombie →
      k.idleTask ≠ some c ∧ Apart k.toSched c .runnable)
    (hclosing : ∀ p, Harmless (fun t => k.currentTask = some t ∨ Hit k pid sig t) k (closing p))
    (writable : Bool) :
  ∃ k', (do
      let r ← killLoop closing pid sig k.taskList false k
      if r.1 then sysExit closing writable r.2 (128 + sig) else some r.2) = some k'
    ∧ Leave (fun t => t ∈ k.taskList ∧ Hit k pid sig t ∧ k.state t ≠ .zombie) (128 + sig) k k'
  := by
  have hclosing' : ∀ p, Harmless (fun t => (mayKill sig ∧ k.currentTask = some t)
      ∨ Hit k pid sig t) k (closing p) := by
    intro p t ht
    obtain ⟨hzombie, hnot⟩ := hclosing p t ht
    exact ⟨hzombie, fun hor => hnot (hor.imp_left And.right)⟩
  obtain ⟨flag, k₁, hk₁, hends, hflag⟩ := ends_killLoop h hz (fun t ht => ht) hclosing' false
  simp only [Bool.false_eq_true, false_or] at hflag
  have hquiet : Ends nobody _ _ k k₁ := hends.mono fun _ hs => hs.elim
  rw [hk₁]
  simp only [Option.bind_eq_bind, Option.bind_some]
  by_cases hself : SelfHit k pid sig k.taskList
  · rw [if_pos (hflag.mpr hself)]
    obtain ⟨c, hmem, hhit, hlive, hcur⟩ := hself
    obtain ⟨p, hp, -, hlethal⟩ := id hhit
    obtain ⟨hidle, hrun⟩ := hcaller c hcur hhit hlive
    have hnot : ¬Victim k pid sig k.taskList c := fun hv => hv.2.2.2 hcur
    have hmay : mayKill sig := by
      unfold lethal at hlethal
      unfold mayKill
      tauto
    have hrun₁ : Apart k₁.toSched c .runnable :=
      hends.stays c .runnable (.inr ⟨rfl, ⟨hmay, hcur⟩, hnot⟩) hrun
    have hharmless : Harmless (· = c) k₁ (closing p) := by
      intro t ht
      have hboth := (hclosing p).of_ends hends.toDeparts (fun t hv => .inr hv.2.1) t ht
      refine ⟨hboth.1, ?_⟩
      rintro rfl
      exact hboth.2 (.inl hcur)
    obtain ⟨k', hk', hexit⟩ := departs_sysExit hends.order (hends.current.trans hcur)
      (by rw [hends.idle]; exact hidle) hrun₁ (by rw [hends.process_eq]; exact hp) hharmless
      writable (128 + sig)
    have hall : ∀ t, (t ∈ k.taskList ∧ Hit k pid sig t ∧ k.state t ≠ .zombie)
        ↔ Victim k pid sig k.taskList t ∨ t = c := by
      intro t
      by_cases htc : t = c
      · subst htc
        simp [hmem, hhit, hlive]
      have hne : k.currentTask ≠ some t := by
        rw [hcur]
        simpa using fun h => htc h.symm
      simp [Victim, htc, hne]
    refine ⟨k', hk', (hquiet.toDeparts.trans hexit).congr hall ?_⟩
    intro r
    rw [codesOf_or hall, codesOf_self hp]
  · rw [if_neg fun hf => hself (hflag.mp hf)]
    have hall : ∀ t, (t ∈ k.taskList ∧ Hit k pid sig t ∧ k.state t ≠ .zombie)
        ↔ Victim k pid sig k.taskList t := by
      intro t
      constructor
      · rintro ⟨hmem, hhit, hlive⟩
        exact ⟨hmem, hhit, hlive, fun hcur => hself ⟨t, hmem, hhit, hlive, hcur⟩⟩
      · rintro ⟨hmem, hhit, hlive, -⟩
        exact ⟨hmem, hhit, hlive⟩
    refine ⟨k₁, rfl, hquiet.toDeparts.congr hall ?_⟩
    intro r
    rw [funext fun t => propext (hall t)]

end Kernel
