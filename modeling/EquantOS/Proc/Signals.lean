import EquantOS.Proc.Spaces

/-!
# Dispositions of signals

`sys_rt_sigaction_handler` and what `sys_kill_handler` makes of what it has stored.  The one writes
the entry of a signal at its number, the other reads it at the number before.  Of an entry only the
handler is used.
-/

open Function Option

namespace Kernel

def nsig : ℕ := 64

def sigIgn : ℕ := 1

/-- `sigactions[i].handler`. -/
def sigaction (q : Process) (i : ℕ) : ℕ := q.handler (i + 1)

/-- Write `sigactions[i].handler`. -/
def setSigaction (q : Process) (i handler : ℕ) : Process :=
  { q with handler := Function.update q.handler (i + 1) handler }

/-- The signals that `sys_rt_sigaction_handler` accepts. -/
def accepted (signum : ℕ) : Bool :=
  0 < signum && signum < nsig && signum != sigkill && signum != sigstop

lemma accepted_range {signum : ℕ} (h : accepted signum) : 0 < signum ∧ signum < nsig
  := by
  simp only [accepted, Bool.and_eq_true, decide_eq_true_eq] at h
  exact ⟨h.1.1.1, h.1.1.2⟩

/-- `sys_rt_sigaction_handler`, called by a task of process `p`: the old handler, and the new one is
stored. -/
def sysRtSigaction (k : Kernel) (p signum : ℕ) (act : Option ℕ) : Option ℕ × Kernel :=
  if accepted signum then
    (some (sigaction (k.processes p) signum),
      match act with
      | some handler => k.modProcess p fun q => setSigaction q signum handler
      | none => k)
  else (none, k)

/-- A call of `rt_sigaction`: by which process, and for which signal. -/
structure SigactionCall where
  process : ℕ
  signum : ℕ
  act : Option ℕ

open SigactionCall

def SigactionCall.step (k : Kernel) (c : SigactionCall) : Kernel :=
  (k.sysRtSigaction c.process c.signum c.act).2

/-- The handler that the last of the calls has stored for a signal of a process. -/
def stored (calls : List SigactionCall) (p signum : ℕ) : ℕ :=
  calls.foldl (fun handler c =>
    if c.process = p ∧ c.signum = signum ∧ accepted signum then c.act.getD handler else handler) 0

/-! ### Actions -/

/-- What becomes of a task that gets a signal. -/
inductive Action where
  | ignored
  | posted
  | killed
  | stopped
  | continued
  deriving DecidableEq

/-- Carry out an action. -/
def Action.perform (closing : ℕ → List Wakeup) (k : Kernel) (sig : ℕ) (t : Tid) (p : ℕ) :
    Action → Option (Bool × Kernel)
  | .ignored => some (false, k)
  | .posted => some (false, k.postSignal p sig t)
  | .killed => killOrMark closing k sig t
  | .stopped => some (false, k.withSched (k.block t))
  | .continued => some (false, k.withSched (k.unblock t))

/-- The default actions of `kill`. -/
def defaultAction (sig : ℕ) : Action :=
  if sig = sigkill ∨ sig = sigterm ∨ sig = sigint ∨ sig = sigquit then .killed
  else if sig = sigstop ∨ sig = sigtstp then .stopped
  else if sig = sigcont then .continued
  else .ignored

/-- The action that a stored handler asks for. -/
def dispositionAction (sig handler : ℕ) : Action :=
  if handler = sigIgn then .ignored
  else if sigIgn < handler then .posted
  else defaultAction sig

/-- The action that `signalTask` takes, by the handler that it reads. -/
def killAction (sig handler : ℕ) : Action :=
  if sig = sigint ∨ sig = sigquit then dispositionAction sig handler
  else if sig = sigwinch then if sigIgn < handler then .posted else .ignored
  else defaultAction sig

section

variable {closing : ℕ → List Wakeup} {k : Kernel} {sig : ℕ} {t : Tid} {p : ℕ}
  {calls : List SigactionCall}

lemma signalTask_eq :
  signalTask closing k sig t p
    = (killAction sig ((k.processes p).handler sig)).perform closing k sig t p
  := by
  rw [signalTask, killAction]
  by_cases hint : sig = sigint ∨ sig = sigquit
  · have hterm : ¬ (sig = sigkill ∨ sig = sigterm) := by
      rcases hint with rfl | rfl <;> decide
    have hdefault : defaultAction sig = .killed := by
      rcases hint with rfl | rfl <;> decide
    rw [if_neg hterm, if_pos hint, if_pos hint, dispositionAction, hdefault]
    simp only [apply_ite (Action.perform closing k sig t p)]
    rfl
  rw [if_neg hint, if_neg hint]
  by_cases hwinch : sig = sigwinch
  · have hterm : ¬ (sig = sigkill ∨ sig = sigterm) := by
      rw [hwinch]
      decide
    rw [if_neg hterm, if_pos hwinch, if_pos hwinch]
    simp only [apply_ite (Action.perform closing k sig t p)]
    rfl
  rw [if_neg hwinch, if_neg hwinch, defaultAction]
  by_cases hterm : sig = sigkill ∨ sig = sigterm
  · have hkilled : sig = sigkill ∨ sig = sigterm ∨ sig = sigint ∨ sig = sigquit := by tauto
    rw [if_pos hterm, if_pos hkilled]
    rfl
  have hkilled : ¬ (sig = sigkill ∨ sig = sigterm ∨ sig = sigint ∨ sig = sigquit) := by tauto
  rw [if_neg hterm, if_neg hkilled]
  simp only [apply_ite (Action.perform closing k sig t p)]
  rfl

/-! ### What is stored -/

lemma sigaction_step (k : Kernel) (c : SigactionCall) (p i : ℕ) :
  sigaction ((c.step k).processes p) i
    = if c.process = p ∧ c.signum = i ∧ accepted i then c.act.getD (sigaction (k.processes p) i)
      else sigaction (k.processes p) i
  := by
  rw [step]
  unfold sysRtSigaction
  by_cases haccept : accepted c.signum
  · rw [if_pos haccept]
    cases c.act with
    | none =>
      split_ifs <;> rfl
    | some handler =>
      by_cases hp : c.process = p
      · subst hp
        have hentry : (k.modProcess c.process fun q => setSigaction q c.signum handler).processes
            c.process = setSigaction (k.processes c.process) c.signum handler :=
          update_self ..
        rw [hentry]
        by_cases hi : c.signum = i
        · subst hi
          rw [if_pos ⟨rfl, rfl, haccept⟩]
          exact update_self ..
        · rw [if_neg (fun h => hi h.2.1)]
          exact update_of_ne (fun heq => hi (Nat.succ.inj heq).symm) ..
      · rw [if_neg (fun h => hp h.1)]
        exact congrArg (sigaction · i) (update_of_ne (Ne.symm hp) ..)
  · rw [if_neg haccept]
    by_cases hi : c.signum = i
    · rw [if_neg (fun h => haccept (hi ▸ h.2.2))]
    · rw [if_neg (fun h => hi h.2.1)]

/-- The entry of a signal is what the last call has stored. -/
lemma sigaction_run (p i : ℕ) (calls : List SigactionCall) (k : Kernel)
    (hstart : (k.processes p).handler = fun _ => 0) :
  sigaction ((calls.foldl step k).processes p) i = stored calls p i
  := by
  have hfold : ∀ (k : Kernel) (handler : ℕ), sigaction (k.processes p) i = handler →
      sigaction ((calls.foldl step k).processes p) i
        = calls.foldl (fun handler c => if c.process = p ∧ c.signum = i ∧ accepted i
          then c.act.getD handler else handler) handler := by
    induction calls with
    | nil => exact fun _ _ h => h
    | cons c calls ih =>
      intro k handler h
      apply ih
      rw [sigaction_step, h]
  apply hfold
  rw [sigaction, hstart]

/-- The calls change nothing but handlers. -/
lemma run_frame (p : ℕ) (calls : List SigactionCall) (k : Kernel) :
  (calls.foldl step k).toSched = k.toSched
    ∧ ((calls.foldl step k).processes p).sigpending = (k.processes p).sigpending
  := by
  induction calls generalizing k with
  | nil => exact ⟨rfl, rfl⟩
  | cons c calls ih =>
    obtain ⟨hsched, hpending⟩ := ih (c.step k)
    have hstep : (c.step k).toSched = k.toSched
        ∧ ((c.step k).processes p).sigpending = (k.processes p).sigpending := by
      rw [step]
      unfold sysRtSigaction
      split
      · cases c.act with
        | none => exact ⟨rfl, rfl⟩
        | some handler =>
          refine ⟨rfl, ?_⟩
          by_cases hp : p = c.process
          · subst hp
            have hentry : (k.modProcess c.process fun q => setSigaction q c.signum handler).processes
                c.process = setSigaction (k.processes c.process) c.signum handler :=
              update_self ..
            rw [hentry]
            rfl
          · exact congrArg Process.sigpending (update_of_ne hp ..)
      · exact ⟨rfl, rfl⟩
    exact ⟨hsched.trans hstep.1, hpending.trans hstep.2⟩

end

/-! ### Agreement -/

/-- The signal is treated as it should be, if `stored` is the handler stored for it and `below` the
one stored for the number before. -/
def Heeded (sig below stored : ℕ) : Prop :=
  if sig = sigint ∨ sig = sigquit then min below 2 = min stored 2
  else if sig = sigwinch then (sigIgn < below ↔ sigIgn < stored)
  else if sig = sigterm ∨ sig = sigtstp ∨ sig = sigcont then stored = 0
  else stored ≤ sigIgn

/-- The action of a handler is one of three. -/
lemma dispositionAction_cases (sig handler : ℕ) :
  (handler = 0 ∧ dispositionAction sig handler = defaultAction sig)
    ∨ (handler = 1 ∧ dispositionAction sig handler = .ignored)
    ∨ (2 ≤ handler ∧ dispositionAction sig handler = .posted)
  := by
  rw [dispositionAction, sigIgn]
  rcases handler with _ | _ | handler
  · exact .inl ⟨rfl, rfl⟩
  · exact .inr (.inl ⟨rfl, rfl⟩)
  · exact .inr (.inr ⟨by omega, by rw [if_neg (by omega), if_pos (by omega)]⟩)

lemma killAction_eq_iff {sig below stored : ℕ} (hsig : accepted sig) :
  killAction sig below = dispositionAction sig stored ↔ Heeded sig below stored
  := by
  have hstored := dispositionAction_cases sig stored
  rw [killAction, Heeded]
  by_cases hint : sig = sigint ∨ sig = sigquit
  · -- the same three cases for the handler that is read
    have hbelow := dispositionAction_cases sig below
    have hdefault : defaultAction sig = .killed := by
      rcases hint with rfl | rfl <;> decide
    rw [if_pos hint, if_pos hint]
    rw [hdefault] at hstored hbelow
    rcases hbelow with ⟨hb, ha⟩ | ⟨hb, ha⟩ | ⟨hb, ha⟩ <;>
      rcases hstored with ⟨hs, hd⟩ | ⟨hs, hd⟩ | ⟨hs, hd⟩ <;> rw [ha, hd] <;>
      simp only [reduceCtorEq, true_iff, false_iff] <;> omega
  rw [if_neg hint, if_neg hint]
  by_cases hwinch : sig = sigwinch
  · have hdefault : defaultAction sig = .ignored := by
      rw [hwinch]
      decide
    rw [if_pos hwinch, if_pos hwinch, sigIgn]
    rw [hdefault] at hstored
    by_cases hb : 1 < below
    · rw [if_pos hb]
      rcases hstored with ⟨hs, hd⟩ | ⟨hs, hd⟩ | ⟨hs, hd⟩ <;> rw [hd] <;>
        simp only [reduceCtorEq, true_iff, false_iff] <;> omega
    · rw [if_neg hb]
      rcases hstored with ⟨hs, hd⟩ | ⟨hs, hd⟩ | ⟨hs, hd⟩ <;> rw [hd] <;>
        simp only [reduceCtorEq, true_iff, false_iff] <;> omega
  rw [if_neg hwinch, if_neg hwinch]
  by_cases hfixed : sig = sigterm ∨ sig = sigtstp ∨ sig = sigcont
  · have hdefault : defaultAction sig ≠ .ignored ∧ defaultAction sig ≠ .posted := by
      rcases hfixed with rfl | rfl | rfl <;> decide
    rw [if_pos hfixed]
    rcases hstored with ⟨hs, hd⟩ | ⟨hs, hd⟩ | ⟨hs, hd⟩ <;> rw [hd]
    · exact iff_of_true rfl hs
    · exact iff_of_false hdefault.1 (by omega)
    · exact iff_of_false hdefault.2 (by omega)
  · have hdefault : defaultAction sig = .ignored := by
      simp only [accepted, Bool.and_eq_true, bne_iff_ne] at hsig
      rw [defaultAction, if_neg (by tauto), if_neg (by tauto), if_neg (by tauto)]
    rw [if_neg hfixed, hdefault, sigIgn]
    rw [hdefault] at hstored
    rcases hstored with ⟨hs, hd⟩ | ⟨hs, hd⟩ | ⟨hs, hd⟩ <;> rw [hd] <;>
      simp only [reduceCtorEq, true_iff, false_iff] <;> omega

/-! ### A task that shows what is done to it -/

section

variable {closing : ℕ → List Wakeup} {k : Kernel} {sig : ℕ} {t : Tid} {p : ℕ} {a b : Action}

/-- The task is the current one, asleep and not on a queue, and nothing is pending. -/
structure Telling (k : Kernel) (t : Tid) (p : ℕ) : Prop where
  current : k.currentTask = some t
  state : k.state t = .sleeping
  queued : k.queued t = false
  pending : (k.processes p).sigpending = 0

/-- What can be told of a task and its process. -/
def tell (t : Tid) (p : ℕ) (r : Option (Bool × Kernel)) : Option (Bool × Bool × TaskState) :=
  r.map fun r => (r.1, (r.2.processes p).sigpending != 0, r.2.state t)

lemma tell_perform (h : Telling k t p) (hsig : accepted sig) (a : Action) :
  tell t p (a.perform closing k sig t p) = some (match a with
    | .ignored => (false, false, .sleeping)
    | .posted => (false, true, .runnable)
    | .killed => (true, false, .sleeping)
    | .stopped => (false, false, .blocked)
    | .continued => (false, false, .runnable))
  := by
  have hunblock : (k.unblock t).state t = .runnable := by
    rw [Sched.unblock, Sched.enqueue, if_neg (by rw [h.queued]; exact Bool.false_ne_true)]
    exact update_self ..
  cases a with
  | ignored =>
    simp only [Action.perform, tell, map_some, h.pending, h.state]
    rfl
  | posted =>
    have hpending : ((k.postSignal p sig t).processes p).sigpending != 0 := by
      have hbits : ((k.postSignal p sig t).processes p).sigpending = 1#64 <<< (sig - 1) := by
        have hentry : ((k.postSignal p sig t).processes p).sigpending
            = (k.processes p).sigpending ||| 1#64 <<< (sig - 1) := by
          have hmod : (k.modProcess p fun q =>
              { q with sigpending := q.sigpending ||| 1#64 <<< (sig - 1) }).processes p
              = { k.processes p with
                  sigpending := (k.processes p).sigpending ||| 1#64 <<< (sig - 1) } :=
            update_self ..
          rw [postSignal]
          split
          · exact congrArg Process.sigpending hmod
          · exact congrArg Process.sigpending hmod
        rw [hentry, h.pending]
        exact BitVec.zero_or
      rw [hbits, bne_iff_ne]
      intro hzero
      have hbit := congrArg (fun x => x.getLsbD (sig - 1)) hzero
      have hlt : sig - 1 < 64 := by
        have hmax : sig < 64 := (accepted_range hsig).2
        omega
      simp [hlt] at hbit
    have hstate : (k.postSignal p sig t).state t = .runnable := by
      rw [postSignal]
      split
      · exact hunblock
      · next hwaits => exact absurd (.inr h.state) hwaits
    simp only [Action.perform, tell, map_some, hpending, hstate]
  | killed =>
    simp only [Action.perform, killOrMark, if_pos h.current, tell, map_some, h.pending, h.state]
    rfl
  | stopped =>
    have hstate : (k.block t).state t = .blocked := update_self ..
    change some (false, (k.processes p).sigpending != 0, (k.block t).state t) = _
    rw [h.pending, hstate]
    rfl
  | continued =>
    change some (false, (k.processes p).sigpending != 0, (k.unblock t).state t) = _
    rw [h.pending, hunblock]
    rfl

/-- Different actions are told apart. -/
lemma perform_injective (h : Telling k t p) (hsig : accepted sig)
    (heq : a.perform closing k sig t p = b.perform closing k sig t p) :
  a = b
  := by
  have htell := congrArg (tell t p) heq
  rw [tell_perform h hsig, tell_perform h hsig] at htell
  cases a <;> cases b <;> first | rfl | cases htell

end

/-! ### The calls agree -/

/-- A kernel with one task, which tells what is done to it. -/
def lone : Kernel where
  runQueues _ := none
  runQueuesTail _ := none
  activePriorityBitmap := 0
  schedNext _ := none
  schedPrev _ := none
  sleepQueueHead := none
  sleepNext _ := none
  sleepUntil _ := 0
  priority _ := 16
  state _ := .sleeping
  running _ := false
  ioWaiters := []
  currentTask := some 1
  idleTask := none
  taskList := [1]
  futexAddr _ := 0
  clearChildTid _ := 0
  process _ := some 0
  processes _ :=
    { pid := 2, parentPid := 1, pgid := 2, cr3 := 1, vmShared := false, handler := fun _ => 0
      sigpending := 0, exitCode := 0, exited := false }
  nextPid := 3
  processCount := 1
  spaceCount := 2
  destroyed := []
  kernelCr3 := 0

lemma telling_run_lone (calls : List SigactionCall) (p : ℕ) :
  Telling (calls.foldl step lone) 1 p
  := by
  obtain ⟨hsched, hpending⟩ := run_frame p calls lone
  refine ⟨?_, ?_, ?_, hpending⟩
  · rw [hsched]
    rfl
  · rw [hsched]
    rfl
  · rw [hsched]
    rfl

/-! ### The call -/

/-- The loop of `sys_kill_handler`, with the action that is asked for in each process. -/
def askedLoop (closing : ℕ → List Wakeup) (asked : ℕ → Action) (pid : ℤ) (sig : ℕ) :
    List Tid → Bool → Kernel → Option (Bool × Kernel)
  | [], self, k => some (self, k)
  | t :: tasks, self, k =>
    match k.process t with
    | none => askedLoop closing asked pid sig tasks self k
    | some p =>
      if k.state t ≠ .zombie ∧ k.matchesPid pid (k.processes p) then do
        let r ← (asked p).perform closing k sig t p
        askedLoop closing asked pid sig tasks (self || r.1) r.2
      else askedLoop closing asked pid sig tasks self k

/-- `kill`, with the action that is asked for in each process. -/
def askedKill (closing : ℕ → List Wakeup) (writable : Bool) (k : Kernel) (pid : ℤ) (sig : ℕ) (asked : ℕ → Action) :
    Option Kernel := do
  let k ← k.reapOrphanZombies
  let r ← askedLoop closing asked pid sig k.taskList false k
  if r.1 then sysExit closing writable r.2 (128 + sig) else some r.2

/-- The handlers of the processes are the same. -/
def SameHandlers (k k' : Kernel) : Prop := ∀ q, (k'.processes q).handler = (k.processes q).handler

section

variable {closing : ℕ → List Wakeup} {k : Kernel} {sig : ℕ} {t : Tid} {p : ℕ}

lemma sameHandlers_modProcess {f : Process → Process} (hf : ∀ q, (f q).handler = q.handler) (p : ℕ) :
  SameHandlers k (k.modProcess p f)
  := by
  intro q
  change (update k.processes p (f (k.processes p)) q).handler = _
  by_cases hq : q = p
  · rw [hq, update_self, hf]
  · rw [update_of_ne hq]

lemma sameHandlers_processTerminateTask {code : ℤ} {k' : Kernel} (h : processTerminateTask closing k t code = some k') :
  SameHandlers k k'
  := by
  obtain ⟨s, -, h⟩ := bind_eq_some_iff.mp h
  simp only at h
  split at h
  · rw [← some.inj h]
    exact fun _ => rfl
  next p _ =>
    have hmod : SameHandlers k ((k.withSched s).modProcess p fun q => { q with exitCode := code, exited := true }) :=
      fun q => sameHandlers_modProcess (k := k.withSched s) (fun _ => by rfl) p q
    split at h
    · rw [← some.inj h]
      exact hmod
    · obtain ⟨k₁, hk₁, hk'⟩ := bind_eq_some_iff.mp h
      obtain ⟨s', -, hs'⟩ := bind_eq_some_iff.mp hk₁
      rw [← some.inj hk', ← some.inj hs']
      exact hmod

/-- No action changes a handler. -/
lemma sameHandlers_perform {a : Action} {r : Bool × Kernel} (h : a.perform closing k sig t p = some r) :
  SameHandlers k r.2
  := by
  cases a with
  | ignored =>
    rw [← some.inj h]
    exact fun _ => rfl
  | posted =>
    have hmod : SameHandlers k (k.modProcess p fun q =>
        { q with sigpending := q.sigpending ||| 1#64 <<< (sig - 1) }) :=
      sameHandlers_modProcess (fun _ => by rfl) p
    rw [← some.inj h, postSignal]
    dsimp only
    split <;> exact hmod
  | killed =>
    simp only [Action.perform, killOrMark] at h
    split at h
    · rw [← some.inj h]
      exact fun _ => rfl
    · obtain ⟨k₁, hk₁, hr⟩ := bind_eq_some_iff.mp h
      rw [← some.inj hr]
      exact sameHandlers_processTerminateTask hk₁
  | stopped =>
    rw [← some.inj h]
    exact fun _ => rfl
  | continued =>
    rw [← some.inj h]
    exact fun _ => rfl

lemma killLoop_eq_askedLoop {asked : ℕ → Action} {pid : ℤ} : ∀ (tasks : List Tid) {self : Bool} {k : Kernel},
    (∀ p, killAction sig ((k.processes p).handler sig) = asked p) →
    killLoop closing pid sig tasks self k = askedLoop closing asked pid sig tasks self k
  | [], _, _, _ => rfl
  | t :: tasks, self, k, h => by
    rw [killLoop, askedLoop]
    cases k.process t with
    | none => exact killLoop_eq_askedLoop tasks h
    | some p =>
      dsimp only
      by_cases hhit : k.state t ≠ .zombie ∧ k.matchesPid pid (k.processes p)
      · rw [if_pos hhit, if_pos hhit, signalTask_eq, h p]
        cases hr : (asked p).perform closing k sig t p with
        | none => rfl
        | some r => exact killLoop_eq_askedLoop tasks fun q => by rw [sameHandlers_perform hr q, h q]
      · rw [if_neg hhit, if_neg hhit]
        exact killLoop_eq_askedLoop tasks h

lemma processes_freeTaskStruct {k' : Kernel} (h : k.freeTaskStruct t = some k') : k'.processes = k.processes
  := by
  obtain ⟨s, -, hs⟩ := bind_eq_some_iff.mp h
  rw [← some.inj hs]
  rfl

lemma processes_releaseTask {k' : Kernel} (h : k.releaseTask t = some k') : k'.processes = k.processes
  := by
  obtain ⟨k₁, hk₁, h⟩ := bind_eq_some_iff.mp h
  obtain ⟨k₂, hk₂, h⟩ := bind_eq_some_iff.mp h
  have hdrop : k'.processes = k₂.processes := by
    rw [← some.inj h, dropProcess]
    split
    · rfl
    · dsimp only
      split <;> rfl
  have hsiblings : k₁.processes = k.processes := by
    rw [freeSiblings] at hk₁
    split at hk₁
    · obtain ⟨s, hs, -⟩ := foldlM_freeTaskStruct hk₁
      rw [hs]
      rfl
    · rw [← some.inj hk₁]
  rw [hdrop, processes_freeTaskStruct hk₂, hsiblings]

lemma processes_reapLoop : ∀ (fuel : ℕ) {k k' : Kernel}, reapLoop fuel k = some k' → k'.processes = k.processes
  | 0, _, _, h => by rw [← some.inj h]
  | fuel + 1, k, k', h => by
    rw [reapLoop] at h
    split at h
    · rw [← some.inj h]
    · obtain ⟨k₁, hk₁, h⟩ := bind_eq_some_iff.mp h
      rw [processes_reapLoop fuel h, processes_releaseTask hk₁]

/-- `kill` does what is asked for, if its own action is that in every process. -/
lemma sysKill_eq_askedKill {asked : ℕ → Action} (h : ∀ p, killAction sig ((k.processes p).handler sig) = asked p)
    (writable : Bool) (pid : ℤ) :
  sysKill closing writable k pid sig = askedKill closing writable k pid sig asked
  := by
  rw [sysKill, askedKill]
  cases hreap : k.reapOrphanZombies with
  | none => rfl
  | some k₁ =>
    have hasked : ∀ p, killAction sig ((k₁.processes p).handler sig) = asked p := by
      rw [processes_reapLoop _ hreap]
      exact h
    change (killLoop closing pid sig k₁.taskList false k₁).bind _ = (askedLoop ..).bind _
    rw [killLoop_eq_askedLoop k₁.taskList hasked]

end

/-- After any calls of `rt_sigaction`, `kill` acts on the tasks of a process as the handler asks
that the last of them has stored for the signal, exactly if the signal is heeded; and if it is in every process,
the whole call does what the handlers ask. -/
theorem kill_follows_sigaction_iff (calls : List SigactionCall) (p : ℕ) {sig : ℕ}
    (hsig : accepted sig = true) :
  (sig < nsig ∧ sig - 1 < nsig) ∧
  ((∀ k closing t, (k.processes p).handler = (fun _ => 0) →
      signalTask closing (calls.foldl step k) sig t p
        = (dispositionAction sig (stored calls p sig)).perform closing
          (calls.foldl step k) sig t p)
    ↔ Heeded sig (stored calls p (sig - 1)) (stored calls p sig)) ∧
  ((∀ q, Heeded sig (stored calls q (sig - 1)) (stored calls q sig)) →
    ∀ k closing writable pid, (∀ q, (k.processes q).handler = fun _ => 0) →
      sysKill closing writable (calls.foldl step k) pid sig
        = askedKill closing writable (calls.foldl step k) pid sig fun q => dispositionAction sig (stored calls q sig))
  := by
  have hrange := accepted_range hsig
  have hread : ∀ (q : ℕ) (k : Kernel), (k.processes q).handler = (fun _ => 0) →
      ((calls.foldl step k).processes q).handler sig = stored calls q (sig - 1) := by
    intro q k hstart
    rw [← sigaction_run q (sig - 1) calls k hstart, sigaction, Nat.sub_add_cancel hrange.1]
  refine ⟨⟨hrange.2, by omega⟩, ?_, fun hheeded k closing writable pid hstart => ?_⟩
  swap
  · apply sysKill_eq_askedKill
    intro q
    rw [hread q k (hstart q)]
    exact (killAction_eq_iff hsig).mpr (hheeded q)
  rw [← killAction_eq_iff hsig]
  constructor
  · intro hfollows
    have hlone := hfollows lone (fun _ => []) 1 rfl
    rw [signalTask_eq, hread p lone rfl] at hlone
    exact perform_injective (telling_run_lone calls p) hsig hlone
  · intro heq k closing t hstart
    rw [signalTask_eq, hread p k hstart, heq]

/-- Both sides for a process that ignores `SIGINT` and `SIGHUP`. -/
theorem kill_follows_sigaction_iff_ignored :
  (∀ k closing t, (k.processes 0).handler = (fun _ => 0) →
      signalTask closing ([⟨0, 1, some 1⟩, ⟨0, 2, some 1⟩].foldl step k) sigint t 0
        = (dispositionAction sigint (stored [⟨0, 1, some 1⟩, ⟨0, 2, some 1⟩] 0 sigint)).perform closing
          ([⟨0, 1, some 1⟩, ⟨0, 2, some 1⟩].foldl step k) sigint t 0)
    ↔ Heeded sigint 1 1
  := (kill_follows_sigaction_iff [⟨0, 1, some 1⟩, ⟨0, 2, some 1⟩] 0 (by decide)).2.1

/-- A process ignores `SIGINT`, but `kill` with it kills the process, and `SIGQUIT` is ignored in its
place. -/
theorem ignored_interrupt_kills :
  stored [⟨0, sigint, some sigIgn⟩] 0 sigint = sigIgn
    ∧ (sysKill (fun _ => []) true ((SigactionCall.mk 0 sigint (some sigIgn)).step lone) 2 sigint).map (·.state 1)
      = some .zombie
    ∧ stored [⟨0, sigint, some sigIgn⟩] 0 sigquit = 0
    ∧ (sysKill (fun _ => []) true ((SigactionCall.mk 0 sigint (some sigIgn)).step lone) 2 sigquit).map (·.state 1)
      = some .sleeping
  := by
  decide +kernel

end Kernel
