import EquantOS.Proc.SleepCalls

/-!
# Timed wake-ups

The tick counter has 32 bits, a deadline has 64.  A task that goes to sleep is woken by the
timer in time if its deadline is reached before the counter wraps; a deadline that was computed
in 32 bits at the last tick before the wrap is reached in time as well.
-/

namespace Kernel

open Sched Option

/-- How the callers of `sched_make_sleep` add to `tick`: constants in 32 bits, the ticks of
`nanosleep` and of a futex timeout in 64 bits. -/
inductive Width where
  | word
  | long

/-- The deadline that a caller computes. -/
def deadline (tick : BitVec 32) (n : ℕ) : Width → ℕ
  | .word => (tick + BitVec.ofNat 32 n).toNat
  | .long => (tick.setWidth 64 + BitVec.ofNat 64 n).toNat

/-- `timer_callback`, as far as the scheduler is concerned. -/
def timerCallback (tick : BitVec 32) (k : Kernel) : Option (BitVec 32 × Kernel) :=
  (k.toSched.timerTick (tick + 1)).map fun s => (tick + 1, k.withSched s)

/-- From `k` at `tick` the kernel gets to a state with `i` timer interrupts and any fair calls
between them, none of which wakes the sleeping task `self`. -/
inductive Undisturbed (self : Tid) (tick : BitVec 32) (k : Kernel) : ℕ → BitVec 32 → Kernel → Prop
  | start : Undisturbed self tick k 0 tick k
  | call {i : ℕ} {now : BitVec 32} {k₁ k₂ : Kernel} (call : SleepCall) :
    Undisturbed self tick k i now k₁ → (∀ n, call ≠ .timerTick n) → call.Fair k₁ →
    call.step k₁ = some k₂ → (k₁.state self = .sleeping → k₂.state self = .sleeping) →
    Undisturbed self tick k i now k₂
  | timer {i : ℕ} {now now' : BitVec 32} {k₁ k₂ : Kernel} :
    Undisturbed self tick k i now k₁ → timerCallback now k₁ = some (now', k₂) →
    Undisturbed self tick k (i + 1) now' k₂

/-- A task that goes to sleep at `tick` for `n` ticks, whatever else happens, sleeps until the
timer interrupt `n` ticks later and is runnable then. -/
def WakesOnTime (width : Width) (tick : BitVec 32) (n : ℕ) : Prop :=
  ∀ (k k₀ : Kernel) (self : Tid), Awake k.toSched → k.currentTask = some self →
    k.idleTask ≠ some self → SleepCall.step k (.sleep (deadline tick n width)) = some k₀ →
    ∀ i now k', Undisturbed self tick k₀ i now k' →
      (i < n → k'.state self = .sleeping)
      ∧ (i + 1 = n → ∃ k'', timerCallback now k' = some (now + 1, k'')
        ∧ k''.state self = .runnable ∧ k''.queued self = true)

/-! ### Deadlines -/

lemma toNat_add_ofNat {tick : BitVec 32} {j : ℕ} :
  (tick + BitVec.ofNat 32 j).toNat = (tick.toNat + j) % 2 ^ 32
  := by simp [BitVec.toNat_add]

lemma deadline_word (tick : BitVec 32) (n : ℕ) :
  deadline tick n .word = (tick.toNat + n) % 2 ^ 32
  := toNat_add_ofNat

variable {n : ℕ} {width : Width} {tick : BitVec 32}

lemma deadline_long (tick : BitVec 32) (hn : n < 2 ^ 31) :
  deadline tick n .long = tick.toNat + n
  := by
  have := tick.isLt
  rw [deadline, BitVec.toNat_add, BitVec.toNat_setWidth, BitVec.toNat_ofNat]
  omega

/-- When the deadline is reached by the `j`-th tick. -/
def Reached (width : Width) (tick : BitVec 32) (n j : ℕ) : Prop :=
  deadline tick n width ≤ (tick + BitVec.ofNat 32 j).toNat

/-- The deadlines that are reached in time. -/
def InTime (width : Width) (tick : BitVec 32) (n : ℕ) : Prop :=
  tick.toNat + n < 2 ^ 32 ∨ width = .word ∧ tick.toNat = 2 ^ 32 - 1

lemma reached_iff (hn : n < 2 ^ 31)
    (h : InTime width tick n) {j : ℕ} (hj : 0 < j) (hjn : j ≤ n) :
  Reached width tick n j ↔ j = n
  := by
  have := tick.isLt
  rw [Reached, toNat_add_ofNat]
  cases width with
  | word =>
    rw [deadline_word]
    rcases h with h | ⟨-, h⟩ <;> omega
  | long =>
    rw [deadline_long tick hn]
    rcases h with h | ⟨h, -⟩
    · omega
    · cases h

/-- A sum that wraps in 32 bits is reached at once. -/
lemma reached_word (hn : n < 2 ^ 31) (h : ¬InTime .word tick n) :
  1 < n ∧ Reached .word tick n 1
  := by
  have := tick.isLt
  rw [Reached, toNat_add_ofNat, deadline_word]
  simp only [InTime, true_and, not_or] at h
  omega

/-- A sum in 64 bits that exceeds 32 bits is never reached. -/
lemma not_reached_long (hn : n < 2 ^ 31) (h : ¬InTime .long tick n) (j : ℕ) :
  ¬Reached .long tick n j
  := by
  have := (tick + BitVec.ofNat 32 j).isLt
  rw [Reached, deadline_long tick hn]
  simp only [InTime, reduceCtorEq, false_and, or_false] at h
  omega

/-! ### Runs -/

variable {k k₀ k' : Kernel} {self : Tid} {tick now : BitVec 32} {i d : ℕ}

/-- The state of a sleeper. -/
structure Dozes (k : Kernel) (t : Tid) (d : ℕ) : Prop where
  awake : Awake k.toSched
  asleep : k.state t = .sleeping
  deadline : k.sleepUntil t = d

lemma dozes_sleep (h : Awake k.toSched) (hself : k.currentTask = some self)
    (hidle : k.idleTask ≠ some self) (d : ℕ) :
  ∃ k₀, SleepCall.step k (.sleep d) = some k₀ ∧ Dozes k₀ self d
  := by
  obtain ⟨s, hs, h', -, hasleep, hdeadline⟩ := h.sleep hself hidle d
  refine ⟨k.withSched s.yield, ?_, h', hasleep, hdeadline⟩
  rw [SleepCall.step, hself]
  simp only [hs]
  rfl

/-- A call that does not wake the sleeper. -/
lemma Dozes.call (h : Dozes k self d) {call : SleepCall} (hfair : call.Fair k)
    (hstep : call.step k = some k') (hsleep : k.state self = .sleeping → k'.state self = .sleeping) :
  Dozes k' self d
  := by
  obtain ⟨k₁, hk₁, h₁, hnaps⟩ := awake_step h.awake call hfair
  obtain rfl := some.inj (hstep.symm.trans hk₁)
  have hcurrent : k.currentTask ≠ some self := fun hself => h.awake.current self hself h.asleep
  have hasleep := hsleep h.asleep
  exact ⟨h₁, hasleep, (hnaps self hcurrent hasleep).2.trans h.deadline⟩

/-- A timer interrupt wakes the sleeper, or does not, depending on the deadline. -/
lemma Dozes.timer (h : Dozes k self d) (now : BitVec 32) :
  ∃ k', timerCallback now k = some (now + 1, k')
    ∧ (d ≤ (now + 1).toNat → k'.state self = .runnable ∧ k'.queued self)
    ∧ ((now + 1).toNat < d → Dozes k' self d)
  := by
  obtain ⟨s, hs, h', hdue, hlater⟩ := h.awake.timerTick_self (now + 1) h.asleep
  rw [h.deadline] at hdue hlater
  refine ⟨k.withSched s, by rw [timerCallback, hs]; rfl, hdue, ?_⟩
  intro hlt
  exact ⟨h', (hlater hlt).1, (hlater hlt).2⟩

lemma Undisturbed.now_eq (h : Undisturbed self tick k i now k') :
  now = tick + BitVec.ofNat 32 i
  := by
  induction h with
  | start => simp
  | call _ _ _ _ _ _ ih => exact ih
  | @timer i now now' k₁ k₂ _ hstep ih =>
    rw [timerCallback] at hstep
    obtain ⟨s, -, hs⟩ := map_eq_some_iff.mp hstep
    rw [← (Prod.mk.inj hs).1, ih, BitVec.add_assoc]
    rw [BitVec.ofNat_add]
    rfl

/-- The sleeper sleeps on as long as the deadline is not reached. -/
lemma Undisturbed.dozes (h : Undisturbed self tick k₀ i now k') (h₀ : Dozes k₀ self (deadline tick n width))
    (hlater : ∀ j, 0 < j → j ≤ i → ¬Reached width tick n j) :
  Dozes k' self (deadline tick n width)
  := by
  induction h with
  | start => exact h₀
  | call call _ _ hfair hstep hsleep ih => exact (ih hlater).call hfair hstep hsleep
  | @timer i now now' k₁ k₂ hrun hstep ih =>
    have hbefore := ih fun j hj hji => hlater j hj (by omega)
    obtain ⟨k₃, hk₃, -, hdozes⟩ := hbefore.timer now
    obtain ⟨rfl, rfl⟩ := Prod.mk.inj (some.inj (hstep.symm.trans hk₃))
    apply hdozes
    have hnot := hlater (i + 1) (by omega) le_rfl
    rw [Reached, ← (hrun.timer hstep).now_eq] at hnot
    omega

/-- Ticks can always pass without other calls. -/
lemma exists_undisturbed (h₀ : Dozes k₀ self (deadline tick n width))
    (hlater : ∀ j, 0 < j → j ≤ i → ¬Reached width tick n j) :
  ∃ now k', Undisturbed self tick k₀ i now k'
  := by
  induction i with
  | zero => exact ⟨tick, k₀, .start⟩
  | succ i ih =>
    obtain ⟨now, k', hrun⟩ := ih fun j hj hji => hlater j hj (by omega)
    have hdozes := hrun.dozes h₀ fun j hj hji => hlater j hj (by omega)
    obtain ⟨k'', hk'', -⟩ := hdozes.timer now
    exact ⟨now + 1, k'', hrun.timer hk''⟩

lemma wakesOnTime_of_inTime (hn : n < 2 ^ 31) (h : InTime width tick n) :
  WakesOnTime width tick n
  := by
  intro k k₀ self hawake hself hidle hsleep i now k' hrun
  obtain ⟨k₁, hk₁, h₀⟩ := dozes_sleep hawake hself hidle (deadline tick n width)
  obtain rfl := some.inj (hk₁.symm.trans hsleep)
  have hlater : i < n → ∀ j, 0 < j → j ≤ i → ¬Reached width tick n j := by
    intro hi j hj hji
    rw [reached_iff hn h hj (by omega)]
    omega
  refine ⟨fun hi => (hrun.dozes h₀ (hlater hi)).asleep, ?_⟩
  intro hi
  obtain ⟨k'', hk'', hdue, -⟩ := (hrun.dozes h₀ (hlater (by omega))).timer now
  refine ⟨k'', hk'', hdue ?_⟩
  have hreached := (reached_iff hn h (j := n) (by omega) le_rfl).mpr rfl
  rwa [Reached, ← hi, ← (hrun.timer hk'').now_eq, hi] at hreached

lemma inTime_of_wakesOnTime (hn : 0 < n) (hn' : n < 2 ^ 31) (h : WakesOnTime width tick n) :
  InTime width tick n
  := by
  by_contra hlate
  have hawake : Awake threeTasks.toSched := awake_init (fun _ => by decide) 1
  have hself : threeTasks.currentTask = some 1 := by decide +kernel
  have hidle : threeTasks.idleTask ≠ some 1 := by decide +kernel
  obtain ⟨k₀, hk₀, h₀⟩ := dozes_sleep hawake hself hidle (deadline tick n width)
  have hrun := h threeTasks k₀ 1 hawake hself hidle hk₀
  cases width with
  | word =>
    -- the first tick wakes the task, too early
    obtain ⟨hlt, hreached⟩ := reached_word hn' hlate
    obtain ⟨k', hk', hdue, -⟩ := h₀.timer tick
    have hstart : Undisturbed 1 tick k₀ 1 (tick + 1) k' := .timer .start hk'
    have hasleep := (hrun 1 _ k' hstart).1 hlt
    rw [(hdue hreached).1] at hasleep
    cases hasleep
  | long =>
    -- no tick ever wakes the task
    have hnever := not_reached_long hn' hlate
    obtain ⟨now, k', hpass⟩ := exists_undisturbed (i := n - 1) h₀ fun j _ _ => hnever j
    obtain ⟨k'', hk'', hrunnable, -⟩ := (hrun _ now k' hpass).2 (by omega)
    have hasleep := ((hpass.timer hk'').dozes h₀ fun j _ _ => hnever j).asleep
    rw [hrunnable] at hasleep
    cases hasleep

/-- A sleep of `n` ticks ends in time just if the deadline is reached before the counter wraps,
or was computed in 32 bits at the last tick before that. -/
theorem wakes_on_time_iff (width : Width) (tick : BitVec 32) (n : ℕ) (hn : 0 < n)
    (hn' : n < 2 ^ 31) :
  WakesOnTime width tick n
    ↔ tick.toNat + n < 2 ^ 32 ∨ width = .word ∧ tick.toNat = 2 ^ 32 - 1
  := ⟨inTime_of_wakesOnTime hn hn', wakesOnTime_of_inTime hn'⟩

theorem wakes_on_time_at_zero : 0 < 5 ∧ WakesOnTime .long 0 5
  := ⟨by decide, (wakes_on_time_iff .long 0 5 (by decide) (by decide)).mpr (.inl (by decide))⟩

/-- Two ticks before the wrap a sleep of two ticks ends after one, and a sleep of one tick by
`nanosleep` at the last tick does not end. -/
theorem sleep_across_wrap :
  (∃ k₀ k₁, SleepCall.step threeTasks (.sleep (deadline 0xFFFFFFFE 2 .word)) = some k₀
    ∧ timerCallback 0xFFFFFFFE k₀ = some (0xFFFFFFFF, k₁) ∧ k₁.state 1 = .runnable)
  ∧ ∃ k₀ k₁, SleepCall.step threeTasks (.sleep (deadline 0xFFFFFFFF 1 .long)) = some k₀
    ∧ timerCallback 0xFFFFFFFF k₀ = some (0, k₁) ∧ k₁.state 1 = .sleeping
  := by
  constructor
  · refine ⟨_, _, rfl, rfl, ?_⟩
    decide +kernel
  · refine ⟨_, _, rfl, rfl, ?_⟩
    decide +kernel

end Kernel
