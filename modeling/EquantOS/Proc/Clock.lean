import EquantOS.Proc.TimedWake

/-!
# Clocks

The timer ticks 250 times a second, and so counts `CLOCK_MONOTONIC`.  The wall clocks and
`nanosleep` take 100 ticks for a second.
-/

namespace Kernel

def timerHz : ℕ := 250

/-- `rtc_get_unix_timestamp`; `boot` is `boot_epoch_seconds`. -/
def rtcGetUnixTimestamp (boot : ℕ) (tick : BitVec 32) : ℕ :=
  boot + tick.toNat / 100

def clockGettime (boot clockId : ℕ) (tick : BitVec 32) : ℕ × ℕ :=
  if clockId ∈ [1, 4, 6, 7] then
    (tick.toNat / timerHz, tick.toNat % timerHz * (1000000000 / timerHz))
  else (rtcGetUnixTimestamp boot tick, tick.toNat % 100 * 10000000)

def gettimeofday (boot : ℕ) (tick : BitVec 32) : ℕ × ℕ :=
  (rtcGetUnixTimestamp boot tick, tick.toNat % 100 * 10000)

/-- What a `nanosleep` from `tick` on waits for before it returns at `now`. -/
def Nanosleep (tick : BitVec 32) (sec nsec : ℕ) (now : BitVec 32) : Prop :=
  let target := deadline tick (sec * 100 + nsec / 10000000) .long
  tick.toNat < target → target ≤ now.toNat

/-- Seconds and a part of a second in nanoseconds. -/
def nanos (unit : ℕ) (time : ℕ × ℕ) : ℕ :=
  time.1 * 1000000000 + time.2 * unit

def monotonic (tick : BitVec 32) : ℕ := nanos 1 (clockGettime 0 1 tick)

/-- `CLOCK_REALTIME` and `gettimeofday`. -/
def wall (boot : ℕ) (tick : BitVec 32) : Bool → ℕ
  | true => nanos 1 (clockGettime boot 0 tick)
  | false => nanos 1000 (gettimeofday boot tick)

def SleepsFor (tick : BitVec 32) (sec nsec : ℕ) : Prop :=
  ∀ now : BitVec 32, tick.toNat ≤ now.toNat → Nanosleep tick sec nsec now →
    monotonic tick + nanos 1 (sec, nsec) ≤ monotonic now

lemma monotonic_eq (tick : BitVec 32) : monotonic tick = tick.toNat * 4000000
  := by
  change tick.toNat / 250 * 1000000000 + tick.toNat % 250 * 4000000 * 1 = _
  omega

lemma wall_eq (boot : ℕ) (tick : BitVec 32) (clock : Bool) :
  wall boot tick clock = boot * 1000000000 + tick.toNat * 10000000
  := by
  cases clock
  · change (boot + tick.toNat / 100) * 1000000000 + tick.toNat % 100 * 10000 * 1000 = _
    omega
  · change (boot + tick.toNat / 100) * 1000000000 + tick.toNat % 100 * 10000000 * 1 = _
    omega

/-- A sleep lasts as long as asked just if that is no time at all or the counter wraps before.  The
wall clocks never go back, and keep to the monotonic clock for 166 ticks. -/
theorem clocks_consistent_iff
    {sec nsec : ℕ} {t₁ t₂ : BitVec 32} (hsec : sec < 2 ^ 24) (hnsec : nsec < 1000000000)
    (h : t₁.toNat ≤ t₂.toNat) (tick : BitVec 32) (boot : ℕ) (clock : Bool) :
  (SleepsFor tick sec nsec
    ↔ sec = 0 ∧ nsec = 0 ∨ 2 ^ 32 ≤ tick.toNat + (sec * 100 + nsec / 10000000))
  ∧ wall boot t₁ clock ≤ wall boot t₂ clock
  ∧ (((wall boot t₂ clock - wall boot t₁ clock : ℤ) - (monotonic t₂ - monotonic t₁)).natAbs
      ≤ 1000000000 ↔ t₂.toNat - t₁.toNat ≤ 166)
  := by
  have hn : sec * 100 + nsec / 10000000 < 2 ^ 31 := by omega
  simp only [SleepsFor, Nanosleep, wall_eq, monotonic_eq, nanos, deadline_long tick hn]
  refine ⟨⟨fun hsleep => ?_, fun hfar now hle hnow => ?_⟩, by omega, by omega⟩
  · by_contra hnot
    -- the call returns at its target
    have hnow := hsleep (tick + BitVec.ofNat 32 (sec * 100 + nsec / 10000000))
    rw [toNat_add_ofNat, Nat.mod_eq_of_lt (by omega)] at hnow
    omega
  · have := now.isLt
    omega

/-- A sleep of no time at tick 700, one of two seconds shortly before the counter wraps, and the clocks between
the ticks 700 and 866. -/
theorem clocks_consistent_at_wrap :
  SleepsFor 700 0 0 ∧ SleepsFor (2 ^ 32 - 100) 2 500
    ∧ ((wall 1700000000 866 true - wall 1700000000 700 true : ℤ) - (monotonic 866 - monotonic 700)).natAbs
      ≤ 1000000000
  := by
  have hlater : (700 : BitVec 32).toNat ≤ (866 : BitVec 32).toNat := by decide
  obtain ⟨hnone, -⟩ := @clocks_consistent_iff 0 0 _ _ (by decide) (by decide) hlater 700 1700000000 true
  obtain ⟨htwo, -, hwall⟩ :=
    @clocks_consistent_iff 2 500 _ _ (by decide) (by decide) hlater (2 ^ 32 - 100) 1700000000 true
  exact ⟨hnone.mpr (.inl ⟨rfl, rfl⟩), htwo.mpr (.inr (by decide)), hwall.mpr (by decide)⟩

/-- A sleep of a second ends after 400 ms, and the wall clocks advance by 2.5 seconds in one. -/
theorem sleep_second_short :
  ¬ SleepsFor 0 1 0 ∧ wall 0 500 true = wall 0 0 true + 5000000000 ∧ monotonic 500 = 2000000000
  := by
  refine ⟨fun h => ?_, by decide, by decide⟩
  have := h 100 (by decide) (fun _ => by decide)
  revert this
  decide

end Kernel
