import StLib.Timers.PwmDuty

/-! # Accuracy of the frequency of the PWM outputs of one timer -/
namespace StLib.Timers.PwmFrequency

open StLib.Timers.PwmDuty

/-- `get_frequency`; every output has a pointer to the frequency of the timer. -/
def getFrequency (_ : Output) (s : State) : BitVec 32 := s.frequency

/-- The periods in a second of the counter. -/
def periods (timer : Timer) (frequency : BitVec 32) : Nat :=
  if timer.centerAligned then 2 * frequency.toNat else frequency.toNat

/-- The counts of the clock in a period of the counter. -/
def divisor (timer : Timer) (frequency : BitVec 32) : Nat :=
  (timer.psc.toNat + 1) * periods timer frequency

/-- The exact number of counts in a period. -/
def counts (timer : Timer) (frequency : BitVec 32) : ℚ :=
  timer.clock.toNat / divisor timer frequency

/-- A frequency of at least 1 that is not above half the counter clock. -/
structure Supported (timer : Timer) (frequency : BitVec 32) : Prop where
  pos : 1 ≤ frequency.toNat
  half : 2 * ((timer.psc.toNat + 1) * frequency.toNat) ≤ timer.clock.toNat

/-- What a call for a frequency is for. -/
structure Accurate (timer : Timer) (mode : Mode) (frequency : BitVec 32) (s : State) : Prop where
  fits : timer.limit mode (timer.counted frequency) < 2 ^ timer.width.bits
  near : |((timer.setPwmFrequency mode frequency s).arr : ℚ) + 1 - counts timer frequency| < 1
  reported : ∀ o, timer.used o.channel = true →
    getFrequency o (timer.setPwmFrequency mode frequency s) = frequency

/-- The counts of a period, as they are rounded, fit in the counter. -/
def Fits (timer : Timer) (mode : Mode) (frequency : BitVec 32) : Prop :=
  match mode with
  | .speed => timer.clock.toNat < 2 ^ timer.width.bits * divisor timer frequency
  | .precision => 2 * timer.clock.toNat < (2 * 2 ^ timer.width.bits + 1) * divisor timer frequency

/-- A timer that is center aligned reports the double, and the quick mode is a count off where
the quotient is exact. -/
structure Serves (timer : Timer) (mode : Mode) (frequency : BitVec 32) : Prop where
  fits : Fits timer mode frequency
  inexact : mode = .speed → ¬ divisor timer frequency ∣ timer.clock.toNat
  edge : timer.centerAligned = true → ∀ o : Output, timer.used o.channel = false

section Supported

variable {timer : Timer} {mode : Mode} {f : BitVec 32} (h : Supported timer f)
include h

/-- The double is not above the clock. -/
theorem double_le : 2 * f.toNat ≤ timer.clock.toNat := by
  have hscaled := Nat.le_mul_of_pos_left (2 * f.toNat) (Nat.succ_pos timer.psc.toNat)
  calc 2 * f.toNat ≤ (timer.psc.toNat + 1) * (2 * f.toNat) := hscaled
    _ = 2 * ((timer.psc.toNat + 1) * f.toNat) := Nat.mul_left_comm ..
    _ ≤ timer.clock.toNat := h.half

theorem double_toNat : (2 * f).toNat = 2 * f.toNat := by
  have hle := double_le h
  have hclock := timer.clock.isLt
  rw [BitVec.toNat_mul]
  exact Nat.mod_eq_of_lt (by change 2 * f.toNat < 2 ^ 32; omega)

theorem counted_toNat : (timer.counted f).toNat = periods timer f := by
  unfold Timer.counted periods
  split
  · exact double_toNat h
  · rfl

theorem periods_pos : 0 < periods timer f := by
  have hpos := h.pos
  unfold periods
  split <;> omega

theorem divisor_pos : 0 < divisor timer f := Nat.mul_pos (Nat.succ_pos _) (periods_pos h)

theorem divisor_le : divisor timer f ≤ timer.clock.toNat := by
  have hdouble : periods timer f ≤ 2 * f.toNat := by
    unfold periods
    split <;> omega
  calc divisor timer f ≤ (timer.psc.toNat + 1) * (2 * f.toNat) := Nat.mul_le_mul_left _ hdouble
    _ = 2 * ((timer.psc.toNat + 1) * f.toNat) := Nat.mul_left_comm ..
    _ ≤ timer.clock.toNat := h.half

theorem one_le_counts : 1 ≤ counts timer f := by
  have hpos : (0 : ℚ) < divisor timer f := by exact_mod_cast divisor_pos h
  rw [counts, one_le_div hpos]
  exact_mod_cast divisor_le h

theorem counts_lt : counts timer f < 2 ^ 32 := by
  have hpos : (1 : ℚ) ≤ divisor timer f := by exact_mod_cast divisor_pos h
  have hclock : (timer.clock.toNat : ℚ) < 2 ^ 32 := by exact_mod_cast timer.clock.isLt
  exact lt_of_le_of_lt (div_le_self (Nat.cast_nonneg _) hpos) hclock

/-- The quick mode divides twice, and cuts once. -/
theorem limit_speed : timer.limit .speed (timer.counted f) = timer.clock.toNat / divisor timer f := by
  rw [Timer.limit, counted_toNat h, Nat.div_div_eq_div_mul, divisor]

/-- The other one rounds what is below the counts of a period by one. -/
theorem limit_precision : (timer.limit .precision (timer.counted f) : ℤ) = ⌊counts timer f - 1 / 2⌋ := by
  have hne : timer.counted f ≠ 0 := by
    intro hzero
    have hpos := periods_pos h
    rw [← counted_toNat h, hzero] at hpos
    exact absurd hpos (lt_irrefl _)
  have hcounts : (timer.clock.toNat : ℚ) / ((timer.psc.toNat + 1) * (timer.counted f).toNat) =
      counts timer f := by
    rw [counted_toNat h, counts, divisor]
    push_cast
    rfl
  have hlow := one_le_counts h
  have hhigh := counts_lt h
  rw [Timer.limit, if_neg hne, hcounts]
  exact toUint32_eq (by linarith) (by linarith)

theorem fits_iff : timer.limit mode (timer.counted f) < 2 ^ timer.width.bits ↔ Fits timer mode f := by
  have hpos := divisor_pos h
  cases mode with
  | speed => rw [limit_speed h, Fits, Nat.div_lt_iff_lt_mul hpos]
  | precision =>
    have hposq : (0 : ℚ) < divisor timer f := by exact_mod_cast hpos
    have hcast : ((2 ^ timer.width.bits : ℕ) : ℤ) = 2 ^ timer.width.bits := by push_cast; rfl
    rw [Fits, ← Nat.cast_lt (α := ℤ), limit_precision h, hcast, Int.floor_lt, sub_lt_iff_lt_add, counts,
      div_lt_iff₀ hposq, ← Nat.cast_lt (α := ℚ)]
    push_cast
    constructor <;> intro hlt <;> linarith

/-- Cut, the counts of a period are one too many where nothing is cut off. -/
theorem near_speed :
    |((timer.limit .speed (timer.counted f) : ℕ) : ℚ) + 1 - counts timer f| < 1 ↔
      ¬ divisor timer f ∣ timer.clock.toNat := by
  have hpos : (0 : ℚ) < divisor timer f := by exact_mod_cast divisor_pos h
  have hrest := Nat.mod_lt timer.clock.toNat (divisor_pos h)
  have hsplit : counts timer f = (timer.clock.toNat / divisor timer f : ℕ) +
      ((timer.clock.toNat % divisor timer f : ℕ) : ℚ) / divisor timer f := by
    rw [counts, div_eq_iff hpos.ne', add_mul, div_mul_cancel₀ _ hpos.ne']
    exact_mod_cast (Nat.div_add_mod' timer.clock.toNat (divisor timer f)).symm
  have hpart : ((timer.clock.toNat % divisor timer f : ℕ) : ℚ) / divisor timer f < 1 := by
    rw [div_lt_one hpos]
    exact_mod_cast hrest
  have hdiff : ((timer.clock.toNat / divisor timer f : ℕ) : ℚ) + 1 - counts timer f =
      1 - ((timer.clock.toNat % divisor timer f : ℕ) : ℚ) / divisor timer f := by
    rw [hsplit]
    ring
  rw [limit_speed h, hdiff, abs_of_pos (sub_pos.mpr hpart), sub_lt_self_iff, Nat.dvd_iff_mod_eq_zero,
    div_pos_iff_of_pos_right hpos, Nat.cast_pos, Nat.pos_iff_ne_zero]

theorem near_precision :
    |((timer.limit .precision (timer.counted f) : ℕ) : ℚ) + 1 - counts timer f| ≤ 1 / 2 := by
  have hfloor : ((timer.limit .precision (timer.counted f) : ℕ) : ℚ) = (⌊counts timer f - 1 / 2⌋ : ℤ) := by
    exact_mod_cast limit_precision h
  have hlow := Int.floor_le (counts timer f - 1 / 2)
  have hhigh := Int.lt_floor_add_one (counts timer f - 1 / 2)
  rw [hfloor, abs_le]
  constructor <;> linarith

theorem near_iff :
    |((timer.limit mode (timer.counted f) : ℕ) : ℚ) + 1 - counts timer f| < 1 ↔
      (mode = .speed → ¬ divisor timer f ∣ timer.clock.toNat) := by
  cases mode with
  | speed => rw [near_speed h, imp_iff_right rfl]
  | precision =>
    have hnear := near_precision h
    exact iff_of_true (by linarith) nofun

/-- A frequency of at least 1 is not its double. -/
theorem counted_eq_iff : timer.counted f = f ↔ timer.centerAligned = false := by
  have hpos := h.pos
  unfold Timer.counted
  cases timer.centerAligned with
  | false => exact iff_of_true rfl rfl
  | true =>
    have hne : 2 * f ≠ f := by
      intro heq
      have hdouble := double_toNat h
      rw [heq] at hdouble
      omega
    exact iff_of_false hne Bool.noConfusion

theorem reported_iff (s : State) :
    (∀ o, timer.used o.channel = true → getFrequency o (timer.setPwmFrequency mode f s) = f) ↔
      (timer.centerAligned = true → ∀ o : Output, timer.used o.channel = false) := by
  have hreads (o : Output) : getFrequency o (timer.setPwmFrequency mode f s) = f ↔
      timer.centerAligned = false := counted_eq_iff h
  simp only [hreads]
  cases timer.centerAligned with
  | false => simp
  | true => simp

/-- A call for a frequency does what it is for exactly when the counts of a period fit, the timer
is edge aligned or has no outputs, and the quick mode cuts something off. -/
theorem set_pwm_frequency_iff (mode : Mode) (s : State) :
    Accurate timer mode f s ↔ Serves timer mode f := by
  have harr (hfits : timer.limit mode (timer.counted f) < 2 ^ timer.width.bits) :
      (timer.setPwmFrequency mode f s).arr = timer.limit mode (timer.counted f) :=
    Nat.mod_eq_of_lt hfits
  constructor
  · intro hacc
    have hnear := hacc.near
    rw [harr hacc.fits] at hnear
    exact ⟨(fits_iff h).mp hacc.fits, (near_iff h).mp hnear, (reported_iff h s).mp hacc.reported⟩
  · intro hserves
    have hfits := (fits_iff h).mpr hserves.fits
    refine ⟨hfits, ?_, (reported_iff h s).mpr hserves.edge⟩
    rw [harr hfits]
    exact (near_iff h).mpr hserves.inexact

end Supported

/-- 20 kHz of 275 MHz, with one output. -/
def sample (centerAligned : Bool) : Timer where
  width := .bits16
  clock := 275000000
  psc := 0
  centerAligned
  used := fun i => i = 0

theorem sample_supported (centerAligned : Bool) : Supported (sample centerAligned) 20000 :=
  ⟨by decide, by change 2 * (1 * 20000) ≤ 275000000; norm_num⟩

theorem set_pwm_frequency_iff_edge :
    Accurate (sample false) .precision 20000 ⟨0, fun _ => 0, fun _ => 0, 0⟩ ↔
      Serves (sample false) .precision 20000 :=
  set_pwm_frequency_iff (sample_supported false) _ _

/-- A center aligned timer reports 40 kHz. -/
theorem center_reports_double :
    ¬ Accurate (sample true) .precision 20000 ⟨0, fun _ => 0, fun _ => 0, 0⟩ := by
  intro h
  have hreported := h.reported (.pwm 0) rfl
  exact absurd hreported (by decide)

end StLib.Timers.PwmFrequency
