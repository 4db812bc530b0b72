import StLib.Timers.PwmDuty

/-! # The dead time of a pair of outputs

`DualPWM::set_dead_time`. Numbers are rational where the code has `float`. -/
namespace StLib.Timers.DeadTime

open StLib.Timers.PwmDuty

/-- `clock_period_ns`. -/
def clockPeriodNs (clock : ℚ) : ℚ := 1000000000 / clock

/-- `(int64_t)`, which cuts towards zero. -/
def toInt64 (x : ℚ) : ℤ := if 0 ≤ x then ⌊x⌋ else ⌈x⌉

/-- `DeadTime` of what `set_dead_time` gives to the HAL, of a timer with a clock frequency; `none`
is a panic. -/
def setDeadTime (clock : ℚ) (deadTimeNs : ℤ) : Option (BitVec 32) :=
  let period := clockPeriodNs clock
  if deadTimeNs ≤ 127 * period then
    some (BitVec.ofNat 32 (toUint32 (deadTimeNs / period)))
  else if deadTimeNs ≤ 2 * period * 127 then
    some (0b10000000#32 ||| BitVec.ofNat 32 (toUint32 (deadTimeNs / (2 * period) - 64)))
  else if deadTimeNs ≤ 8 * period * 63 then
    let min := toInt64 (8 * period * 32)
    let time := if deadTimeNs < min then min else deadTimeNs
    some (0b11000000#32 ||| BitVec.ofNat 32 (toUint32 (time / (8 * period) - 32)))
  else if deadTimeNs ≤ 16 * period * 63 then
    let min := toInt64 (16 * period * 32)
    let time := if deadTimeNs < min then min else deadTimeNs
    some (0b11100000#32 ||| BitVec.ofNat 32 (toUint32 (time / (16 * period) - 32)))
  else none

/-! ## The code of the hardware -/

/-- The ranges of `DTG`. -/
inductive Range
  | range1
  | range2
  | range3
  | range4
deriving DecidableEq

namespace Range

/-- In periods of the clock. -/
def step : Range → Nat
  | range1 => 1
  | range2 => 2
  | range3 => 8
  | range4 => 16

/-- What is added to the low bits. -/
def base : Range → Nat
  | range1 => 0
  | range2 => 64
  | range3 => 32
  | range4 => 32

/-- How many bits are below the tag. -/
def bits : Range → Nat
  | range1 => 7
  | range2 => 6
  | range3 => 5
  | range4 => 5

/-- `DTG[7] = 0`, `DTG[7:6] = 0b10`, `DTG[7:5] = 0b110` or `0b111`. -/
def tag : Range → BitVec 32
  | range1 => 0
  | range2 => 0b10000000
  | range3 => 0b11000000
  | range4 => 0b11100000

/-- The shortest dead time of a range, and the longest. -/
def first (r : Range) : Nat := r.step * r.base

def last (r : Range) : Nat := r.step * (r.base + (2 ^ r.bits - 1))

/-- What the requests of a range are above. -/
def below : Range → ℚ
  | range1 => -1
  | range2 => 127
  | range3 => 254
  | range4 => 504

end Range

def rangeOf (dtg : BitVec 8) : Range :=
  if dtg.extractLsb' 7 1 = 0 then .range1
  else if dtg.extractLsb' 6 2 = 0b10 then .range2
  else if dtg.extractLsb' 5 3 = 0b110 then .range3
  else .range4

/-- The dead time that a code stands for, in periods of the clock. -/
def decoded (dtg : BitVec 8) : Nat :=
  (rangeOf dtg).step * ((rangeOf dtg).base + (dtg.extractLsb' 0 (rangeOf dtg).bits).toNat)

/-- A code of the requested dead time, off by less than one step of its range. -/
structure Quantised (period : ℚ) (deadTimeNs : ℤ) (code : BitVec 32) : Prop where
  fits : code.toNat < 2 ^ 8
  near : |(decoded (code.setWidth 8) : ℚ) * period - deadTimeNs| <
    (rangeOf (code.setWidth 8)).step * period

/-- The code for the low bits `n` of a range. -/
def encode (r : Range) (n : Nat) : BitVec 32 := r.tag ||| BitVec.ofNat 32 n

/-- It is decoded to what it was made of. -/
theorem decode_encode (r : Range) {n : Nat} (h : n < 2 ^ r.bits) :
    (encode r n).toNat < 2 ^ 8 ∧ rangeOf ((encode r n).setWidth 8) = r ∧
      decoded ((encode r n).setWidth 8) = r.step * (r.base + n) := by
  revert n
  cases r <;> decide

/-! ## Rounding in one range -/

/-- The low bits of a dead time in a range, before they are cut. -/
def quotient (period : ℚ) (r : Range) (time : ℚ) : ℚ := time / (r.step * period) - r.base

/-- The dead times that are given a code of a range. -/
structure Range.Takes (period : ℚ) (r : Range) (time : ℚ) : Prop where
  above : r.below * period < time
  upto : time ≤ r.last * period

section Rounding

variable {period : ℚ} (hperiod : 1 ≤ period)
include hperiod

theorem step_pos (r : Range) : 0 < (r.step : ℚ) * period := by
  have hstep : 0 < r.step := by cases r <;> decide
  have hcast : (0 : ℚ) < r.step := by exact_mod_cast hstep
  exact mul_pos hcast (lt_of_lt_of_le one_pos hperiod)

/-- The quotient, undone. -/
theorem quotient_mul (r : Range) (time : ℚ) :
    (r.base + quotient period r time) * (r.step * period) = time := by
  rw [quotient, add_sub_cancel, div_mul_cancel₀ _ (step_pos hperiod r).ne']

/-- Between two ranges the quotient is below zero, by less than one. -/
theorem quotient_gt {r : Range} {time : ℚ} (h : r.Takes period time) : -1 < quotient period r time := by
  have hgap : ((r.base : ℚ) - 1) * r.step ≤ r.below := by
    cases r <;> norm_num [Range.base, Range.step, Range.below]
  have hscaled := mul_le_mul_of_nonneg_right hgap (le_trans zero_le_one hperiod)
  have habove := h.above
  rw [quotient, lt_sub_iff_add_lt, lt_div_iff₀ (step_pos hperiod r)]
  linarith

theorem quotient_le {r : Range} {time : ℚ} (h : r.Takes period time) :
    quotient period r time ≤ (2 ^ r.bits - 1 : ℕ) := by
  have hupto := h.upto
  rw [Range.last] at hupto
  push_cast at hupto
  rw [quotient, sub_le_iff_le_add, div_le_iff₀ (step_pos hperiod r)]
  linarith

end Rounding

/-- What is cut to a register of 32 bits. -/
theorem toUint32_of_lt {x : ℚ} (h : x < 2 ^ 32) : toUint32 x = ⌊x⌋.toNat := by
  have hlt : ⌊x⌋ < 2 ^ 32 := Int.floor_lt.mpr (by exact_mod_cast h)
  unfold toUint32
  omega

theorem toUint32_of_neg {x : ℚ} (h : x < 1) : toUint32 x = 0 := by
  have hlt : ⌊x⌋ < 1 := Int.floor_lt.mpr (by exact_mod_cast h)
  unfold toUint32
  omega

theorem toUint32_mono {x y : ℚ} (h : x ≤ y) : toUint32 x ≤ toUint32 y := by
  have hfloor := Int.floor_le_floor h
  unfold toUint32
  omega

/-- Raised to the least dead time of a range, cut to a whole number, a dead time has the same
low bits. -/
theorem toUint32_clamped {period : ℚ} (hperiod : 1 ≤ period) (r : Range) (time : ℤ) :
    let min := toInt64 (r.first * period)
    toUint32 (quotient period r (if time < min then min else time : ℤ)) =
      toUint32 (quotient period r time) := by
  intro min
  split
  · rename_i hless
    have hfirst : (0 : ℚ) ≤ r.first * period := mul_nonneg (Nat.cast_nonneg _) (by linarith)
    have hmin : (min : ℚ) ≤ r.first * period := by
      change ((toInt64 (r.first * period) : ℤ) : ℚ) ≤ _
      rw [toInt64, if_pos hfirst]
      exact Int.floor_le _
    have htime : (time : ℚ) ≤ r.first * period := by
      have hcast : (time : ℚ) ≤ min := by exact_mod_cast hless.le
      linarith
    have hzero {x : ℚ} (hx : x ≤ r.first * period) : quotient period r x < 1 := by
      have hle : x / (r.step * period) ≤ r.base := by
        rw [div_le_iff₀ (step_pos hperiod r)]
        rw [Range.first] at hx
        push_cast at hx
        linarith
      rw [quotient]
      linarith
    rw [toUint32_of_neg (hzero hmin), toUint32_of_neg (hzero htime)]
  · rfl

/-- What is cut off is less than one, also just below zero. -/
theorem toUint32_near {x : ℚ} (h0 : -1 < x) (h : x < 2 ^ 32) : |(toUint32 x : ℚ) - x| < 1 := by
  have hlow := Int.floor_le x
  have hhigh := Int.lt_floor_add_one x
  rw [toUint32_of_lt h, abs_lt]
  by_cases hneg : x < 0
  · have hfloor : ⌊x⌋.toNat = 0 := Int.toNat_of_nonpos (Int.floor_lt.mpr (by exact_mod_cast hneg)).le
    rw [hfloor, Nat.cast_zero]
    constructor <;> linarith
  · have hfloor : 0 ≤ ⌊x⌋ := Int.floor_nonneg.mpr (not_lt.mp hneg)
    have hcast : ((⌊x⌋.toNat : ℕ) : ℚ) = (⌊x⌋ : ℤ) := by exact_mod_cast Int.toNat_of_nonneg hfloor
    rw [hcast]
    constructor <;> linarith

/-! ## Every dead time -/

/-- The low bits of a dead time in a range. -/
def lowBits (period : ℚ) (r : Range) (time : ℚ) : Nat := toUint32 (quotient period r time)

section Every

variable {period : ℚ} (hperiod : 1 ≤ period) {r : Range} {time : ℤ} (h : r.Takes period time)
include hperiod h

theorem lowBits_lt : lowBits period r time < 2 ^ r.bits := by
  have hle := quotient_le hperiod h
  have hpos : 0 < 2 ^ r.bits := Nat.two_pow_pos _
  have hbits : 2 ^ r.bits ≤ 2 ^ 7 := Nat.pow_le_pow_right two_pos (by cases r <;> decide)
  have hfloor : ⌊quotient period r time⌋ ≤ (2 ^ r.bits - 1 : ℕ) :=
    Int.floor_le_iff.mpr (by push_cast at hle ⊢; linarith)
  unfold lowBits toUint32
  omega

theorem decoded_lowBits :
    decoded ((encode r (lowBits period r time)).setWidth 8) = r.step * (r.base + lowBits period r time) :=
  (decode_encode r (lowBits_lt hperiod h)).2.2

theorem quantised_encode : Quantised period time (encode r (lowBits period r time)) := by
  obtain ⟨hfits, hrange, hdecoded⟩ := decode_encode r (lowBits_lt hperiod h)
  have hlt : quotient period r time < 2 ^ 32 := by
    have hle := quotient_le hperiod h
    have hbits : ((2 ^ r.bits - 1 : ℕ) : ℚ) < 2 ^ 32 := by
      cases r <;> norm_num [Range.bits]
    linarith
  have hcut := toUint32_near (quotient_gt hperiod h) hlt
  have hdiff : ((r.step * (r.base + lowBits period r time) : ℕ) : ℚ) * period - time =
      (lowBits period r time - quotient period r time) * (r.step * period) := by
    have htime := quotient_mul hperiod r time
    push_cast
    linear_combination htime
  refine ⟨hfits, ?_⟩
  rw [hdecoded, hrange, hdiff, abs_mul, abs_of_pos (step_pos hperiod r)]
  exact mul_lt_of_lt_one_left (step_pos hperiod r) hcut

theorem first_le_decoded : r.first ≤ decoded ((encode r (lowBits period r time)).setWidth 8) := by
  rw [decoded_lowBits hperiod h]
  exact Nat.mul_le_mul_left _ (Nat.le_add_right _ _)

theorem decoded_le_last : decoded ((encode r (lowBits period r time)).setWidth 8) ≤ r.last := by
  have hlt := lowBits_lt hperiod h
  rw [decoded_lowBits hperiod h]
  exact Nat.mul_le_mul_left _ (by omega)

end Every

/-- The ranges follow each other. -/
theorem ranges_apart (r r' : Range) : r = r' ∨ r.last ≤ r'.first ∨ (r'.last : ℚ) ≤ r.below := by
  cases r <;> cases r' <;> norm_num [Range.last, Range.first, Range.step, Range.base, Range.bits, Range.below]

theorem decoded_mono {period : ℚ} (hperiod : 1 ≤ period) {r r' : Range} {time time' : ℤ}
    (hle : time ≤ time') (h : r.Takes period time) (h' : r'.Takes period time') :
    decoded ((encode r (lowBits period r time)).setWidth 8) ≤
      decoded ((encode r' (lowBits period r' time')).setWidth 8) := by
  have hcast : (time : ℚ) ≤ time' := by exact_mod_cast hle
  rcases ranges_apart r r' with rfl | hnext | hprevious
  · have hquotient : quotient period r time ≤ quotient period r time' :=
      sub_le_sub_right (div_le_div_of_nonneg_right hcast (step_pos hperiod r).le) _
    rw [decoded_lowBits hperiod h, decoded_lowBits hperiod h']
    exact Nat.mul_le_mul_left _ (Nat.add_le_add_left (toUint32_mono hquotient) _)
  · exact (decoded_le_last hperiod h).trans (hnext.trans (first_le_decoded hperiod h'))
  · have hscaled := mul_le_mul_of_nonneg_right hprevious (le_trans zero_le_one hperiod)
    linarith [h.above, h'.upto]

theorem last_mul (r : Range) (period : ℚ) :
    (r.last : ℚ) * period = match r with
      | .range1 => 127 * period
      | .range2 => 2 * period * 127
      | .range3 => 8 * period * 63
      | .range4 => 16 * period * 63 := by
  cases r <;> norm_num [Range.last, Range.step, Range.base, Range.bits] <;> ring

/-- A dead time is given the code of its range. -/
theorem setDeadTime_eq {clock : ℚ} (hperiod : 1 ≤ clockPeriodNs clock) {time : ℤ} (h0 : 0 ≤ time)
    (h : time ≤ 1008 * clockPeriodNs clock) :
    ∃ r : Range, r.Takes (clockPeriodNs clock) time ∧
      setDeadTime clock time = some (encode r (lowBits (clockPeriodNs clock) r time)) := by
  have hnonneg : (0 : ℚ) ≤ time := by exact_mod_cast h0
  unfold setDeadTime
  generalize clockPeriodNs clock = period at *
  have hclamped := toUint32_clamped hperiod
  by_cases h1 : (time : ℚ) ≤ 127 * period
  · refine ⟨.range1, ⟨?_, (last_mul .range1 period).symm ▸ h1⟩, ?_⟩
    · change -1 * period < time
      linarith
    · have hquotient : (time : ℚ) / period = quotient period .range1 time := by
        simp [quotient, Range.step, Range.base]
      rw [if_pos h1, encode, Range.tag, lowBits, hquotient]
      exact congrArg some (BitVec.zero_or).symm
  by_cases h2 : (time : ℚ) ≤ 2 * period * 127
  · refine ⟨.range2, ⟨not_le.mp h1, (last_mul .range2 period).symm ▸ h2⟩, ?_⟩
    rw [if_neg h1, if_pos h2]
    rfl
  by_cases h3 : (time : ℚ) ≤ 8 * period * 63
  · refine ⟨.range3, ⟨?_, (last_mul .range3 period).symm ▸ h3⟩, ?_⟩
    · change 254 * period < time
      linarith
    · have hmin : ((Range.first .range3 : ℕ) : ℚ) * period = 8 * period * 32 := by
        norm_num [Range.first, Range.step, Range.base]
        ring
      have hbits := hclamped .range3 time
      rw [hmin] at hbits
      rw [if_neg h1, if_neg h2, if_pos h3, encode, lowBits, ← hbits]
      rfl
  · have h4 : (time : ℚ) ≤ 16 * period * 63 := by linarith
    refine ⟨.range4, ⟨?_, (last_mul .range4 period).symm ▸ h4⟩, ?_⟩
    · change 504 * period < time
      linarith
    · have hmin : ((Range.first .range4 : ℕ) : ℚ) * period = 16 * period * 32 := by
        norm_num [Range.first, Range.step, Range.base]
        ring
      have hbits := hclamped .range4 time
      rw [hmin] at hbits
      rw [if_neg h1, if_neg h2, if_neg h3, if_pos h4, encode, lowBits, ← hbits]
      rfl

/-- Every dead time of up to 1008 periods of the clock gets a code that is off by less than one
step, and a longer one no code of a shorter one. -/
theorem set_dead_time_quantised {clock : ℚ} (hperiod : 1 ≤ clockPeriodNs clock) :
    (∀ time : ℤ, 0 ≤ time → time ≤ 1008 * clockPeriodNs clock →
      ∃ code, setDeadTime clock time = some code ∧ Quantised (clockPeriodNs clock) time code) ∧
    ∀ time time' : ℤ, 0 ≤ time → time ≤ time' → time' ≤ 1008 * clockPeriodNs clock →
      ∃ code code', setDeadTime clock time = some code ∧ setDeadTime clock time' = some code' ∧
        decoded (code.setWidth 8) ≤ decoded (code'.setWidth 8) := by
  constructor
  · intro time h0 h
    obtain ⟨r, htakes, heq⟩ := setDeadTime_eq hperiod h0 h
    exact ⟨_, heq, quantised_encode hperiod htakes⟩
  · intro time time' h0 hle h
    have hcast : (time : ℚ) ≤ time' := by exact_mod_cast hle
    obtain ⟨r, htakes, heq⟩ := setDeadTime_eq hperiod h0 (hcast.trans h)
    obtain ⟨r', htakes', heq'⟩ := setDeadTime_eq hperiod (h0.trans hle) h
    exact ⟨_, _, heq, heq', decoded_mono hperiod hle htakes htakes'⟩

theorem set_dead_time_quantised_200 :
    ∃ code, setDeadTime 200000000 1000 = some code ∧ Quantised (clockPeriodNs 200000000) 1000 code :=
  (set_dead_time_quantised (by norm_num [clockPeriodNs])).1 1000 (by norm_num) (by norm_num [clockPeriodNs])

end StLib.Timers.DeadTime
