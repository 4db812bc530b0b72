import StLib.Base.FinLiterals
import StLib.Base.Runs

/-! # Duty cycles of the PWM outputs of one timer

`TimerWrapper::set_pwm_frequency`, and `set_duty_cycle`, `set_timer_frequency` and
`configure` of `PWM` and `DualPWM`. Numbers are rational where the code has `float`; a
number that the type it is cast to does not hold becomes the nearest that it does, as on
the processor. -/
namespace StLib.Timers.PwmDuty

open StLib.Base.Runs

/-- `is_32bit_instance`, and the width of `ARR` and of the compare registers. -/
inductive Width
  | bits16
  | bits32
deriving DecidableEq

def Width.bits : Width → Nat
  | bits16 => 16
  | bits32 => 32

inductive Mode
  | speed
  | precision
deriving DecidableEq

/-- `DEFAULT_PWM_FREQUENCY_MODE`. -/
def defaultMode : Mode := .precision

/-- What the calls leave as it is; `used` are the channels of the outputs. -/
structure Timer where
  width : Width
  clock : BitVec 32
  psc : BitVec 16
  centerAligned : Bool
  used : Fin 4 → Bool

/-- `duties` is `pwm_channel_duties`, to which the outputs have pointers. -/
structure State where
  arr : Nat
  ccr : Fin 4 → Nat
  duties : Fin 4 → ℚ
  frequency : BitVec 32

/-- `(uint32_t)`. -/
def toUint32 (x : ℚ) : Nat := min ⌊x⌋.toNat (2 ^ 32 - 1)

/-- `(uint16_t)`, by way of 32 bits. -/
def toUint16 (x : ℚ) : Nat := toUint32 x % 2 ^ 16

/-- `raw_duty`; `ARR + 1` is an `uint32_t`. -/
def rawDuty (width : Width) (arr : Nat) (duty : ℚ) : Nat :=
  let x := ((arr + 1) % 2 ^ 32 : Nat) * (duty / 100)
  match width with
  | .bits16 => toUint16 x
  | .bits32 => toUint32 x

namespace Timer

variable (timer : Timer)

/-- The frequency that is counted with. -/
def counted (frequency : BitVec 32) : BitVec 32 :=
  if timer.centerAligned then 2 * frequency else frequency

/-- What `ARR` is set to. A quotient by zero is zero for the processor, and infinite in
`float`. -/
def limit (mode : Mode) (frequency : BitVec 32) : Nat :=
  match mode with
  | .speed => timer.clock.toNat / (timer.psc.toNat + 1) / frequency.toNat
  | .precision =>
    if frequency = 0 then 2 ^ 32 - 1
    else toUint32 (timer.clock.toNat / ((timer.psc.toNat + 1) * frequency.toNat) - 1 / 2)

/-- `ARR` after a call for a frequency. -/
def period (mode : Mode) (frequency : BitVec 32) : Nat :=
  timer.limit mode (timer.counted frequency) % 2 ^ timer.width.bits

/-- `set_pwm_frequency`. -/
def setPwmFrequency (mode : Mode) (frequency : BitVec 32) (s : State) : State :=
  let s := { s with frequency := timer.counted frequency, arr := timer.period mode frequency }
  { s with
    ccr := fun i => if s.duties i ≠ 0 then rawDuty timer.width s.arr (s.duties i) else s.ccr i }

/-- What `PWM` and `DualPWM` have in common; `i` is the channel of the output. -/
def setDutyCycle (i : Fin 4) (duty : ℚ) (s : State) : State :=
  if duty ≤ 0 then
    { s with ccr := Function.update s.ccr i 0, duties := Function.update s.duties i 0 }
  else
    let duty := if duty > 100 then 100 else duty
    { s with
      ccr := Function.update s.ccr i (rawDuty timer.width s.arr duty)
      duties := Function.update s.duties i duty }

def configure (i : Fin 4) (frequency : BitVec 32) (duty : ℚ) (s : State) : State :=
  setPwmFrequency timer defaultMode frequency { s with duties := Function.update s.duties i duty }

end Timer

/-- An output, with its channel. -/
inductive Output
  | pwm (channel : Fin 4)
  | dualPwm (channel : Fin 4)
deriving DecidableEq

namespace PWM

def setDutyCycle (timer : Timer) (channel : Fin 4) : ℚ → State → State :=
  timer.setDutyCycle channel

def setTimerFrequency (timer : Timer) : Mode → BitVec 32 → State → State := timer.setPwmFrequency

def configure (timer : Timer) (channel : Fin 4) : BitVec 32 → ℚ → State → State :=
  timer.configure channel

end PWM

namespace DualPWM

def setDutyCycle (timer : Timer) (channel : Fin 4) : ℚ → State → State :=
  timer.setDutyCycle channel

def setTimerFrequency (timer : Timer) : Mode → BitVec 32 → State → State := timer.setPwmFrequency

/-- The dead time that it sets, too, is in another register. -/
def configure (timer : Timer) (channel : Fin 4) : BitVec 32 → ℚ → State → State :=
  timer.configure channel

end DualPWM

namespace Output

def channel : Output → Fin 4
  | pwm i => i
  | dualPwm i => i

/-- `get_duty_cycle`. -/
def getDutyCycle (o : Output) (s : State) : ℚ := s.duties o.channel

def setDutyCycle (timer : Timer) : Output → ℚ → State → State
  | pwm i => PWM.setDutyCycle timer i
  | dualPwm i => DualPWM.setDutyCycle timer i

def setTimerFrequency (timer : Timer) : Output → Mode → BitVec 32 → State → State
  | pwm _ => PWM.setTimerFrequency timer
  | dualPwm _ => DualPWM.setTimerFrequency timer

def configure (timer : Timer) : Output → BitVec 32 → ℚ → State → State
  | pwm i => PWM.configure timer i
  | dualPwm i => DualPWM.configure timer i

end Output

/-! ## Runs -/

inductive Event
  | setDutyCycle (o : Output) (duty : ℚ)
  | setTimerFrequency (o : Output) (mode : Mode) (frequency : BitVec 32)
  | configure (o : Output) (frequency : BitVec 32) (duty : ℚ)

def Event.output : Event → Output
  | setDutyCycle o _ => o
  | setTimerFrequency o _ _ => o
  | configure o _ _ => o

/-- A call is of an output of the timer, and for a frequency of at least 1. -/
def Event.Allowed (timer : Timer) (e : Event) : Prop :=
  timer.used e.output.channel = true ∧
    match e with
    | setDutyCycle _ _ => True
    | setTimerFrequency _ _ f => 1 ≤ f.toNat
    | configure _ f _ => 1 ≤ f.toNat

def Event.call (timer : Timer) : Event → State → State
  | setDutyCycle o duty => o.setDutyCycle timer duty
  | setTimerFrequency o mode f => o.setTimerFrequency timer mode f
  | configure o f duty => o.configure timer f duty

def Step (timer : Timer) (s : State) (e : Event) (t : State) : Prop :=
  e.Allowed timer ∧ t = e.call timer s

/-- The compare register of a channel is what its duty asks for. -/
def Follows (s : State) (i : Fin 4) : Prop :=
  0 ≤ s.duties i ∧ s.duties i ≤ 100 ∧ (s.ccr i : ℤ) = ⌊((s.arr : ℚ) + 1) * s.duties i / 100⌋

/-- Every output's is what the duty that it reports asks for. -/
def Right (timer : Timer) (s : State) : Prop :=
  ∀ o : Output, timer.used o.channel = true → 0 ≤ o.getDutyCycle s ∧ o.getDutyCycle s ≤ 100 ∧
    (s.ccr o.channel : ℤ) = ⌊((s.arr : ℚ) + 1) * o.getDutyCycle s / 100⌋

/-! ## Exact duties -/

/-- A register of this width holds what a duty asks for. -/
def Exact (width : Width) (arr : Nat) (duty : ℚ) : Prop :=
  match width with
  | .bits16 => ¬ (arr = 2 ^ 16 - 1 ∧ duty = 100)
  | .bits32 => arr = 2 ^ 32 - 1 → 2 ^ 32 * duty < 100

theorem exact_zero (width : Width) (arr : Nat) : Exact width arr 0 := by
  cases width with
  | bits16 => exact fun h => absurd h.2 (by norm_num)
  | bits32 => exact fun _ => by norm_num

theorem toUint32_eq {x : ℚ} (h0 : 0 ≤ x) (h : x < 2 ^ 32) : (toUint32 x : ℤ) = ⌊x⌋ := by
  have hfloor : 0 ≤ ⌊x⌋ := Int.floor_nonneg.mpr h0
  have hlt : ⌊x⌋ < 2 ^ 32 := Int.floor_lt.mpr (by exact_mod_cast h)
  unfold toUint32
  omega

section Exact

variable {arr : Nat} {duty : ℚ}

/-- A part of the period is no more than the period. -/
theorem part_le (arr : Nat) (h1 : duty ≤ 100) : ((arr : ℚ) + 1) * (duty / 100) ≤ arr + 1 := by
  have hpart : duty / 100 ≤ 1 := by linarith
  have harr : (0 : ℚ) ≤ arr + 1 := by positivity
  simpa using mul_le_mul_of_nonneg_left hpart harr

theorem part_nonneg (arr : Nat) (h0 : 0 ≤ duty) : 0 ≤ ((arr : ℚ) + 1) * (duty / 100) := by positivity

/-- Only all of the largest period does not fit. -/
theorem part_lt_iff (ha : arr < 2 ^ 16) (h1 : duty ≤ 100) :
    ((arr : ℚ) + 1) * (duty / 100) < 2 ^ 16 ↔ ¬ (arr = 2 ^ 16 - 1 ∧ duty = 100) := by
  constructor
  · rintro hlt ⟨rfl, rfl⟩
    norm_num at hlt
  · intro hne
    have hle := part_le arr h1
    by_cases harr : arr = 2 ^ 16 - 1
    · have hd : duty < 100 := lt_of_le_of_ne h1 fun hd => hne ⟨harr, hd⟩
      rw [harr]
      push_cast
      linarith
    · have hsmall : (arr : ℚ) + 1 < 2 ^ 16 := by
        have : arr + 1 < 2 ^ 16 := by omega
        exact_mod_cast this
      linarith

theorem rawDuty16_eq_iff (ha : arr < 2 ^ 16) (h0 : 0 ≤ duty) (h1 : duty ≤ 100) :
    (rawDuty .bits16 arr duty : ℤ) = ⌊((arr : ℚ) + 1) * (duty / 100)⌋ ↔ Exact .bits16 arr duty := by
  have hmod : (arr + 1) % 2 ^ 32 = arr + 1 := Nat.mod_eq_of_lt (by omega)
  have hle := part_le arr h1
  have hnonneg := part_nonneg arr h0
  have hbound : ((arr : ℚ) + 1) * (duty / 100) < 2 ^ 32 := by
    have : arr + 1 < 2 ^ 32 := by omega
    exact lt_of_le_of_lt hle (by exact_mod_cast this)
  have hcast := toUint32_eq hnonneg hbound
  have hraw : rawDuty .bits16 arr duty = toUint32 (((arr : ℚ) + 1) * (duty / 100)) % 2 ^ 16 := by
    simp only [rawDuty, toUint16, hmod, Nat.cast_add, Nat.cast_one]
  have hfits : ⌊((arr : ℚ) + 1) * (duty / 100)⌋ < 2 ^ 16 ↔ ((arr : ℚ) + 1) * (duty / 100) < 2 ^ 16 := by
    rw [Int.floor_lt]
    norm_num
  rw [hraw, Exact, ← part_lt_iff ha h1, ← hfits, ← hcast]
  omega

theorem rawDuty32_eq_iff (ha : arr < 2 ^ 32) (h0 : 0 ≤ duty) (h1 : duty ≤ 100) :
    (rawDuty .bits32 arr duty : ℤ) = ⌊((arr : ℚ) + 1) * (duty / 100)⌋ ↔ Exact .bits32 arr duty := by
  by_cases harr : arr = 2 ^ 32 - 1
  · -- `ARR + 1` is zero
    have hraw : rawDuty .bits32 arr duty = 0 := by
      rw [harr]
      simp [rawDuty, toUint32]
    have hzero : ⌊((arr : ℚ) + 1) * (duty / 100)⌋ = 0 ↔ 2 ^ 32 * duty < 100 := by
      rw [Int.floor_eq_zero_iff, Set.mem_Ico, harr]
      push_cast
      constructor
      · intro h
        linarith [h.2]
      · intro h
        constructor
        · positivity
        · linarith
    rw [hraw, Exact, ← hzero, eq_comm]
    exact ⟨fun h _ => h, fun h => h harr⟩
  · have hmod : (arr + 1) % 2 ^ 32 = arr + 1 := Nat.mod_eq_of_lt (by omega)
    have hbound : ((arr : ℚ) + 1) * (duty / 100) < 2 ^ 32 := by
      have : arr + 1 < 2 ^ 32 := by omega
      exact lt_of_le_of_lt (part_le arr h1) (by exact_mod_cast this)
    have hraw : rawDuty .bits32 arr duty = toUint32 (((arr : ℚ) + 1) * (duty / 100)) := by
      simp only [rawDuty, hmod, Nat.cast_add, Nat.cast_one]
    rw [hraw]
    exact iff_of_true (toUint32_eq (part_nonneg arr h0) hbound) fun h => absurd h harr

/-- The register is right exactly when it can hold what the duty asks for. -/
theorem rawDuty_eq_iff {width : Width} (ha : arr < 2 ^ width.bits) (h0 : 0 ≤ duty)
    (h1 : duty ≤ 100) :
    (rawDuty width arr duty : ℤ) = ⌊((arr : ℚ) + 1) * duty / 100⌋ ↔ Exact width arr duty := by
  rw [mul_div_assoc]
  cases width with
  | bits16 => exact rawDuty16_eq_iff ha h0 h1
  | bits32 => exact rawDuty32_eq_iff ha h0 h1

end Exact

/-! ## The condition -/

/-- The duty that `set_duty_cycle` stores. -/
def clamp (duty : ℚ) : ℚ := if duty ≤ 0 then 0 else if duty > 100 then 100 else duty

/-- The register can hold every duty that is, or stays, set; and `configure` is given a duty
from 0 to 100, and 0 only where the output is at 0. -/
def Meets (timer : Timer) (s : State) : Event → Prop
  | .setDutyCycle _ duty => Exact timer.width s.arr (clamp duty)
  | .setTimerFrequency _ mode f => ∀ i, timer.used i = true →
      Exact timer.width (timer.period mode f) (s.duties i)
  | .configure o f duty => 0 ≤ duty ∧ duty ≤ 100 ∧ (duty = 0 → s.ccr o.channel = 0) ∧
      ∀ i, timer.used i = true → Exact timer.width (timer.period defaultMode f)
        (Function.update s.duties o.channel duty i)

/-! ## One channel -/

variable {timer : Timer} {s t : State} {i : Fin 4}

theorem right_iff : Right timer s ↔ ∀ i, timer.used i = true → Follows s i :=
  ⟨fun h i => h (.pwm i), fun h o => h o.channel⟩

theorem follows_zero (h : s.duties i = 0) : Follows s i ↔ s.ccr i = 0 := by
  rw [Follows, h]
  norm_num

theorem follows_raw {width : Width} (ha : s.arr < 2 ^ width.bits)
    (h : s.ccr i = rawDuty width s.arr (s.duties i)) :
    Follows s i ↔ 0 ≤ s.duties i ∧ s.duties i ≤ 100 ∧ Exact width s.arr (s.duties i) := by
  rw [Follows, h]
  refine and_congr_right fun h0 => and_congr_right fun h1 => rawDuty_eq_iff ha h0 h1

/-- A channel whose registers and duty stay follows as before. -/
theorem follows_congr (harr : t.arr = s.arr) (hccr : t.ccr i = s.ccr i)
    (hduty : t.duties i = s.duties i) : Follows t i ↔ Follows s i := by
  rw [Follows, Follows, harr, hccr, hduty]

theorem period_lt (mode : Mode) (f : BitVec 32) : timer.period mode f < 2 ^ timer.width.bits :=
  Nat.mod_lt _ (by positivity)

/-- After a call for a frequency the channels follow whose duties are exact, and those at
zero that were at zero. -/
theorem follows_setPwmFrequency (mode : Mode) (f : BitVec 32) (hzero : s.duties i = 0 → s.ccr i = 0) :
    Follows (timer.setPwmFrequency mode f s) i ↔
      0 ≤ s.duties i ∧ s.duties i ≤ 100 ∧ Exact timer.width (timer.period mode f) (s.duties i) := by
  by_cases hd : s.duties i = 0
  · have hccr : (timer.setPwmFrequency mode f s).ccr i = 0 :=
      (if_neg (not_not_intro hd)).trans (hzero hd)
    have hduty : (timer.setPwmFrequency mode f s).duties i = 0 := hd
    refine iff_of_true ((follows_zero hduty).mpr hccr) ?_
    rw [hd]
    exact ⟨le_refl 0, by norm_num, exact_zero _ _⟩
  · have hccr : (timer.setPwmFrequency mode f s).ccr i =
        rawDuty timer.width (timer.period mode f) (s.duties i) := if_pos hd
    exact follows_raw (period_lt mode f) hccr

/-- A channel that is given a duty and its register. -/
theorem follows_set (ha : s.arr < 2 ^ timer.width.bits) {d : ℚ} (h0 : 0 ≤ d) (h1 : d ≤ 100) :
    Follows
        { s with
          ccr := Function.update s.ccr i (rawDuty timer.width s.arr d)
          duties := Function.update s.duties i d } i ↔
      Exact timer.width s.arr d := by
  unfold Follows
  dsimp only
  rw [Function.update_self, Function.update_self]
  refine ⟨fun h => (rawDuty_eq_iff ha h0 h1).mp h.2.2, fun h => ⟨h0, h1, ?_⟩⟩
  exact (rawDuty_eq_iff ha h0 h1).mpr h

theorem follows_setDutyCycle_self (ha : s.arr < 2 ^ timer.width.bits) (duty : ℚ) :
    Follows (timer.setDutyCycle i duty s) i ↔ Exact timer.width s.arr (clamp duty) := by
  unfold Timer.setDutyCycle clamp
  by_cases h0 : duty ≤ 0
  · rw [if_pos h0, if_pos h0]
    exact iff_of_true ((follows_zero (Function.update_self ..)).mpr (Function.update_self ..))
      (exact_zero _ _)
  · rw [if_neg h0, if_neg h0]
    refine follows_set ha ?_ ?_
    · split <;> linarith
    · split <;> linarith

theorem follows_setDutyCycle_other {j : Fin 4} (hj : j ≠ i) (duty : ℚ) :
    Follows (timer.setDutyCycle i duty s) j ↔ Follows s j := by
  unfold Timer.setDutyCycle
  split
  · exact follows_congr rfl (Function.update_of_ne hj ..) (Function.update_of_ne hj ..)
  · exact follows_congr rfl (Function.update_of_ne hj ..) (Function.update_of_ne hj ..)

/-! ## One call -/

theorem right_setDutyCycle (ha : s.arr < 2 ^ timer.width.bits) (h : Right timer s)
    (hi : timer.used i = true) (duty : ℚ) :
    Right timer (timer.setDutyCycle i duty s) ↔ Exact timer.width s.arr (clamp duty) := by
  rw [right_iff]
  constructor
  · exact fun hall => (follows_setDutyCycle_self ha duty).mp (hall i hi)
  · intro hexact j hj
    by_cases hji : j = i
    · rw [hji]
      exact (follows_setDutyCycle_self ha duty).mpr hexact
    · exact (follows_setDutyCycle_other hji duty).mpr (right_iff.mp h j hj)

theorem right_setPwmFrequency (h : Right timer s) (mode : Mode) (f : BitVec 32) :
    Right timer (timer.setPwmFrequency mode f s) ↔
      ∀ i, timer.used i = true → Exact timer.width (timer.period mode f) (s.duties i) := by
  rw [right_iff]
  refine forall_congr' fun i => forall_congr' fun hi => ?_
  have hfollows := right_iff.mp h i hi
  rw [follows_setPwmFrequency mode f fun hd => (follows_zero hd).mp hfollows]
  exact ⟨fun h => h.2.2, fun hexact => ⟨hfollows.1, hfollows.2.1, hexact⟩⟩

/-- `configure` before its call for the frequency. -/
def withDuty (i : Fin 4) (duty : ℚ) (s : State) : State :=
  { s with duties := Function.update s.duties i duty }

theorem configure_eq (f : BitVec 32) (duty : ℚ) :
    timer.configure i f duty s = timer.setPwmFrequency defaultMode f (withDuty i duty s) := rfl

theorem right_configure (h : Right timer s) (hi : timer.used i = true) (f : BitVec 32) (duty : ℚ) :
    Right timer (timer.configure i f duty s) ↔ 0 ≤ duty ∧ duty ≤ 100 ∧ (duty = 0 → s.ccr i = 0) ∧
      ∀ j, timer.used j = true → Exact timer.width (timer.period defaultMode f)
        (Function.update s.duties i duty j) := by
  have hself : (withDuty i duty s).duties i = duty := Function.update_self ..
  rw [right_iff, configure_eq]
  by_cases hzero : duty = 0 → s.ccr i = 0
  · -- every channel at zero is at zero
    have hat : ∀ j, timer.used j = true → (withDuty i duty s).duties j = 0 →
        (withDuty i duty s).ccr j = 0 := by
      intro j hj hd
      by_cases hji : j = i
      · rw [hji] at hd ⊢
        exact hzero (hself.symm.trans hd)
      · have hother : s.duties j = 0 := (Function.update_of_ne hji ..).symm.trans hd
        exact (follows_zero hother).mp (right_iff.mp h j hj)
    constructor
    · intro hall
      have hown := (follows_setPwmFrequency defaultMode f (hat i hi)).mp (hall i hi)
      rw [hself] at hown
      refine ⟨hown.1, hown.2.1, hzero, fun j hj => ?_⟩
      exact ((follows_setPwmFrequency defaultMode f (hat j hj)).mp (hall j hj)).2.2
    · intro ⟨h0, h1, _, hexact⟩ j hj
      refine (follows_setPwmFrequency defaultMode f (hat j hj)).mpr ⟨?_, ?_, hexact j hj⟩
      · by_cases hji : j = i
        · rwa [hji, hself]
        · have hother : (withDuty i duty s).duties j = s.duties j := Function.update_of_ne hji ..
          rw [hother]
          exact (right_iff.mp h j hj).1
      · by_cases hji : j = i
        · rwa [hji, hself]
        · have hother : (withDuty i duty s).duties j = s.duties j := Function.update_of_ne hji ..
          rw [hother]
          exact (right_iff.mp h j hj).2.1
  · -- the register of a channel that is set to zero stays
    obtain ⟨hd, hccr⟩ := Classical.not_imp.mp hzero
    refine iff_of_false (fun hall => hccr ?_) fun hmeets => hzero hmeets.2.2.1
    have hduty : (timer.setPwmFrequency defaultMode f (withDuty i duty s)).duties i = 0 :=
      hself.trans hd
    have hkept : (timer.setPwmFrequency defaultMode f (withDuty i duty s)).ccr i = s.ccr i :=
      if_neg (not_not_intro hduty)
    exact hkept.symm.trans ((follows_zero hduty).mp (hall i hi))

/-- **One call.** -/
theorem right_call_iff {e : Event} (ha : s.arr < 2 ^ timer.width.bits) (h : Right timer s)
    (he : e.Allowed timer) : Right timer (e.call timer s) ↔ Meets timer s e := by
  cases e with
  | setDutyCycle o duty => cases o <;> exact right_setDutyCycle ha h he.1 duty
  | setTimerFrequency o mode f => cases o <;> exact right_setPwmFrequency h mode f
  | configure o f duty => cases o <;> exact right_configure h he.1 f duty

theorem arr_call (e : Event) (ha : s.arr < 2 ^ timer.width.bits) :
    (e.call timer s).arr < 2 ^ timer.width.bits := by
  cases e with
  | setDutyCycle o duty =>
    have harr : (timer.setDutyCycle o.channel duty s).arr = s.arr := by
      unfold Timer.setDutyCycle
      split <;> rfl
    cases o <;> exact harr ▸ ha
  | setTimerFrequency o mode f => cases o <;> exact period_lt mode f
  | configure o f duty => cases o <;> exact period_lt defaultMode f

/-! ## Every run -/

/-- A timer before its first call. -/
def init (timer : Timer) (arr : Fin (2 ^ timer.width.bits)) : State where
  arr := arr
  ccr _ := 0
  duties _ := 0
  frequency := 0

theorem right_init (timer : Timer) (arr : Fin (2 ^ timer.width.bits)) :
    Right timer (init timer arr) := right_iff.mpr fun _ _ => (follows_zero rfl).mpr rfl

/-- **Duty cycles.** Every call of a run leaves every output as it reports exactly when all
the calls meet the condition. -/
theorem duties_right_iff (timer : Timer) (arr : Fin (2 ^ timer.width.bits)) (ls : List Event)
    (s : State) :
    Run (Step timer) (fun s e => ∀ t, Step timer s e t → Right timer t) (init timer arr) ls s ↔
      Run (Step timer) (Meets timer) (init timer arr) ls s := by
  refine Run.congr (I := fun s => s.arr < 2 ^ timer.width.bits ∧ Right timer s)
    ⟨arr.isLt, right_init timer arr⟩ ?_ ?_
  · intro s e t ⟨ha, _⟩ hright hs
    obtain rfl := hs.2
    exact ⟨arr_call e ha, hright _ hs⟩
  · intro s e t ⟨ha, h⟩ hs
    rw [← right_call_iff ha h hs.1]
    constructor
    · intro hright
      exact hright _ ⟨hs.1, rfl⟩
    · intro hright u hu
      rw [hu.2]
      exact hright

/-- A timer of 16 bits with one output, on the first channel. -/
def single : Timer where
  width := .bits16
  clock := 65536
  psc := 0
  centerAligned := false
  used i := i = 0

/-- A duty that `configure` is given is stored as it is. -/
theorem duty_too_large : ¬ ∀ timer arr ls s, Run (Step timer) (fun _ _ => True) (init timer arr) ls s →
    Right timer s := by
  intro h
  have hright := h single 0 _ _ (.snoc (.nil _) trivial
    (a := .configure (.pwm 0) 1 150) ⟨⟨rfl, by decide⟩, rfl⟩) (.pwm 0) rfl
  exact absurd hright.2.1 (by
    show ¬ ((150 : ℚ) ≤ 100)
    norm_num)

end StLib.Timers.PwmDuty
