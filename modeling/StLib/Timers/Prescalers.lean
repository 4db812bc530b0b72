import StLib.Base.Searches

/-! # Prescalers

`Watchdog.hpp` and `SPI2.cpp`. A clock is divided by the least power of two with which the
watchdog can count the period it is given, and with which the bus is not too fast. `PANIC`
returns, so what comes behind it is done as well. -/
namespace StLib.Timers.Prescalers

open StLib.Base.Searches

/-! ## The watchdog -/

/-- The value for the reload register; converting a number that is not of 32 bits is undefined. -/
def reload (milliseconds : Nat) : Option Nat :=
  if 0 < milliseconds ∧ milliseconds * 8 ≤ 2 ^ 32 then some (milliseconds * 8 - 1) else none

/-- The prescaler and the reload value, once that fits in its register. -/
def startLoop : Nat → Nat → Nat → Option (Nat × Nat)
  | 0, _, _ => none
  | fuel + 1, milliseconds, prescaler =>
    (reload milliseconds).bind fun rl =>
      if 4095 < rl then startLoop fuel (milliseconds / 2) (prescaler + 1) else some (prescaler, rl)

structure Started where
  panics : List String
  init : Option (Nat × Nat)
deriving DecidableEq

/-- The cast of a period in microseconds, in 64 bits. -/
def milliseconds (watchdogTime : Int) : Nat := ((watchdogTime.tdiv 1000) % 2 ^ 64).toNat

/-- `Watchdog::start` with a period in microseconds. -/
def start (watchdogTime : Int) : Started where
  panics :=
    (if 32000000 < watchdogTime then ["Watchdog refresh interval is too big"] else []) ++
      if watchdogTime < 125 then ["Watchdog refresh interval is too short"] else []
  init := startLoop 64 (milliseconds watchdogTime) 0

/-- Halving goes through the quotients by powers of two. -/
theorem startLoop_eq {m fuel k : Nat} (hfits : m * 8 ≤ 2 ^ 32)
    (hpos : ∀ j, k ≤ j → (∀ i, k ≤ i → i < j → 512 < m / 2 ^ i) → 0 < m / 2 ^ j) :
    startLoop fuel (m / 2 ^ k) k =
      (first (fun j => decide (m / 2 ^ j ≤ 512)) fuel k).map fun j =>
        (j, m / 2 ^ j * 8 - 1) := by
  induction fuel generalizing k with
  | zero => rfl
  | succ fuel ih =>
    have hle : m / 2 ^ k ≤ m := Nat.div_le_self _ _
    have hk : 0 < m / 2 ^ k := hpos k (Nat.le_refl k) fun i hi hlt => absurd hi (Nat.not_le.mpr hlt)
    have hreload : reload (m / 2 ^ k) = some (m / 2 ^ k * 8 - 1) :=
      if_pos ⟨hk, by omega⟩
    rw [startLoop, hreload, Option.bind_some, first]
    by_cases hbig : 4095 < m / 2 ^ k * 8 - 1
    · have hnot : ¬ m / 2 ^ k ≤ 512 := by omega
      have hhalf : m / 2 ^ k / 2 = m / 2 ^ (k + 1) := by
        rw [Nat.div_div_eq_div_mul, Nat.pow_succ]
      rw [if_pos hbig, hhalf, decide_eq_false hnot, ih fun j hj hbefore => ?_]
      · rfl
      · refine hpos j (by omega) fun i hi hlt => ?_
        by_cases hik : i = k
        · rw [hik]
          omega
        · exact hbefore i (by omega) hlt
    · have hsmall : m / 2 ^ k ≤ 512 := by omega
      rw [if_neg hbig, decide_eq_true hsmall]
      rfl

/-- A quotient is not zero as long as the ones before it were large. -/
theorem quotient_pos {m : Nat} (hm : 0 < m) (j : Nat) (hbefore : ∀ i, 0 ≤ i → i < j → 512 < m / 2 ^ i) :
    0 < m / 2 ^ j := by
  cases j with
  | zero => simpa using hm
  | succ j =>
    have hlarge := hbefore j (Nat.zero_le j) (Nat.lt_succ_self j)
    rw [Nat.pow_succ, ← Nat.div_div_eq_div_mul]
    omega

/-- **The watchdog** with a period from a millisecond to 32 seconds: prescaler and reload value
fit in their registers, the board is reset no later than after the period in milliseconds and
less than one step of the prescaler earlier, and no smaller prescaler would do. The counter
makes eight counts a millisecond over the power of two. -/
theorem start_times {watchdogTime : Int} (h : 1000 ≤ watchdogTime) (h' : watchdogTime ≤ 32000000) :
    ∃ prescaler rl, (start watchdogTime).panics = [] ∧ (start watchdogTime).init = some (prescaler, rl) ∧
      prescaler ≤ 6 ∧ rl ≤ 4095 ∧ (rl + 1) * 2 ^ prescaler ≤ milliseconds watchdogTime * 8 ∧
      milliseconds watchdogTime * 8 < (rl + 1 + 8) * 2 ^ prescaler ∧
      ∀ j < prescaler, 4095 < milliseconds watchdogTime / 2 ^ j * 8 - 1 := by
  have htdiv : watchdogTime.tdiv 1000 = watchdogTime / 1000 := Int.tdiv_eq_ediv_of_nonneg (by omega)
  have hms : milliseconds watchdogTime = (watchdogTime / 1000).toNat := by
    rw [milliseconds, htdiv]
    omega
  have hpos : 0 < milliseconds watchdogTime := by omega
  have hmax : milliseconds watchdogTime ≤ 32000 := by omega
  generalize hm : milliseconds watchdogTime = m at hpos hmax ⊢
  have hsix : m / 2 ^ 6 ≤ 512 := by omega
  obtain ⟨k, hfirst, -, hk, hfit, hbefore⟩ :
      ∃ i, first (fun j => decide (m / 2 ^ j ≤ 512)) 64 0 = some i ∧ 0 ≤ i ∧ i ≤ 6 ∧
        decide (m / 2 ^ i ≤ 512) = true ∧ ∀ l, 0 ≤ l → l < i → decide (m / 2 ^ l ≤ 512) = false :=
    first_spec (decide_eq_true hsix) (Nat.zero_le 6) (by omega)
  have hloop : startLoop 64 (m / 2 ^ 0) 0 = some (k, m / 2 ^ k * 8 - 1) := by
    rw [startLoop_eq (by omega) fun j _ hbefore => quotient_pos hpos j hbefore, hfirst]
    rfl
  rw [Nat.pow_zero, Nat.div_one] at hloop
  have hkpos : 0 < m / 2 ^ k := quotient_pos hpos k fun i _ hlt => by
    have hnot := of_decide_eq_false (hbefore i (Nat.zero_le i) hlt)
    omega
  have hfit' : m / 2 ^ k ≤ 512 := of_decide_eq_true hfit
  have hcount : m / 2 ^ k * 8 - 1 + 1 = m / 2 ^ k * 8 := by omega
  refine ⟨k, m / 2 ^ k * 8 - 1, ?_, ?_, hk, by omega, ?_, ?_, ?_⟩
  · simp only [start]
    rw [if_neg (by omega), if_neg (by omega), List.append_nil]
  · simp only [start]
    rw [hm, hloop]
  · have hle := Nat.div_mul_le_self m (2 ^ k)
    rw [hcount, Nat.mul_right_comm]
    exact Nat.mul_le_mul_right 8 hle
  · have hlt := Nat.lt_div_mul_add (a := m) (Nat.two_pow_pos k)
    rw [hcount, Nat.add_mul, Nat.mul_right_comm, Nat.mul_comm 8 (2 ^ k), ← Nat.add_mul]
    omega
  · intro j hj
    have hnot := of_decide_eq_false (hbefore j (Nat.zero_le j) hj)
    omega

/-- The default period of a second. -/
theorem start_times_second : ∃ prescaler rl, (start 1000000).init = some (prescaler, rl) ∧
    prescaler ≤ 6 ∧ rl ≤ 4095 := by
  obtain ⟨prescaler, rl, -, hinit, hprescaler, hrl, -⟩ := start_times
    (show (1000 : Int) ≤ 1000000 by norm_num) (show (1000000 : Int) ≤ 32000000 by norm_num)
  exact ⟨prescaler, rl, hinit, hprescaler, hrl⟩

/-! ## The bus clock of a master -/

/-- `get_prescaler_flag`, with the prescaler for its flag. -/
def getPrescalerFlag (prescaler : Nat) : Nat × List String :=
  if prescaler ∈ [2, 4, 8, 16, 32, 64, 128, 256] then (prescaler, []) else (256, ["Invalid prescaler value"])

/-- The loop of `calculate_prescaler`, in 32 bits; division by zero is undefined. -/
def prescalerLoop (srcFreq maxBaud : Nat) : Nat → Nat → List String → Option (Nat × List String)
  | 0, _, _ => none
  | fuel + 1, prescaler, panics =>
    if prescaler = 0 then none
    else if maxBaud < srcFreq / prescaler then
      prescalerLoop srcFreq maxBaud fuel (prescaler * 2 % 2 ^ 32)
        (if 256 < prescaler * 2 % 2 ^ 32 then panics ++ ["Cannot achieve desired baudrate, speed is too low"]
          else panics)
    else some (prescaler, panics)

/-- `calculate_prescaler`, with what it reports. -/
def calculatePrescaler (srcFreq maxBaud : Nat) : Option (Nat × List String) :=
  (prescalerLoop srcFreq maxBaud 33 2 []).map fun r =>
    ((getPrescalerFlag r.1).1, r.2 ++ (getPrescalerFlag r.1).2)

variable {srcFreq maxBaud : Nat}

/-- What is reported stays reported. -/
theorem prescalerLoop_panics {fuel prescaler : Nat} {panics : List String} {r : Nat × List String}
    (h : prescalerLoop srcFreq maxBaud fuel prescaler panics = some r) (hpanics : panics ≠ []) : r.2 ≠ [] := by
  induction fuel generalizing prescaler panics with
  | zero => cases h
  | succ fuel ih =>
    rw [prescalerLoop] at h
    split at h
    · cases h
    · split at h
      · refine ih h ?_
        split
        · simp
        · exact hpanics
      · cases h
        exact hpanics

/-- Without a report the loop ends at the first power of two with which the bus is slow enough. -/
theorem prescalerLoop_quiet {fuel k prescaler : Nat} (hk : k ≤ 8) (hfuel : 9 ≤ fuel + k) :
    prescalerLoop srcFreq maxBaud fuel (2 ^ k) [] = some (prescaler, []) ↔
      ∃ i, k ≤ i ∧ i ≤ 8 ∧ prescaler = 2 ^ i ∧ srcFreq / 2 ^ i ≤ maxBaud ∧
        ∀ j, k ≤ j → j < i → maxBaud < srcFreq / 2 ^ j := by
  induction fuel generalizing k with
  | zero => omega
  | succ fuel ih =>
    have hpos : 0 < 2 ^ k := Nat.two_pow_pos k
    have hpow : 2 ^ k ≤ 2 ^ 8 := Nat.pow_le_pow_right Nat.two_pos hk
    have hdouble : 2 ^ k * 2 % 2 ^ 32 = 2 ^ (k + 1) := by
      rw [Nat.pow_succ]
      exact Nat.mod_eq_of_lt (by omega)
    rw [prescalerLoop, if_neg (by omega), hdouble]
    by_cases hfast : maxBaud < srcFreq / 2 ^ k
    · rw [if_pos hfast]
      by_cases hlast : k = 8
      · rw [hlast, if_pos (by norm_num)]
        constructor
        · intro h
          exact absurd rfl (prescalerLoop_panics h (by simp))
        · rintro ⟨i, hi, hi8, -, hslow, -⟩
          have heq : i = 8 := by omega
          rw [heq, ← hlast] at hslow
          omega
      · have hle : 2 ^ (k + 1) ≤ 2 ^ 8 := Nat.pow_le_pow_right Nat.two_pos (by omega)
        rw [if_neg (by omega), ih (by omega) (by omega)]
        constructor
        · intro h
          obtain ⟨i, hi, hi8, hprescaler, hslow, hbefore⟩ := h
          refine ⟨i, by omega, hi8, hprescaler, hslow, fun j hj hlt => ?_⟩
          by_cases hjk : j = k
          · rw [hjk]
            exact hfast
          · exact hbefore j (by omega) hlt
        · intro h
          obtain ⟨i, hi, hi8, hprescaler, hslow, hbefore⟩ := h
          have hne : i ≠ k := by
            intro heq
            rw [heq] at hslow
            omega
          exact ⟨i, by omega, hi8, hprescaler, hslow, fun j hj hlt => hbefore j (by omega) hlt⟩
    · rw [if_neg hfast]
      constructor
      · intro h
        cases h
        exact ⟨k, Nat.le_refl k, hk, rfl, Nat.not_lt.mp hfast, fun j hj hlt => absurd hj (Nat.not_le.mpr hlt)⟩
      · intro h
        obtain ⟨i, hi, hi8, hprescaler, hslow, hbefore⟩ := h
        have heq : i = k := by
          by_contra hne
          exact hfast (hbefore k (Nat.le_refl k) (by omega))
        rw [hprescaler, heq]

/-- The powers up to 256 have a flag. -/
theorem getPrescalerFlag_pow {i : Nat} (hi : 1 ≤ i) (hi8 : i ≤ 8) : getPrescalerFlag (2 ^ i) = (2 ^ i, []) := by
  interval_cases i <;> rfl

/-- **The bus clock**: nothing is reported exactly when a prescaler up to 256 makes the bus slow
enough, and then the prescaler is the least that does. -/
theorem calculatePrescaler_least (srcFreq maxBaud prescaler : Nat) :
    calculatePrescaler srcFreq maxBaud = some (prescaler, []) ↔
      ∃ i, 1 ≤ i ∧ i ≤ 8 ∧ prescaler = 2 ^ i ∧ srcFreq / 2 ^ i ≤ maxBaud ∧
        ∀ j, 1 ≤ j → j < i → maxBaud < srcFreq / 2 ^ j := by
  have hquiet : ∀ p, prescalerLoop srcFreq maxBaud 33 (2 ^ 1) [] = some (p, []) ↔
      ∃ i, 1 ≤ i ∧ i ≤ 8 ∧ p = 2 ^ i ∧ srcFreq / 2 ^ i ≤ maxBaud ∧
        ∀ j, 1 ≤ j → j < i → maxBaud < srcFreq / 2 ^ j :=
    fun p => prescalerLoop_quiet (by norm_num) (by norm_num)
  rw [calculatePrescaler, Option.map_eq_some_iff]
  constructor
  · intro h
    obtain ⟨⟨p, panics⟩, hloop, hresult⟩ := h
    obtain ⟨hflag, hnone⟩ := Prod.ext_iff.mp hresult
    obtain ⟨rfl, -⟩ := List.append_eq_nil_iff.mp hnone
    obtain ⟨i, hi, hi8, rfl, hslow, hbefore⟩ := (hquiet p).mp hloop
    change (getPrescalerFlag (2 ^ i)).1 = prescaler at hflag
    rw [getPrescalerFlag_pow hi hi8] at hflag
    exact ⟨i, hi, hi8, hflag.symm, hslow, hbefore⟩
  · intro h
    obtain ⟨i, hi, hi8, rfl, hslow, hbefore⟩ := h
    refine ⟨(2 ^ i, []), (hquiet _).mpr ⟨i, hi, hi8, rfl, hslow, hbefore⟩, ?_⟩
    rw [getPrescalerFlag_pow hi hi8]
    rfl

end StLib.Timers.Prescalers
