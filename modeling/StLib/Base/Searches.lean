import Mathlib

/-! # Searches through powers of two

The greatest number of so many bits that still has a property, found bit by bit from the top,
and the first power at which one holds. -/
namespace StLib.Base.Searches

section Greatest

variable (P : Nat → Prop) [DecidablePred P]

/-- Keep each bit, from the highest, with which the property still holds. -/
def greatest : Nat → Nat → Nat
  | 0, s => s
  | n + 1, s => greatest n (if P (s + 2 ^ n) then s + 2 ^ n else s)

variable {P} {n s : Nat}

/-- The search ends where the property does. -/
theorem greatest_spec (hsol : P s) (htop : ¬ P (s + 2 ^ n)) :
    P (greatest P n s) ∧ ¬ P (greatest P n s + 1) := by
  induction n generalizing s with
  | zero => exact ⟨hsol, htop⟩
  | succ n ih =>
    rw [greatest]
    by_cases hbit : P (s + 2 ^ n)
    · rw [if_pos hbit]
      refine ih hbit ?_
      rw [Nat.add_assoc, ← Nat.two_mul, ← Nat.pow_succ']
      exact htop
    · rw [if_neg hbit]
      exact ih hsol hbit

theorem greatest_of_none (h : ∀ m, ¬ P m) : greatest P n s = s := by
  induction n generalizing s with
  | zero => rfl
  | succ n ih => rw [greatest, if_neg (h _), ih]

/-- The search stays below what the bits allow. -/
theorem greatest_lt : greatest P n s < s + 2 ^ n := by
  induction n generalizing s with
  | zero => exact Nat.lt_succ_self _
  | succ n ih =>
    have hpow : 2 ^ (n + 1) = 2 ^ n + 2 ^ n := by rw [Nat.pow_succ', Nat.two_mul]
    rw [greatest]
    by_cases hbit : P (s + 2 ^ n)
    · rw [if_pos hbit, hpow, ← Nat.add_assoc]
      exact ih
    · rw [if_neg hbit, hpow]
      have hlt : greatest P n s < s + 2 ^ n := ih
      exact Nat.lt_of_lt_of_le hlt (Nat.add_le_add_left (Nat.le_add_right _ _) s)

end Greatest

section First

variable (fits : Nat → Bool)

/-- The first number from `k` on that fits. -/
def first : Nat → Nat → Option Nat
  | 0, _ => none
  | fuel + 1, k => if fits k then some k else first fuel (k + 1)

variable {fits}

/-- With enough fuel the search finds the first one. -/
theorem first_spec {fuel k j : Nat} (hfits : fits j = true) (hkj : k ≤ j) (hfuel : j < k + fuel) :
    ∃ i, first fits fuel k = some i ∧ k ≤ i ∧ i ≤ j ∧ fits i = true ∧ ∀ m, k ≤ m → m < i → fits m = false := by
  induction fuel generalizing k with
  | zero => omega
  | succ fuel ih =>
    rw [first]
    cases hk : fits k with
    | true => exact ⟨k, rfl, Nat.le_refl k, hkj, hk, fun m hm hlt => absurd hm (Nat.not_le.mpr hlt)⟩
    | false =>
      have hne : k ≠ j := by
        intro heq
        rw [heq, hfits] at hk
        cases hk
      obtain ⟨i, hi, hle, hij, hfit, hbefore⟩ := ih (k := k + 1) (by omega) (by omega)
      refine ⟨i, by simpa using hi, by omega, hij, hfit, fun m hm hlt => ?_⟩
      by_cases hmk : m = k
      · rw [hmk, hk]
      · exact hbefore m (by omega) hlt

end First

end StLib.Base.Searches
