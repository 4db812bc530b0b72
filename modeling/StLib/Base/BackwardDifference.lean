import Mathlib

/-! # Backward differences of quadratics

Differences over the last three of equally spaced samples, and the derivatives of a
polynomial of degree two that they are. -/
namespace StLib.Base.BackwardDifference

open Polynomial

variable {K : Type*} [Field K]

/-- The first derivative, from the newest sample, the one before and the one before that. -/
def first (s x₀ x₁ x₂ : K) : K := (3 * x₀ / 2 - 2 * x₁ + x₂ / 2) / s

/-- The second derivative. -/
def second (s x₀ x₁ x₂ : K) : K := (x₀ - 2 * x₁ + x₂) / (s * s)

variable {p : K[X]} {s : K}

theorem eval_quadratic (h : p.natDegree ≤ 2) (t : K) :
    p.eval t = p.coeff 0 + p.coeff 1 * t + p.coeff 2 * t ^ 2 := by
  rw [eval_eq_sum_range' (Nat.lt_succ_of_le h)]
  simp [Finset.sum_range_succ]

theorem eval_derivative (h : p.natDegree ≤ 2) (t : K) :
    p.derivative.eval t = p.coeff 1 + 2 * p.coeff 2 * t := by
  have hd : p.derivative.natDegree ≤ 2 := (natDegree_derivative_le p).trans (by omega)
  have hcubic : p.coeff 3 = 0 := coeff_eq_zero_of_natDegree_lt (by omega)
  rw [eval_quadratic hd]
  simp only [coeff_derivative, zero_add, Nat.cast_zero, Nat.cast_one, Nat.cast_ofNat, hcubic]
  ring

theorem eval_derivative_derivative (h : p.natDegree ≤ 2) (t : K) :
    p.derivative.derivative.eval t = 2 * p.coeff 2 := by
  have hd : p.derivative.natDegree ≤ 2 := (natDegree_derivative_le p).trans (by omega)
  have hcubic : p.coeff 3 = 0 := coeff_eq_zero_of_natDegree_lt (by omega)
  rw [eval_derivative hd]
  simp only [coeff_derivative, Nat.cast_one, Nat.cast_ofNat, hcubic]
  ring

theorem first_eq [CharZero K] (h : p.natDegree ≤ 2) (hs : s ≠ 0) (t : K) :
    first s (p.eval t) (p.eval (t - s)) (p.eval (t - 2 * s)) = p.derivative.eval t := by
  rw [first, eval_derivative h, eval_quadratic h, eval_quadratic h, eval_quadratic h]
  field_simp
  ring

theorem second_eq (h : p.natDegree ≤ 2) (hs : s ≠ 0) (t : K) :
    second s (p.eval t) (p.eval (t - s)) (p.eval (t - 2 * s)) = p.derivative.derivative.eval t := by
  rw [second, eval_derivative_derivative h, eval_quadratic h, eval_quadratic h, eval_quadratic h]
  field_simp
  ring

end StLib.Base.BackwardDifference
