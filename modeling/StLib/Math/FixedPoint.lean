import StLib.Base.Searches

/-! # The square root

`Math.cpp`. Numbers with `SQ_DECIMAL_BITS` binary places in 32 bits. The root is searched bit by
bit for the integer part, in signed arithmetic that must not overflow. -/
namespace StLib.Math.FixedPoint

open StLib.Base.Searches

def sqDecimalBits : Nat := 16

/-- A result of signed arithmetic in 32 bits, where it is defined. -/
def int32 (x : Int) : Option Int := if -2 ^ 31 ≤ x ∧ x < 2 ^ 31 then some x else none

/-- The loop of `sqrt` from `i = 2 ^ (n - 1)` down to 1. -/
def sqrtLoop (overIn : Int) : Nat → Int → Option Int
  | 0, sol => some sol
  | n + 1, sol => do
    let temp ← int32 (sol + 2 ^ n)
    let square ← int32 (temp * temp)
    sqrtLoop overIn n (if square ≤ overIn then temp else sol)

/-- `Math::sqrt`: `0x8000 >> (SQ_DECIMAL_BITS >> 1)` is `2 ^ 7`. -/
def sqrt (sqIn : Int) : Option Int := do
  let overIn := sqIn / 2 ^ sqDecimalBits
  let sol ← sqrtLoop overIn (16 - sqDecimalBits / 2) 0
  int32 (sol * 2 ^ sqDecimalBits)

theorem int32_eq {x : Int} (h : -2 ^ 31 ≤ x) (h' : x < 2 ^ 31) : int32 x = some x := if_pos ⟨h, h'⟩

/-- No step overflows, and the loop is the search for the greatest root. -/
theorem sqrtLoop_eq (overIn : Int) {n s : Nat} (h : s + 2 ^ n ≤ 2 ^ 8) :
    sqrtLoop overIn n s = some ((greatest (fun t => ((t * t : Nat) : Int) ≤ overIn) n s : Nat) : Int) := by
  induction n generalizing s with
  | zero => rfl
  | succ n ih =>
    have hpow : 2 ^ (n + 1) = 2 ^ n + 2 ^ n := by rw [Nat.pow_succ', Nat.two_mul]
    have hpos : 0 < 2 ^ n := Nat.two_pow_pos n
    have htemp : (s : Int) + 2 ^ n = (s + 2 ^ n : Nat) := by push_cast; rfl
    have hsmall : s + 2 ^ n < 256 := by omega
    have hsquare : ((s + 2 ^ n : Nat) : Int) * (s + 2 ^ n : Nat) = ((s + 2 ^ n) * (s + 2 ^ n) : Nat) := by
      push_cast; rfl
    have hbound : (s + 2 ^ n) * (s + 2 ^ n) < 65536 := Nat.mul_lt_mul'' hsmall hsmall
    rw [sqrtLoop, htemp, int32_eq (by omega) (by omega), Option.bind_eq_bind, Option.bind_some, hsquare,
      int32_eq (by omega) (by omega), Option.bind_some, greatest]
    by_cases hbit : (((s + 2 ^ n) * (s + 2 ^ n) : Nat) : Int) ≤ overIn
    · rw [if_pos hbit, if_pos hbit]
      exact ih (by omega)
    · rw [if_neg hbit, if_neg hbit]
      exact ih (by omega)

/-- **The root**, for every number of 32 bits: no step overflows, and the result is the integer
root of the integer part, which is zero for a negative number. -/
theorem sqrt_eq {sqIn : Int} (h : -2 ^ 31 ≤ sqIn) (h' : sqIn < 2 ^ 31) :
    sqrt sqIn = some ((Nat.sqrt (sqIn / 2 ^ 16).toNat * 2 ^ 16 : Nat) : Int) := by
  have hover : sqIn / 2 ^ 16 < 2 ^ 15 := by omega
  have hroot : greatest (fun t => ((t * t : Nat) : Int) ≤ sqIn / 2 ^ 16) 8 0 =
      Nat.sqrt (sqIn / 2 ^ 16).toNat := by
    by_cases hneg : sqIn / 2 ^ 16 < 0
    · rw [Int.toNat_of_nonpos (Int.le_of_lt hneg), Nat.sqrt_zero]
      exact greatest_of_none fun m hm => by omega
    · obtain ⟨hle, hgt⟩ := greatest_spec (P := fun t => ((t * t : Nat) : Int) ≤ sqIn / 2 ^ 16) (n := 8) (s := 0)
        (by simpa using hneg) (by simp; omega)
      rw [Nat.eq_sqrt]
      constructor
      · omega
      · omega
  have hlt : greatest (fun t => ((t * t : Nat) : Int) ≤ sqIn / 2 ^ 16) 8 0 < 2 ^ 8 := by
    have hlt := greatest_lt (P := fun t => ((t * t : Nat) : Int) ≤ sqIn / 2 ^ 16) (n := 8) (s := 0)
    omega
  rw [hroot] at hlt
  have hloop := sqrtLoop_eq (sqIn / 2 ^ 16) (n := 8) (s := 0) (by decide)
  rw [hroot] at hloop
  change (sqrtLoop (sqIn / 2 ^ 16) 8 ((0 : Nat) : Int)).bind _ = _
  rw [hloop, Option.bind_some]
  change int32 (_ * 2 ^ 16) = _
  rw [int32_eq (by omega) (by omega)]
  push_cast
  rfl

/-- Two and a half has the root one. -/
theorem sqrt_eq_sample : sqrt 163840 = some 65536 := by
  have hroot : Nat.sqrt ((163840 : Int) / 2 ^ 16).toNat = 1 :=
    (Nat.eq_sqrt.mpr ⟨by norm_num, by norm_num⟩).symm
  rw [sqrt_eq (by norm_num) (by norm_num), hroot]
  rfl

end StLib.Math.FixedPoint
