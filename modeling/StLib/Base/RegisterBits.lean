import Mathlib.Tactic.Common

/-! # The bits of a register

Masks of one bit, what setting and clearing them leaves of the others, and when a masked
register is zero. -/
namespace StLib.Base.RegisterBits

variable {w : Nat}

def bit (k : Nat) : BitVec w := 1#w <<< k

/-- `SET_BIT`. -/
def setBit (x mask : BitVec w) : BitVec w := x ||| mask

/-- `CLEAR_BIT`. -/
def clearBit (x mask : BitVec w) : BitVec w := x &&& ~~~mask

theorem getLsbD_bit {k : Nat} (hk : k < w) (j : Nat) : (bit k : BitVec w).getLsbD j = decide (j = k) := by
  rw [bit, BitVec.getLsbD_shiftLeft, BitVec.getLsbD_one]
  by_cases hj : j = k
  · simp [hj, hk]
    omega
  · simp only [hj, decide_false]
    by_cases hlt : j < k
    · simp [hlt]
    · have : ¬ j - k = 0 := by omega
      simp [this]

theorem bit_shiftLeft (k m : Nat) : (bit k : BitVec w) <<< m = bit (k + m) := by
  rw [bit, bit, BitVec.shiftLeft_add]

/-- Setting a bit sets that one. -/
theorem getLsbD_setBit {k : Nat} (hk : k < w) (x : BitVec w) (j : Nat) :
    (setBit x (bit k)).getLsbD j = (x.getLsbD j || decide (j = k)) := by
  rw [setBit, BitVec.getLsbD_or, getLsbD_bit hk]

/-- Clearing a bit clears that one. -/
theorem getLsbD_clearBit {k : Nat} (hk : k < w) (x : BitVec w) (j : Nat) :
    (clearBit x (bit k)).getLsbD j = (x.getLsbD j && !decide (j = k)) := by
  rw [clearBit, BitVec.getLsbD_and, BitVec.getLsbD_not, getLsbD_bit hk]
  by_cases hj : j < w
  · simp [hj]
  · simp [hj, BitVec.getLsbD_of_ge x j (Nat.not_lt.mp hj)]

theorem clearBit_or (x mask mask' : BitVec w) :
    clearBit x (mask ||| mask') = clearBit (clearBit x mask) mask' := by
  rw [clearBit, clearBit, clearBit, BitVec.not_or, BitVec.and_assoc]

/-- A register is zero under a mask when its bits there are. -/
theorem and_mask_eq_zero_iff (x mask : BitVec w) :
    x &&& mask = 0 ↔ ∀ k, mask.getLsbD k = true → x.getLsbD k = false := by
  change x &&& mask = 0#w ↔ _
  constructor
  · intro h k hk
    have hand := congrArg (fun y => BitVec.getLsbD y k) h
    simpa [hk] using hand
  · intro h
    refine BitVec.eq_of_getLsbD_eq fun k _ => ?_
    rw [BitVec.getLsbD_and, BitVec.getLsbD_zero]
    cases hk : mask.getLsbD k with
    | true => rw [h k hk, Bool.false_and]
    | false => rw [Bool.and_false]

/-- Testing one bit is reading it. -/
theorem and_bit_eq_zero_iff {k : Nat} (hk : k < w) (x : BitVec w) : x &&& bit k = 0 ↔ x.getLsbD k = false := by
  rw [and_mask_eq_zero_iff]
  constructor
  · intro h
    exact h k (by rw [getLsbD_bit hk, decide_eq_true rfl])
  · intro h j hj
    rw [getLsbD_bit hk, decide_eq_true_iff] at hj
    rw [hj, h]

/-- Clearing a bit that is set and setting it again changes nothing. -/
theorem setBit_clearBit {k : Nat} (hk : k < w) {x : BitVec w} (h : x &&& bit k ≠ 0) :
    setBit (clearBit x (bit k)) (bit k) = x := by
  have hset : x.getLsbD k = true := eq_true_of_ne_false ((and_bit_eq_zero_iff hk x).not.mp h)
  refine BitVec.eq_of_getLsbD_eq fun j _ => ?_
  rw [getLsbD_setBit hk, getLsbD_clearBit hk]
  by_cases hj : j = k
  · rw [hj, hset, decide_eq_true rfl, Bool.or_true]
  · rw [decide_eq_false hj, Bool.not_false, Bool.and_true, Bool.or_false]

end StLib.Base.RegisterBits
