import Mathlib

/-! # The lowest bit

The lowest bit of a word, alone, is the greatest power of two that divides it. -/
namespace StLib.Base.LowestBit

variable {w : Nat} {x y : BitVec w}

theorem pow_dvd_iff_testBit (n j : Nat) : 2 ^ j ∣ n ↔ ∀ i < j, n.testBit i = false := by
  constructor
  · rintro ⟨q, rfl⟩ i hi
    rw [Nat.testBit_two_pow_mul, decide_eq_false (Nat.not_le.mpr hi), Bool.false_and]
  · intro h
    refine Nat.dvd_of_mod_eq_zero (Nat.eq_of_testBit_eq fun i => ?_)
    rw [Nat.testBit_mod_two_pow, Nat.zero_testBit]
    by_cases hi : i < j
    · rw [h i hi, Bool.and_false]
    · rw [decide_eq_false hi, Bool.false_and]

theorem pow_dvd_iff_getLsbD (j : Nat) : 2 ^ j ∣ x.toNat ↔ ∀ i < j, x.getLsbD i = false :=
  pow_dvd_iff_testBit ..

/-- A power of two divides two words when it divides their disjunction. -/
theorem pow_dvd_or (j : Nat) : 2 ^ j ∣ (x ||| y).toNat ↔ 2 ^ j ∣ x.toNat ∧ 2 ^ j ∣ y.toNat := by
  rw [pow_dvd_iff_getLsbD, pow_dvd_iff_getLsbD, pow_dvd_iff_getLsbD]
  simp only [BitVec.getLsbD_or, Bool.or_eq_false_iff]
  exact ⟨fun h => ⟨fun i hi => (h i hi).1, fun i hi => (h i hi).2⟩, fun h i hi => ⟨h.1 i hi, h.2 i hi⟩⟩

theorem ctz_lt (h : x ≠ 0#w) : x.ctz.toNat < w :=
  BitVec.lt_of_getLsbD (BitVec.getLsbD_true_ctz_of_ne_zero h)

theorem ne_zero_of_getLsbD {k : Nat} (h : x.getLsbD k = true) : x ≠ 0 := by
  rintro rfl
  exact Bool.false_ne_true (BitVec.getLsbD_zero.symm.trans h)

theorem and_neg_eq (h : x ≠ 0#w) : x &&& -x = BitVec.twoPow w x.ctz.toNat := by
  refine BitVec.eq_of_getLsbD_eq fun i hi => ?_
  rw [BitVec.getLsbD_and, BitVec.getLsbD_neg, BitVec.getLsbD_twoPow, decide_eq_true hi, Bool.true_and,
    decide_eq_true (ctz_lt h), Bool.true_and]
  rcases Nat.lt_trichotomy i x.ctz.toNat with hlt | heq | hgt
  · rw [BitVec.getLsbD_false_of_lt_ctz hlt, Bool.false_and, decide_eq_false (Nat.ne_of_gt hlt)]
  · have hnone : ¬ ∃ j < i, x.getLsbD j = true := by
      rintro ⟨j, hj, hbit⟩
      rw [BitVec.getLsbD_false_of_lt_ctz (heq ▸ hj)] at hbit
      cases hbit
    have hbit : x.getLsbD i = true := heq ▸ BitVec.getLsbD_true_ctz_of_ne_zero h
    rw [hbit, decide_eq_false hnone, decide_eq_true heq.symm]
    rfl
  · have hsome : ∃ j < i, x.getLsbD j = true := ⟨_, hgt, BitVec.getLsbD_true_ctz_of_ne_zero h⟩
    rw [decide_eq_true hsome, decide_eq_false (Nat.ne_of_lt hgt)]
    cases x.getLsbD i <;> rfl

theorem and_neg_toNat (h : x ≠ 0#w) : (x &&& -x).toNat = 2 ^ x.ctz.toNat := by
  rw [and_neg_eq h, BitVec.toNat_twoPow,
    Nat.mod_eq_of_lt (Nat.pow_lt_pow_right Nat.one_lt_two (ctz_lt h))]

/-- The powers of two that divide the word are those up to its lowest bit. -/
theorem pow_dvd_iff (h : x ≠ 0#w) (j : Nat) : 2 ^ j ∣ x.toNat ↔ 2 ^ j ≤ (x &&& -x).toNat := by
  rw [and_neg_toNat h, Nat.pow_le_pow_iff_right Nat.one_lt_two, pow_dvd_iff_getLsbD]
  constructor
  · intro hbits
    by_contra hlt
    have hbit := hbits _ (Nat.not_le.mp hlt)
    rw [BitVec.getLsbD_true_ctz_of_ne_zero h] at hbit
    cases hbit
  · exact fun hle i hi => BitVec.getLsbD_false_of_lt_ctz (Nat.lt_of_lt_of_le hi hle)

end StLib.Base.LowestBit
