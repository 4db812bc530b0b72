import Mathlib

/-! # Instants kept modulo a power of two

A clock that counts without end but is stored in `w` bits. The signed difference
of two stored instants is the true difference as long as the true instants are
within half the range of each other (`Near`). -/
namespace StLib.Base.SerialTime

/-- The true instants `a` and `b` are close enough for their `w`-bit images to
be compared by signed difference. -/
def Near (w a b : Nat) : Prop := b ≤ a + 2 ^ (w - 1) ∧ a < b + 2 ^ (w - 1)

instance (w a b : Nat) : Decidable (Near w a b) := inferInstanceAs (Decidable (_ ∧ _))

/-- The signed difference of near instants is exact. -/
theorem toInt_sub_of_near {w a b : Nat} (hw : 0 < w) (h : Near w a b) :
    (BitVec.ofNat w a - BitVec.ofNat w b).toInt = (a : Int) - b := by
  obtain ⟨h1, h2⟩ := h
  obtain ⟨n, rfl⟩ : ∃ n, w = n + 1 := ⟨w - 1, by omega⟩
  simp only [Nat.add_sub_cancel] at h1 h2
  rw [BitVec.toInt_sub, BitVec.toInt_ofNat', BitVec.toInt_ofNat', Int.bmod_sub_bmod,
    Int.sub_bmod_bmod]
  apply Int.bmod_eq_of_le
  · have : ((2 ^ (n + 1) : Nat) : Int) / 2 = ((2 ^ n : Nat) : Int) := by
      rw [Nat.pow_succ]; omega
    omega
  · have : (((2 ^ (n + 1) : Nat) : Int) + 1) / 2 = ((2 ^ n : Nat) : Int) := by
      rw [Nat.pow_succ]; omega
    omega

/-- Order of near instants, read from the sign of the stored difference. -/
theorem sub_nonneg_iff {w a b : Nat} (hw : 0 < w) (h : Near w a b) :
    0 ≤ (BitVec.ofNat w a - BitVec.ofNat w b).toInt ↔ b ≤ a := by
  rw [toInt_sub_of_near hw h]; omega

theorem sub_pos_iff {w a b : Nat} (hw : 0 < w) (h : Near w a b) :
    0 < (BitVec.ofNat w a - BitVec.ofNat w b).toInt ↔ b < a := by
  rw [toInt_sub_of_near hw h]; omega

/-- A later instant less than the full range away is recovered by unsigned
subtraction. -/
theorem toNat_sub_of_le {w a b : Nat} (hba : b ≤ a) (h : a < b + 2 ^ w) :
    (BitVec.ofNat w a - BitVec.ofNat w b).toNat = a - b := by
  rw [show BitVec.ofNat w a - BitVec.ofNat w b = BitVec.ofNat w (a - b) by
    rw [BitVec.sub_eq_iff_eq_add, BitVec.ofNat_add_ofNat, Nat.sub_add_cancel hba],
    BitVec.toNat_ofNat, Nat.mod_eq_of_lt (by omega)]

end StLib.Base.SerialTime
