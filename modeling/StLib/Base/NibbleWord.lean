import Mathlib
import StLib.Base.FinLiterals

/-! # Words that pack a list of nibbles

A 64-bit word read as sixteen 4-bit digits, digit 0 in the low bits. `Packs w l`
says that the low digits of `w` are the list `l` and that every higher digit is
zero. The lemmas give the list meaning of the word operations such code is
written with: opening a hole, closing one, dropping the first digit, and the
subtract-and-mask trick that finds the lowest zero digit. -/
namespace StLib.Base.NibbleWord

/-! ## Digits and bits -/

/-- The `i`-th 4-bit digit of a word. -/
def nibble (w : BitVec 64) (i : Nat) : Fin 16 :=
  ⟨w.toNat / 16 ^ i % 16, Nat.mod_lt _ (by decide)⟩

theorem nibble_val (w : BitVec 64) (i : Nat) : (nibble w i).val = w.toNat / 16 ^ i % 16 := rfl

theorem nibble_testBit (w : BitVec 64) (i b : Nat) :
    (nibble w i).val.testBit b = (decide (b < 4) && w.getLsbD (4 * i + b)) := by
  rw [nibble_val, show (16 : Nat) ^ i = 2 ^ (4 * i) by rw [Nat.pow_mul],
    ← Nat.shiftRight_eq_div_pow, show (16 : Nat) = 2 ^ 4 by rfl, Nat.testBit_mod_two_pow,
    Nat.testBit_shiftRight]
  rfl

theorem nibble_bit {w : BitVec 64} {i b : Nat} (hb : b < 4) :
    w.getLsbD (4 * i + b) = (nibble w i).val.testBit b := by
  simp [nibble_testBit, hb]

/-- Two digits are equal when their four bits are. -/
theorem nibble_ext {w w' : BitVec 64} {i j : Nat}
    (h : ∀ b, b < 4 → w.getLsbD (4 * i + b) = w'.getLsbD (4 * j + b)) :
    nibble w i = nibble w' j := by
  apply Fin.ext
  apply Nat.eq_of_testBit_eq
  intro b
  rw [nibble_testBit, nibble_testBit]
  by_cases hb : b < 4
  · simp [hb, h b hb]
  · simp [hb]

/-- A digit is the value whose bits it has. -/
theorem nibble_eq_of_bits {w : BitVec 64} {i : Nat} {x : Fin 16}
    (h : ∀ b, b < 4 → w.getLsbD (4 * i + b) = x.val.testBit b) : nibble w i = x := by
  apply Fin.ext
  apply Nat.eq_of_testBit_eq
  intro b
  rw [nibble_testBit]
  by_cases hb : b < 4
  · simp [hb, h b hb]
  · have hx : x.val < 2 ^ b := Nat.lt_of_lt_of_le x.isLt
      (by simpa using Nat.pow_le_pow_right (n := 2) (by decide) (show 4 ≤ b by omega))
    simp [hb, Nat.testBit_lt_two_pow hx]

theorem nibble_of_ge (w : BitVec 64) {i : Nat} (h : 16 ≤ i) : nibble w i = 0 := by
  apply nibble_eq_of_bits
  intro b _
  rw [BitVec.getLsbD_of_ge _ _ (by omega)]
  simp

@[simp] theorem nibble_zero (i : Nat) : nibble 0#64 i = 0 := by
  apply Fin.ext; simp [nibble_val]

/-! ## Words and lists -/

/-- The low digits of `w` are `l`, and every digit above them is zero. -/
def Packs (w : BitVec 64) (l : List (Fin 16)) : Prop :=
  l.length ≤ 16 ∧ ∀ i, nibble w i = l.getD i 0

theorem packs_nil : Packs 0#64 [] := ⟨by simp, fun i => by simp⟩

theorem Packs.get {w l} (h : Packs w l) {i : Nat} (hi : i < l.length) : nibble w i = l[i] := by
  rw [h.2 i, List.getD_eq_getElem _ _ hi]

theorem Packs.high {w l} (h : Packs w l) {i : Nat} (hi : l.length ≤ i) : nibble w i = 0 := by
  rw [h.2 i, List.getD_eq_default _ _ hi]

/-- The list a word packs is read off its digits. -/
theorem Packs.map_range {w l} (h : Packs w l) : (List.range l.length).map (nibble w) = l := by
  apply List.ext_getElem
  · simp
  · intro i h1 h2
    simpa using h.get h2

theorem Packs.det {w l l'} (h : Packs w l) (h' : Packs w l') (hl : l.length = l'.length) :
    l = l' := by rw [← h.map_range, ← h'.map_range, hl]

/-- Opening a hole at `pos` and filling it with `x` inserts `x` into the list. -/
theorem Packs.insert {w w' : BitVec 64} {l : List (Fin 16)} {pos : Nat} {x : Fin 16}
    (h : Packs w l) (hl : l.length < 16) (hp : pos ≤ l.length)
    (lo : ∀ i, i < pos → nibble w' i = nibble w i) (mid : nibble w' pos = x)
    (hi : ∀ i, pos < i → i < 16 → nibble w' i = nibble w (i - 1)) :
    Packs w' (l.insertIdx pos x) := by
  have hlen : (l.insertIdx pos x).length = l.length + 1 := List.length_insertIdx_of_le_length hp x
  refine ⟨by omega, fun i => ?_⟩
  rw [List.getD_eq_getElem?_getD, List.getElem?_insertIdx]
  rcases Nat.lt_trichotomy i pos with hlt | heq | hgt
  · rw [if_pos hlt, lo i hlt, h.2 i, List.getD_eq_getElem?_getD]
  · subst heq
    simp [hp, mid]
  · rw [if_neg (by omega), if_neg (by omega)]
    by_cases hi16 : i < 16
    · rw [hi i hgt hi16, h.2, List.getD_eq_getElem?_getD]
    · rw [nibble_of_ge _ (by omega), List.getElem?_eq_none (by omega)]
      rfl

/-- Closing the hole at `pos` erases that digit from the list. -/
theorem Packs.eraseIdx {w w' : BitVec 64} {l : List (Fin 16)} {pos : Nat}
    (h : Packs w l) (hp : pos < l.length)
    (lo : ∀ i, i < pos → nibble w' i = nibble w i)
    (hi : ∀ i, pos ≤ i → i < 16 → nibble w' i = nibble w (i + 1)) :
    Packs w' (l.eraseIdx pos) := by
  have hlen : (l.eraseIdx pos).length = l.length - 1 := List.length_eraseIdx_of_lt hp
  have h16 := h.1
  refine ⟨by omega, fun i => ?_⟩
  rw [List.getD_eq_getElem?_getD, List.getElem?_eraseIdx]
  by_cases hlt : i < pos
  · rw [if_pos hlt, lo i hlt, h.2 i, List.getD_eq_getElem?_getD]
  · rw [if_neg hlt]
    by_cases hi16 : i < 16
    · rw [hi i (by omega) hi16, h.2, List.getD_eq_getElem?_getD]
    · rw [nibble_of_ge _ (by omega), List.getElem?_eq_none (by omega)]
      rfl

/-- Shifting one digit out drops the head. -/
theorem Packs.tail {w : BitVec 64} {x : Fin 16} {l : List (Fin 16)} (h : Packs w (x :: l)) :
    Packs (w >>> 4) l := by
  have hl := h.1
  refine ⟨by simp at hl; omega, fun i => ?_⟩
  have : nibble (w >>> 4) i = nibble w (i + 1) := nibble_ext fun b _ => by
    rw [BitVec.getLsbD_ushiftRight]; congr 1; omega
  rw [this, h.2 (i + 1), List.getD_cons_succ]

/-! ## The lowest zero digit -/

theorem ctz_eq {n : Nat} {x : BitVec n} {i : Nat} (h : x.getLsbD i = true)
    (low : ∀ j, j < i → x.getLsbD j = false) : x.ctz.toNat = i := by
  have hx : x ≠ 0#n := by rintro rfl; simp at h
  have hc := BitVec.getLsbD_true_ctz_of_ne_zero hx
  rcases Nat.lt_trichotomy x.ctz.toNat i with hlt | heq | hgt
  · rw [low _ hlt] at hc; cases hc
  · exact heq
  · rw [BitVec.getLsbD_false_of_lt_ctz hgt] at h; cases h

/-- A mark in bit 3 of the lowest zero digit (and possibly of higher ones). -/
def zeroMarks (x : BitVec 64) : BitVec 64 :=
  (x - 0x1111111111111111#64) &&& (~~~x &&& 0x8888888888888888#64)

/-- Below a digit, nonzero digits leave enough to subtract a one from each. -/
theorem ones_le_low (x : BitVec 64) :
    ∀ j, j ≤ 16 → (∀ k, k < j → nibble x k ≠ 0) →
      0x1111111111111111 % 16 ^ j ≤ x.toNat % 16 ^ j
  | 0, _, _ => by simp
  | j + 1, hj, h => by
    have ih := ones_le_low x j (by omega) (fun k hk => h k (by omega))
    have hd : 1 ≤ x.toNat / 16 ^ j % 16 := by
      have := h j (by omega)
      rw [Ne, Fin.ext_iff, nibble_val] at this
      simp at this; omega
    have hone : 0x1111111111111111 / 16 ^ j % 16 = 1 := by
      have hj' : j < 16 := by omega
      clear ih hd h hj
      interval_cases j <;> rfl
    rw [Nat.mod_pow_succ, Nat.mod_pow_succ, hone]
    exact Nat.add_le_add ih (Nat.mul_le_mul_left _ hd)

/-- With no zero digit below it, a digit loses exactly one in the subtraction. -/
theorem nibble_sub_ones (x : BitVec 64) {j : Nat} (hj : j < 16)
    (h : ∀ k, k < j → nibble x k ≠ 0) :
    (nibble (x - 0x1111111111111111#64) j).val = ((nibble x j).val + 15) % 16 := by
  have hlow := ones_le_low x j (by omega) h
  have hx := x.isLt
  rw [nibble_val, nibble_val, BitVec.toNat_sub]
  clear h
  simp only [BitVec.toNat_ofNat]
  interval_cases j <;> omega

theorem mark_bit (x : BitVec 64) {j b : Nat} (hj : j < 16) (hb : b < 4)
    (h : ∀ k, k < j → nibble x k ≠ 0) :
    (zeroMarks x).getLsbD (4 * j + b) = decide (b = 3 ∧ nibble x j = 0) := by
  have hmask : (0x8888888888888888#64).getLsbD (4 * j + b) = decide (b = 3) := by
    clear h; interval_cases j <;> interval_cases b <;> rfl
  simp only [zeroMarks, BitVec.getLsbD_and, BitVec.getLsbD_not, hmask]
  by_cases h3 : b = 3
  · subst h3
    rw [nibble_bit (w := x - _) (by decide), nibble_bit (w := x) (by decide),
      nibble_sub_ones x hj h]
    have hlt : 4 * j + 3 < 64 := by omega
    generalize nibble x j = d
    revert d
    simp only [hlt, decide_true]
    decide
  · simp [h3]

/-- The lowest mark is in the lowest zero digit. -/
theorem ctz_zeroMarks {x : BitVec 64} {i : Nat} (hi : i < 16) (hz : nibble x i = 0)
    (low : ∀ k, k < i → nibble x k ≠ 0) : (zeroMarks x).ctz.toNat = 4 * i + 3 := by
  apply ctz_eq
  · rw [mark_bit x hi (by decide) low]; simp [hz]
  · intro n hn
    have hdm : n = 4 * (n / 4) + n % 4 := by omega
    rw [hdm, mark_bit x (by omega) (by omega) (fun k hk => low k (by omega))]
    rw [decide_eq_false_iff_not]
    rintro ⟨h3, hz'⟩
    rcases Nat.lt_or_ge (n / 4) i with hlt | hge
    · exact low _ hlt hz'
    · omega

/-- There is a mark exactly when some digit is zero. -/
theorem zeroMarks_eq_zero {x : BitVec 64} :
    zeroMarks x = 0#64 ↔ ∀ i, i < 16 → nibble x i ≠ 0 := by
  constructor
  · intro h0 i
    induction i using Nat.strong_induction_on with
    | _ i ih =>
      intro hi hz
      have hm := mark_bit x hi (b := 3) (by decide) (fun k hk => ih k hk (by omega))
      rw [h0] at hm
      simp [hz] at hm
  · intro h
    apply BitVec.eq_of_getLsbD_eq
    intro n hn
    have hdm : n = 4 * (n / 4) + n % 4 := by omega
    rw [hdm, mark_bit x (by omega) (by omega) (fun k hk => h k (by omega))]
    simp [h (n / 4) (by omega)]

end StLib.Base.NibbleWord
