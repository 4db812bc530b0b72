import StLib.Base.NibbleWord
import StLib.Scheduler.Model

/-! # The packed queue is a list

`Holds s q`: the first `active_task_count_` nibbles of `sorted_task_ids_` are the
list `q` and the rest are zero. Under it `insert_sorted` is insertion at the
position of the binary search, `remove_sorted` is `List.erase`, and `pop_front`
is the tail. An id that is not queued is left alone by `remove_sorted` unless it
is 0, the value of the padding. -/
namespace StLib.Scheduler.Queue

open StLib.Base.NibbleWord StLib.Base.SortedQueue StLib.Scheduler.Model

/-- The packed queue of `s` is the list `q`. -/
structure Holds (s : State) (q : List Slot) : Prop where
  packs : Packs s.sortedTaskIds q
  count : s.activeTaskCount = BitVec.ofNat 32 q.length

theorem Holds.length_le {s q} (h : Holds s q) : q.length ≤ 16 := h.packs.1

theorem Holds.toNat {s q} (h : Holds s q) : s.activeTaskCount.toNat = q.length := by
  have := h.length_le
  rw [h.count, BitVec.toNat_ofNat, Nat.mod_eq_of_lt (by omega)]

theorem Holds.count_eq_zero {s q} (h : Holds s q) : s.activeTaskCount = 0#32 ↔ q = [] := by
  rw [← BitVec.toNat_inj, h.toNat]
  simp

theorem Holds.det {s q q'} (h : Holds s q) (h' : Holds s q') : q = q' :=
  h.packs.det h'.packs (by rw [← h.toNat, h'.toNat])

/-- Only the word and the count matter. -/
theorem Holds.congr {s t : State} {q} (h : Holds s q) (hw : t.sortedTaskIds = s.sortedTaskIds)
    (hc : t.activeTaskCount = s.activeTaskCount) : Holds t q :=
  ⟨hw ▸ h.packs, hc ▸ h.count⟩

/-! ## Reading -/

theorem getAt_ofNat (s : State) {i : Nat} (hi : i < 16) :
    getAt s (BitVec.ofNat 8 i) = nibble s.sortedTaskIds i := by
  apply Fin.ext
  rw [nibble_val, getAt, Fin.val_ofNat]
  simp only [BitVec.toNat_and, BitVec.toNat_ushiftRight, BitVec.toNat_ofNat]
  rw [show i % 2 ^ 8 = i by omega, show (15 : Nat) % 2 ^ 64 = 2 ^ 4 - 1 by rfl,
    Nat.and_two_pow_sub_one_eq_mod, Nat.shiftRight_eq_div_pow, Nat.mul_comm, Nat.pow_mul]
  simp

theorem frontId_eq (s : State) : frontId s = nibble s.sortedTaskIds 0 := by
  apply Fin.ext
  rw [nibble_val, frontId, Fin.val_ofNat]
  simp only [BitVec.toNat_and, BitVec.toNat_setWidth, BitVec.toNat_ofNat]
  rw [show (15 : Nat) % 2 ^ 8 = 2 ^ 4 - 1 by rfl, Nat.and_two_pow_sub_one_eq_mod]
  simp

theorem Holds.getAt {s q} (h : Holds s q) {i : Nat} (hi : i < q.length) :
    getAt s (BitVec.ofNat 8 i) = q[i] := by
  rw [getAt_ofNat s (by have := h.length_le; omega), h.packs.get hi]

theorem Holds.front {s a q} (h : Holds s (a :: q)) : frontId s = a := by
  rw [frontId_eq, h.packs.get (i := 0) (by simp)]; rfl

theorem Holds.pop {s a q} (h : Holds s (a :: q)) : Holds (popFront s) q where
  packs := h.packs.tail
  count := by
    show s.activeTaskCount - 1#32 = _
    rw [h.count, BitVec.sub_eq_iff_eq_add, List.length_cons]
    simp [BitVec.ofNat_add]

/-! ## Insertion -/

theorem mask_bit {w : Nat} (n k : Nat) (hn : n < w) :
    ((1#w <<< n) - 1#w).getLsbD k = decide (k < n) := by
  have hlt : 2 ^ n < 2 ^ w := Nat.pow_lt_pow_right (by decide) hn
  have : (1#w <<< n) - 1#w = BitVec.ofNat w (2 ^ n - 1) := by
    apply BitVec.eq_of_toNat_eq
    have h1 : 1 % 2 ^ w = 1 := Nat.mod_eq_of_lt (Nat.one_lt_two_pow (by omega))
    have h2 := Nat.two_pow_pos n
    rw [BitVec.toNat_sub, BitVec.toNat_shiftLeft, BitVec.toNat_ofNat, BitVec.toNat_ofNat, h1,
      Nat.one_shiftLeft, Nat.mod_eq_of_lt hlt, Nat.mod_eq_of_lt (by omega : 2 ^ n - 1 < 2 ^ w),
      show 2 ^ w - 1 + 2 ^ n = 2 ^ n - 1 + 2 ^ w by omega, Nat.add_mod_right,
      Nat.mod_eq_of_lt (by omega)]
  rw [this, BitVec.getLsbD_ofNat, Nat.testBit_two_pow_sub_one]
  by_cases hk : k < n
  · simp [hk]; omega
  · simp [hk]

theorem idShifted_bit (id : Slot) (n k : Nat) (hk : k < 32) :
    (BitVec.ofNat 32 id.val <<< n).getLsbD k = (decide (n ≤ k) && id.val.testBit (k - n)) := by
  rw [BitVec.getLsbD_shiftLeft, BitVec.getLsbD_ofNat]
  by_cases h : k < n
  · simp [h, hk]
  · simp [h, hk]
    by_cases h' : k - n < 32
    · simp [h']; intro; omega
    · omega

theorem slot_testBit_high (id : Slot) {b : Nat} (hb : 4 ≤ b) : id.val.testBit b = false :=
  Nat.testBit_lt_two_pow (Nat.lt_of_lt_of_le id.isLt
    (by simpa using Nat.pow_le_pow_right (n := 2) (by decide) hb))

/-- The bits of a half word opened at bit `n` for an id. -/
theorem openHalf_bit (x : BitVec 32) {n : Nat} (hn : n ≤ 28) (id : Slot) {k : Nat} (hk : k < 32) :
    (((x &&& ~~~((1#32 <<< n) - 1#32)) <<< 4) ||| (x &&& ((1#32 <<< n) - 1#32)) |||
      (BitVec.ofNat 32 id.val <<< n)).getLsbD k =
      if k < n then x.getLsbD k
      else if k < n + 4 then id.val.testBit (k - n)
      else x.getLsbD (k - 4) := by
  simp only [BitVec.getLsbD_or, BitVec.getLsbD_and, BitVec.getLsbD_shiftLeft, BitVec.getLsbD_not,
    mask_bit n _ (by omega : n < 32), idShifted_bit id n k hk]
  rcases Nat.lt_or_ge k n with h1 | h1
  · have : ¬ n ≤ k := by omega
    have : k - 4 < n := by omega
    simp [*]
  · rcases Nat.lt_or_ge k (n + 4) with h2 | h2
    · have : ¬ k < n := by omega
      have : k < 4 ∨ k - 4 < n := by omega
      rcases this with h | h <;> simp [*]
    · have : ¬ k < n := by omega
      have : ¬ k < n + 4 := by omega
      have : ¬ k < 4 := by omega
      have : ¬ k - 4 < n := by omega
      have : k - 4 < 32 := by omega
      simp [*, slot_testBit_high id (show 4 ≤ k - n by omega)]

/-- The bits of a word opened at `pos`. -/
theorem openNibble_bit (w : BitVec 64) {pos : Nat} (hp : pos < 16) (id : Slot) {k : Nat}
    (hk : k < 64) :
    (openNibble w pos id).getLsbD k =
      if k < 4 * pos then w.getLsbD k
      else if k < 4 * pos + 4 then id.val.testBit (k - 4 * pos)
      else w.getLsbD (k - 4) := by
  have hshift : (pos &&& 7) <<< 2 = 4 * (pos % 8) := by
    rw [show (7 : Nat) = 2 ^ 3 - 1 by rfl, Nat.and_two_pow_sub_one_eq_mod, Nat.shiftLeft_eq]
    omega
  simp only [openNibble, hshift, BitVec.getLsbD_or, BitVec.getLsbD_shiftLeft,
    BitVec.getLsbD_setWidth]
  rcases Nat.lt_or_ge pos 8 with hp8 | hp8
  · -- the low half is opened, the high half takes its spilled nibble
    rw [if_neg (by omega), if_neg (by omega), Nat.mod_eq_of_lt hp8]
    rcases Nat.lt_or_ge k 32 with h32 | h32
    · rw [openHalf_bit _ (by omega) id h32]
      have : k - 4 < 32 := by omega
      simp [h32, hk, this]
    · have h1 : ¬ k < 4 * pos := by omega
      have h2 : ¬ k < 4 * pos + 4 := by omega
      rw [if_neg h1, if_neg h2, BitVec.getLsbD_of_ge _ k (by omega)]
      simp only [BitVec.getLsbD_or, BitVec.getLsbD_shiftLeft, BitVec.getLsbD_ushiftRight,
        BitVec.getLsbD_setWidth]
      rcases Nat.lt_or_ge k 36 with h36 | h36
      · have h3 : k - 4 < 32 := by omega
        have h4 : k - 32 < 4 := by omega
        have h5 : k - 32 < 64 := by omega
        have h6 : ¬ k < 32 := by omega
        simp [h3, h4, h5, h6, hk, show 28 + (k - 32) = k - 4 by omega]
      · have h4 : ¬ k - 32 < 4 := by omega
        have h5 : k - 32 < 64 := by omega
        have h6 : ¬ k < 32 := by omega
        have h7 : k - 32 - 4 < 32 := by omega
        have h8 : k - 32 < 32 := by omega
        have h9 : ¬ 28 + (k - 32) < 32 := by omega
        simp [h4, h5, h6, h7, h8, h9, hk, show 32 + (k - 32 - 4) = k - 4 by omega]
  · -- the high half is opened, the low half stays
    rw [if_pos hp8, if_pos hp8]
    rcases Nat.lt_or_ge k 32 with h32 | h32
    · have h1 : k < 4 * pos := by omega
      simp [h32, h1, hk]
    · rw [openHalf_bit _ (by omega) id (by omega)]
      have h6 : ¬ k < 32 := by omega
      have h5 : k - 32 < 64 := by omega
      simp only [BitVec.getLsbD_setWidth, BitVec.getLsbD_ushiftRight]
      rcases Nat.lt_or_ge k (4 * pos) with h1 | h1
      · have h2 : k - 32 < 4 * (pos % 8) := by omega
        have h3 : k - 32 < 32 := by omega
        simp [h1, h2, h3, h5, h6, hk, show 32 + (k - 32) = k by omega]
      · have h2 : ¬ k - 32 < 4 * (pos % 8) := by omega
        have h1' : ¬ k < 4 * pos := by omega
        rcases Nat.lt_or_ge k (4 * pos + 4) with h4 | h4
        · have h7 : k - 32 < 4 * (pos % 8) + 4 := by omega
          simp [h1', h2, h4, h5, h6, h7, hk, show k - 32 - 4 * (pos % 8) = k - 4 * pos by omega]
        · have h7 : ¬ k - 32 < 4 * (pos % 8) + 4 := by omega
          have h8 : k - 32 - 4 < 32 := by omega
          have h9 : ¬ k < 4 * pos + 4 := by omega
          simp [h1', h2, h9, h5, h6, h7, h8, hk, show 32 + (k - 32 - 4) = k - 4 by omega]

/-- An id goes into the packed list at `pos`. -/
theorem openNibble_packs {w : BitVec 64} {q : List Slot} (h : Packs w q) (hl : q.length < 16)
    {pos : Nat} (hp : pos ≤ q.length) (id : Slot) :
    Packs (openNibble w pos id) (q.insertIdx pos id) := by
  have hp16 : pos < 16 := by omega
  apply h.insert hl hp
  · intro i hi
    apply nibble_ext
    intro b hb
    rw [openNibble_bit w hp16 id (by omega), if_pos (by omega)]
  · apply nibble_eq_of_bits
    intro b hb
    rw [openNibble_bit w hp16 id (by omega), if_neg (by omega), if_pos (by omega),
      Nat.add_sub_cancel_left]
  · intro i h1 h2
    apply nibble_ext
    intro b hb
    rw [openNibble_bit w hp16 id (by omega), if_neg (by omega), if_neg (by omega),
      show 4 * i + b - 4 = 4 * (i - 1) + b by omega]

theorem insertPos_le {s q} (h : Holds s q) (id : Slot) : insertPos s id ≤ q.length := by
  rw [← h.toNat]
  exact (search_bounds _ _ _ _ (Nat.zero_le _)).2

/-- **`insert_sorted` inserts in the list** at the position of its search. -/
theorem insertSorted_holds {s q} (h : Holds s q) (hl : q.length < 16) (id : Slot) :
    Holds (insertSorted s id) (q.insertIdx (insertPos s id) id) where
  packs := openNibble_packs h.packs hl (insertPos_le h id) id
  count := by
    show s.activeTaskCount + 1#32 = _
    rw [h.count, List.length_insertIdx_of_le_length (insertPos_le h id), BitVec.ofNat_add]

/-! ## Removal -/

theorem nibblePattern_nibble (id : Slot) {i : Nat} (hi : i < 16) :
    nibble (nibblePattern id) i = id := by
  revert id
  interval_cases i <;> decide

theorem xor_nibble (x y : BitVec 64) (i : Nat) :
    (nibble (x ^^^ y) i).val = (nibble x i).val ^^^ (nibble y i).val := by
  apply Nat.eq_of_testBit_eq
  intro b
  rw [Nat.testBit_xor, nibble_testBit, nibble_testBit, nibble_testBit, BitVec.getLsbD_xor]
  by_cases hb : b < 4 <;> simp [hb]

/-- A nibble of the difference is zero where the word holds the id. -/
theorem diff_nibble (w : BitVec 64) (id : Slot) {i : Nat} (hi : i < 16) :
    nibble (w ^^^ nibblePattern id) i = 0 ↔ nibble w i = id := by
  rw [Fin.ext_iff, xor_nibble, nibblePattern_nibble id hi, Fin.ext_iff]
  exact Nat.xor_eq_zero_iff

theorem closeNibble_packs {w : BitVec 64} {q : List Slot} (h : Packs w q) {pos : Nat}
    (hp : pos < q.length) : Packs (closeNibble w (4 * pos)) (q.eraseIdx pos) := by
  have h16 := h.1
  have hbit : ∀ k, k < 64 → (closeNibble w (4 * pos)).getLsbD k =
      if k < 4 * pos then w.getLsbD k else w.getLsbD (4 + k) := by
    intro k hk
    simp only [closeNibble, BitVec.getLsbD_or, BitVec.getLsbD_and, BitVec.getLsbD_not,
      BitVec.getLsbD_ushiftRight, mask_bit (4 * pos) k (by omega : 4 * pos < 64)]
    by_cases hlt : k < 4 * pos <;> simp [hlt, hk]
  apply h.eraseIdx hp
  · intro i hi
    apply nibble_ext
    intro b hb
    rw [hbit _ (by omega), if_pos (by omega)]
  · intro i h1 h2
    apply nibble_ext
    intro b hb
    rw [hbit _ (by omega), if_neg (by omega), show 4 + (4 * i + b) = 4 * (i + 1) + b by omega]

theorem removeSorted_eq (s : State) (id : Slot) :
    removeSorted s id =
      if zeroMarks (s.sortedTaskIds ^^^ nibblePattern id) = 0#64 then s
      else
        { s with
          sortedTaskIds := closeNibble s.sortedTaskIds
            ((zeroMarks (s.sortedTaskIds ^^^ nibblePattern id)).ctz.toNat - 3)
          activeTaskCount := s.activeTaskCount - 1#32 } := rfl

/-- **`remove_sorted` erases a queued id.** -/
theorem removeSorted_holds {s q} (h : Holds s q) (nd : q.Nodup) {id : Slot} (hid : id ∈ q) :
    Holds (removeSorted s id) (q.erase id) := by
  obtain ⟨pos, hp, hpos⟩ := List.getElem_of_mem hid
  have h16 := h.length_le
  have hz : nibble (s.sortedTaskIds ^^^ nibblePattern id) pos = 0 := by
    rw [diff_nibble _ _ (by omega), h.packs.get hp, hpos]
  have low : ∀ k, k < pos → nibble (s.sortedTaskIds ^^^ nibblePattern id) k ≠ 0 := by
    intro k hk
    rw [Ne, diff_nibble _ _ (by omega), h.packs.get (by omega), ← hpos]
    intro he
    exact absurd ((List.Nodup.getElem_inj_iff nd).mp he) (by omega)
  have hmark : zeroMarks (s.sortedTaskIds ^^^ nibblePattern id) ≠ 0#64 := by
    intro h0
    exact zeroMarks_eq_zero.mp h0 pos (by omega) hz
  rw [removeSorted_eq, if_neg hmark, ctz_zeroMarks (by omega) hz low, Nat.add_sub_cancel]
  have he : q.erase id = q.eraseIdx pos := by rw [eraseIdx_eq_erase hp nd, hpos]
  rw [he]
  refine ⟨closeNibble_packs h.packs hp, ?_⟩
  show s.activeTaskCount - 1#32 = _
  rw [h.count, List.length_eraseIdx_of_lt hp, BitVec.sub_eq_iff_eq_add, ← BitVec.ofNat_add,
    Nat.sub_add_cancel (by omega)]

/-- An id that is neither queued nor the padding value is not found. -/
theorem removeSorted_absent {s q} (h : Holds s q) {id : Slot} (hid : id ∉ q) (h0 : id ≠ 0) :
    removeSorted s id = s := by
  rw [removeSorted_eq, if_pos]
  rw [zeroMarks_eq_zero]
  intro i hi
  rw [Ne, diff_nibble _ _ hi]
  intro he
  rcases Nat.lt_or_ge i q.length with hlt | hge
  · exact hid (he ▸ h.packs.get hlt ▸ List.getElem_mem hlt)
  · exact h0 (he ▸ h.packs.high hge)

/-- The padding of a queue that is not full matches slot 0, queued or not. -/
theorem removeSorted_padding {s q} (h : Holds s q) (hl : q.length < 16) :
    (removeSorted s 0).activeTaskCount = s.activeTaskCount - 1#32 := by
  rw [removeSorted_eq, if_neg]
  intro hz
  refine zeroMarks_eq_zero.mp hz q.length hl ?_
  rw [diff_nibble _ _ hl, h.packs.high (Nat.le_refl _)]

end StLib.Scheduler.Queue
