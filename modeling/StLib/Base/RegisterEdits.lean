import StLib.Base.RegisterBits

/-! # Edits of a register

Lists of edits that set and clear bits: what they leave alone, and which of them commute. -/
namespace StLib.Base.RegisterEdits

open StLib.Base.RegisterBits

variable {w : Nat}

inductive Edit (w : Nat)
  | clear (mask : BitVec w)
  | set (mask : BitVec w)
  | write (value : BitVec w)

/-- The bits that an edit may change. -/
def Edit.bits : Edit w → BitVec w
  | clear mask => mask
  | set mask => mask
  | write _ => BitVec.allOnes w

def Edit.apply (x : BitVec w) : Edit w → BitVec w
  | clear mask => clearBit x mask
  | set mask => setBit x mask
  | write value => value

/-- The register after the edits. -/
def edit (edits : List (Edit w)) (x : BitVec w) : BitVec w := edits.foldl Edit.apply x

/-- `x` has no bits but those of `mask`. -/
def Inside (x mask : BitVec w) : Prop := x &&& ~~~mask = 0

instance (x mask : BitVec w) : Decidable (Inside x mask) := inferInstanceAs (Decidable (_ = _))

/-- The edits change no bits but those of `mask`. -/
def Within (mask : BitVec w) (edits : List (Edit w)) : Prop := ∀ e ∈ edits, Inside e.bits mask

instance (mask : BitVec w) (edits : List (Edit w)) : Decidable (Within mask edits) :=
  inferInstanceAs (Decidable (∀ e ∈ edits, _))

theorem getLsbD_not_mask {mask : BitVec w} {k : Nat} (hk : k < w) :
    (~~~mask).getLsbD k = !mask.getLsbD k := by
  rw [BitVec.getLsbD_not, decide_eq_true hk, Bool.true_and]

theorem inside_iff {x mask : BitVec w} :
    Inside x mask ↔ ∀ k, x.getLsbD k = true → mask.getLsbD k = true := by
  rw [Inside, and_mask_eq_zero_iff]
  constructor
  · intro h k hx
    cases hmask : mask.getLsbD k with
    | true => rfl
    | false =>
      have hnot : (~~~mask).getLsbD k = !mask.getLsbD k := getLsbD_not_mask (BitVec.lt_of_getLsbD hx)
      rw [hmask] at hnot
      exact (h k hnot).symm.trans hx
  · intro h k hnot
    cases hx : x.getLsbD k with
    | false => rfl
    | true =>
      rw [getLsbD_not_mask (BitVec.lt_of_getLsbD hnot), h k hx] at hnot
      exact hnot.symm

theorem Inside.shiftLeft {x mask : BitVec w} (h : Inside x mask) (n : Nat) : Inside (x <<< n) (mask <<< n) := by
  rw [inside_iff] at h ⊢
  intro k hk
  rw [BitVec.getLsbD_shiftLeft, Bool.and_eq_true] at hk ⊢
  exact ⟨hk.1, h _ hk.2⟩

theorem Inside.refl (x : BitVec w) : Inside x x := inside_iff.mpr fun _ => id

theorem Inside.or_left {x mask : BitVec w} (h : Inside x mask) (more : BitVec w) : Inside x (mask ||| more) := by
  rw [inside_iff] at h ⊢
  intro k hk
  rw [BitVec.getLsbD_or, h k hk, Bool.true_or]

theorem Inside.or_right {x mask : BitVec w} (h : Inside x mask) (more : BitVec w) : Inside x (more ||| mask) := by
  rw [BitVec.or_comm]
  exact h.or_left more

theorem inside_of_mem {x mask : BitVec w} {values : List (BitVec w)} (h : x ∈ values)
    (hall : values.all (fun y => decide (Inside y mask)) = true) : Inside x mask :=
  of_decide_eq_true (List.all_eq_true.mp hall x h)

/-- What a mask has cut is within the mask. -/
theorem Inside.and_left {x field mask : BitVec w} (h : Inside field mask) : Inside (x &&& field) mask := by
  rw [Inside, BitVec.and_assoc, h]
  exact BitVec.and_zero

/-- Two words are the same outside of a mask when their bits there are. -/
theorem and_not_mask_eq_iff {x y mask : BitVec w} :
    x &&& ~~~mask = y &&& ~~~mask ↔ ∀ k, mask.getLsbD k = false → x.getLsbD k = y.getLsbD k := by
  constructor
  · intro h k hmask
    by_cases hk : k < w
    · have hbit := congrArg (fun z => BitVec.getLsbD z k) h
      rw [BitVec.getLsbD_and, BitVec.getLsbD_and, getLsbD_not_mask hk, hmask, Bool.not_false, Bool.and_true,
        Bool.and_true] at hbit
      exact hbit
    · rw [BitVec.getLsbD_of_ge x k (Nat.not_lt.mp hk), BitVec.getLsbD_of_ge y k (Nat.not_lt.mp hk)]
  · intro h
    refine BitVec.eq_of_getLsbD_eq fun k hk => ?_
    rw [BitVec.getLsbD_and, BitVec.getLsbD_and, getLsbD_not_mask hk]
    cases hmask : mask.getLsbD k with
    | true => rw [Bool.not_true, Bool.and_false, Bool.and_false]
    | false => rw [h k hmask]

/-! ## Bit by bit -/

theorem getLsbD_setBit_mask (x mask : BitVec w) (k : Nat) :
    (setBit x mask).getLsbD k = (x.getLsbD k || mask.getLsbD k) := BitVec.getLsbD_or

theorem getLsbD_clearBit_mask (x mask : BitVec w) (k : Nat) :
    (clearBit x mask).getLsbD k = (x.getLsbD k && !mask.getLsbD k) := by
  rw [clearBit, BitVec.getLsbD_and]
  by_cases hk : k < w
  · rw [getLsbD_not_mask hk]
  · rw [BitVec.getLsbD_of_ge x k (Nat.not_lt.mp hk), Bool.false_and, Bool.false_and]

/-- An edit leaves the bits alone that it is not of. -/
theorem Edit.getLsbD_apply (e : Edit w) (x : BitVec w) {k : Nat} (h : e.bits.getLsbD k = false) :
    (e.apply x).getLsbD k = x.getLsbD k := by
  cases e with
  | clear mask => rw [apply, getLsbD_clearBit_mask, show mask.getLsbD k = false from h, Bool.not_false, Bool.and_true]
  | set mask => rw [apply, getLsbD_setBit_mask, show mask.getLsbD k = false from h, Bool.or_false]
  | write value =>
    have hk : w ≤ k := by
      by_contra hlt
      have hone := BitVec.getLsbD_allOnes (v := w) (i := k)
      rw [decide_eq_true (Nat.not_le.mp hlt)] at hone
      exact absurd (hone.symm.trans h) Bool.noConfusion
    rw [BitVec.getLsbD_of_ge _ k hk, BitVec.getLsbD_of_ge _ k hk]

/-- A bit after an edit is one of the bit before. -/
theorem Edit.getLsbD_congr (e : Edit w) {x y : BitVec w} {k : Nat} (h : x.getLsbD k = y.getLsbD k) :
    (e.apply x).getLsbD k = (e.apply y).getLsbD k := by
  cases e with
  | clear mask => rw [apply, apply, getLsbD_clearBit_mask, getLsbD_clearBit_mask, h]
  | set mask => rw [apply, apply, getLsbD_setBit_mask, getLsbD_setBit_mask, h]
  | write value => rfl

section Edits

variable {mask : BitVec w} {edits : List (Edit w)}

theorem within_nil : Within mask ([] : List (Edit w)) := fun _ h => absurd h List.not_mem_nil

theorem within_cons {e : Edit w} : Within mask (e :: edits) ↔ Inside e.bits mask ∧ Within mask edits :=
  List.forall_mem_cons

theorem within_append {more : List (Edit w)} :
    Within mask (edits ++ more) ↔ Within mask edits ∧ Within mask more := List.forall_mem_append

theorem getLsbD_edit (h : Within mask edits) (x : BitVec w) {k : Nat} (hk : mask.getLsbD k = false) :
    (edit edits x).getLsbD k = x.getLsbD k := by
  induction edits generalizing x with
  | nil => rfl
  | cons e edits ih =>
    obtain ⟨he, hrest⟩ := within_cons.mp h
    have hbit : e.bits.getLsbD k = false := by
      by_contra hset
      exact absurd (hk.symm.trans (inside_iff.mp he k (Bool.not_eq_false _ ▸ hset))) Bool.noConfusion
    exact (ih hrest _).trans (e.getLsbD_apply x hbit)

theorem getLsbD_edit_congr (edits : List (Edit w)) {x y : BitVec w} {k : Nat}
    (h : x.getLsbD k = y.getLsbD k) : (edit edits x).getLsbD k = (edit edits y).getLsbD k := by
  induction edits generalizing x y with
  | nil => exact h
  | cons e edits ih => exact ih (e.getLsbD_congr h)

theorem getLsbD_clear_set (mask value x : BitVec w) (k : Nat) :
    (edit [.clear mask, .set value] x).getLsbD k = (x.getLsbD k && !mask.getLsbD k || value.getLsbD k) := by
  change (setBit (clearBit x mask) value).getLsbD k = _
  rw [getLsbD_setBit_mask, getLsbD_clearBit_mask]

/-- Edits within a mask leave the rest alone. -/
theorem edit_outside (h : Within mask edits) (x : BitVec w) : edit edits x &&& ~~~mask = x &&& ~~~mask :=
  and_not_mask_eq_iff.mpr fun _ => getLsbD_edit h x

theorem edit_append (edits more : List (Edit w)) (x : BitVec w) :
    edit (edits ++ more) x = edit more (edit edits x) := List.foldl_append

/-- Edits within masks that share no bit commute. -/
theorem edit_comm {mask' : BitVec w} {more : List (Edit w)} (h : Within mask edits) (h' : Within mask' more)
    (hdisjoint : mask &&& mask' = 0) (x : BitVec w) : edit edits (edit more x) = edit more (edit edits x) := by
  refine BitVec.eq_of_getLsbD_eq fun k _ => ?_
  cases hk : mask.getLsbD k with
  | false =>
    rw [getLsbD_edit h _ hk]
    exact getLsbD_edit_congr more (getLsbD_edit h x hk).symm
  | true =>
    have hk' : mask'.getLsbD k = false := by
      have hboth := congrArg (fun z => BitVec.getLsbD z k) hdisjoint
      simpa [hk] using hboth
    rw [getLsbD_edit h' _ hk']
    exact getLsbD_edit_congr edits (getLsbD_edit h' x hk')

end Edits

end StLib.Base.RegisterEdits
