import Mathlib
import StLib.Base.RegisterBits

/-! # Slots of a word

A word that packs values into slots of bits: reading a slot back, and replacing what is in one. -/
namespace StLib.Base.BitSlots

variable {w : Nat}

/-- A range of the bits of a word. -/
structure Slot (w : Nat) where
  pos : Nat
  width : Nat
  fits : pos + width ≤ w := by decide

namespace Slot

def read (s : Slot w) (x : BitVec w) : BitVec s.width := x.extractLsb' s.pos s.width

def Covers (s : Slot w) (k : Nat) : Prop := s.pos ≤ k ∧ k < s.pos + s.width

instance (s : Slot w) (k : Nat) : Decidable (s.Covers k) := inferInstanceAs (Decidable (_ ∧ _))

def Apart (s t : Slot w) : Prop := s.pos + s.width ≤ t.pos ∨ t.pos + t.width ≤ s.pos

instance (s t : Slot w) : Decidable (s.Apart t) := inferInstanceAs (Decidable (_ ∨ _))

/-- The bits of a slot. -/
def mask (s : Slot w) : BitVec w := BitVec.ofNat w (2 ^ s.width - 1) <<< s.pos

/-- The word with another value in a slot. -/
def replace (s : Slot w) (value x : BitVec w) : BitVec w := x &&& ~~~s.mask ||| value <<< s.pos

theorem Apart.symm {s t : Slot w} (h : s.Apart t) : t.Apart s := Or.symm h

theorem getLsbD_read (s : Slot w) (x : BitVec w) {k : Nat} (hk : k < s.width) :
    (s.read x).getLsbD k = x.getLsbD (s.pos + k) := by
  rw [read, BitVec.getLsbD_extractLsb', decide_eq_true hk, Bool.true_and]

theorem getLsbD_mask (s : Slot w) (k : Nat) : s.mask.getLsbD k = decide (s.Covers k) := by
  have hfits := s.fits
  rw [mask, BitVec.getLsbD_shiftLeft, BitVec.getLsbD_ofNat, Nat.testBit_two_pow_sub_one]
  unfold Covers
  grind

/-- The bits of a value that is put in a slot. -/
theorem getLsbD_shiftLeft {s : Slot w} {value : BitVec w} (h : value.toNat < 2 ^ s.width) (k : Nat) :
    (value <<< s.pos).getLsbD k = (decide (s.Covers k) && value.getLsbD (k - s.pos)) := by
  have hfits := s.fits
  rw [BitVec.getLsbD_shiftLeft]
  by_cases hcovers : s.Covers k
  · have hlt : k < w := by
      unfold Covers at hcovers
      omega
    have hle : ¬ k < s.pos := Nat.not_lt.mpr hcovers.1
    simp [hcovers, hlt, hle]
  · by_cases hlow : k < s.pos
    · simp [hcovers, hlow]
    · have hhigh : s.width ≤ k - s.pos := by
        unfold Covers at hcovers
        omega
      have hzero : value.getLsbD (k - s.pos) = false :=
        Nat.testBit_lt_two_pow (Nat.lt_of_lt_of_le h (Nat.pow_le_pow_right Nat.two_pos hhigh))
      rw [hzero, Bool.and_false, Bool.and_false]

theorem Apart.not_covers {s t : Slot w} (h : s.Apart t) {k : Nat} (hk : k < s.width) :
    ¬ t.Covers (s.pos + k) := by
  unfold Covers
  unfold Apart at h
  omega

theorem covers_add (s : Slot w) {k : Nat} (hk : k < s.width) : s.Covers (s.pos + k) :=
  ⟨Nat.le_add_right _ _, Nat.add_lt_add_left hk _⟩

/-- A slot by its mask, as a masked register is shifted down. -/
theorem and_mask_ushiftRight (s : Slot w) (x : BitVec w) : (x &&& s.mask) >>> s.pos = (s.read x).setWidth w := by
  refine BitVec.eq_of_getLsbD_eq fun k hk => ?_
  rw [BitVec.getLsbD_ushiftRight, BitVec.getLsbD_and, getLsbD_mask, BitVec.getLsbD_setWidth, decide_eq_true hk,
    Bool.true_and]
  by_cases hlt : k < s.width
  · rw [getLsbD_read _ _ hlt, decide_eq_true (s.covers_add hlt), Bool.and_true]
  · have hnot : ¬ s.Covers (s.pos + k) := fun h => hlt (Nat.lt_of_add_lt_add_left h.2)
    rw [decide_eq_false hnot, Bool.and_false, BitVec.getLsbD_of_ge _ _ (Nat.not_lt.mp hlt)]

/-! ## Replacing -/

theorem read_replace {s : Slot w} {value : BitVec w} (h : value.toNat < 2 ^ s.width) (x : BitVec w) :
    s.read (s.replace value x) = value.setWidth s.width := by
  refine BitVec.eq_of_getLsbD_eq fun k hk => ?_
  have hcovers := s.covers_add hk
  rw [getLsbD_read _ _ hk, replace, BitVec.getLsbD_or, BitVec.getLsbD_and, BitVec.getLsbD_not, getLsbD_mask,
    getLsbD_shiftLeft h, BitVec.getLsbD_setWidth, decide_eq_true hcovers, decide_eq_true hk, Bool.not_true,
    Bool.and_false, Bool.and_false, Bool.false_or, Bool.true_and, Bool.true_and, Nat.add_sub_cancel_left]

theorem getLsbD_replace_outside {s : Slot w} {value : BitVec w} (h : value.toNat < 2 ^ s.width) (x : BitVec w)
    {k : Nat} (hk : ¬ s.Covers k) : (s.replace value x).getLsbD k = x.getLsbD k := by
  rw [replace, BitVec.getLsbD_or, BitVec.getLsbD_and, BitVec.getLsbD_not, getLsbD_mask, getLsbD_shiftLeft h,
    decide_eq_false hk, Bool.not_false, Bool.and_true, Bool.false_and, Bool.or_false]
  by_cases hlt : k < w
  · rw [decide_eq_true hlt, Bool.and_true]
  · rw [BitVec.getLsbD_of_ge x k (Nat.not_lt.mp hlt), Bool.false_and]

theorem read_replace_apart {s t : Slot w} (hapart : t.Apart s) {value : BitVec w}
    (h : value.toNat < 2 ^ s.width) (x : BitVec w) : t.read (s.replace value x) = t.read x := by
  refine BitVec.eq_of_getLsbD_eq fun k hk => ?_
  rw [getLsbD_read _ _ hk, getLsbD_read _ _ hk, getLsbD_replace_outside h x (hapart.not_covers hk)]

end Slot

/-! ## Packing -/

/-- A value for a slot. -/
structure Field (w : Nat) where
  slot : Slot w
  value : BitVec w

def Field.Small (f : Field w) : Prop := f.value.toNat < 2 ^ f.slot.width

def pack (fields : List (Field w)) : BitVec w := fields.foldr (fun f x => f.value <<< f.slot.pos ||| x) 0

/-- A word that has bits in some slots only. -/
def Only (slots : List (Slot w)) (x : BitVec w) : Prop :=
  ∀ k, (∀ s ∈ slots, ¬ s.Covers k) → x.getLsbD k = false

/-- Bits that are only in some slots are only in slots that cover these. -/
theorem Only.mono {slots more : List (Slot w)} {x : BitVec w} (h : Only slots x)
    (hcovers : ∀ s ∈ slots, ∀ k, s.Covers k → ∃ t ∈ more, t.Covers k) : Only more x := by
  intro k hk
  refine h k fun s hs hcovered => ?_
  obtain ⟨t, ht, htk⟩ := hcovers s hs k hcovered
  exact hk t ht htk

theorem only_pack {fields : List (Field w)} (h : ∀ f ∈ fields, f.Small) :
    Only (fields.map Field.slot) (pack fields) := by
  induction fields with
  | nil => exact fun _ _ => BitVec.getLsbD_zero
  | cons f fields ih =>
    intro k hk
    obtain ⟨hsmall, hrest⟩ := List.forall_mem_cons.mp h
    obtain ⟨hf, hothers⟩ := List.forall_mem_cons.mp hk
    rw [pack, List.foldr_cons, BitVec.getLsbD_or, Slot.getLsbD_shiftLeft hsmall, decide_eq_false hf,
      Bool.false_and, Bool.false_or]
    exact ih hrest k hothers

/-- No value spills out of its slot. -/
theorem read_pack {fields : List (Field w)} (hsmall : ∀ f ∈ fields, f.Small)
    (hapart : (fields.map Field.slot).Pairwise Slot.Apart) :
    ∀ f ∈ fields, f.slot.read (pack fields) = f.value.setWidth f.slot.width := by
  induction fields with
  | nil => exact fun f hf => absurd hf List.not_mem_nil
  | cons g fields ih =>
    obtain ⟨hg, hrest⟩ := List.forall_mem_cons.mp hsmall
    obtain ⟨hfirst, hothers⟩ := List.pairwise_cons.mp hapart
    intro f hf
    refine BitVec.eq_of_getLsbD_eq fun k hk => ?_
    rw [Slot.getLsbD_read _ _ hk, pack, List.foldr_cons, BitVec.getLsbD_or, Slot.getLsbD_shiftLeft hg]
    rcases List.mem_cons.mp hf with rfl | hmem
    · have hzero : (pack fields).getLsbD (f.slot.pos + k) = false :=
        only_pack hrest _ fun s hs => (hfirst s hs).not_covers hk
      rw [decide_eq_true (f.slot.covers_add hk), Nat.add_sub_cancel_left, BitVec.getLsbD_setWidth,
        decide_eq_true hk]
      change (_ || (pack fields).getLsbD _) = _
      rw [hzero, Bool.or_false]
    · have hnot := (hfirst f.slot (List.mem_map_of_mem hmem)).symm.not_covers hk
      rw [decide_eq_false hnot, Bool.false_and, Bool.false_or, ← ih hrest hothers f hmem,
        Slot.getLsbD_read _ _ hk]
      rfl

theorem toNat_read_pack {fields : List (Field w)} (hsmall : ∀ f ∈ fields, f.Small)
    (hapart : (fields.map Field.slot).Pairwise Slot.Apart) :
    ∀ f ∈ fields, (f.slot.read (pack fields)).toNat = f.value.toNat := by
  intro f hf
  rw [read_pack hsmall hapart f hf, BitVec.toNat_setWidth, Nat.mod_eq_of_lt (hsmall f hf)]

/-- A word that packs small values into slots apart reads them back, and has no other bits. -/
theorem pack_spec {fields : List (Field w)} {x : BitVec w} (heq : x = pack fields) (hsmall : ∀ f ∈ fields, f.Small)
    (hapart : (fields.map Field.slot).Pairwise Slot.Apart) :
    (∀ f ∈ fields, (f.slot.read x).toNat = f.value.toNat) ∧ Only (fields.map Field.slot) x := by
  rw [heq]
  exact ⟨toNat_read_pack hsmall hapart, only_pack hsmall⟩

end StLib.Base.BitSlots
