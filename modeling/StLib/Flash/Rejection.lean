import StLib.Flash.Writes

/-! # Ranges that leave the flash

Only the destination is checked. Its end is given to `get_sector`, which has the sector 0 for
every address outside of the flash. -/
namespace StLib.Flash.Rejection

open Model
open Writes (workingFlash workingFlash_lawful)

def InFlash (address : Nat) : Prop := 0x08000000 ≤ address ∧ address < 0x08100000

/-- Part of the range lies outside of the flash. -/
def Leaves (destAddr numberOfWords : Word) : Prop :=
  ∃ address, destAddr.toNat ≤ address ∧ address < destAddr.toNat + 4 * numberOfWords.toNat ∧
    ¬ InFlash address

/-- The write fails, and nothing is erased or programmed. -/
def Rejects (destAddr numberOfWords : Word) : Prop :=
  ∀ (σ : Type) (hal : Hal σ), hal.Lawful → ∀ (s : σ) (source : List Word),
    source.length = numberOfWords.toNat → write hal source destAddr numberOfWords s = some (false, s)

section

variable {destAddr numberOfWords : Word}

theorem leaves_iff (h : InFlash destAddr.toNat) :
    Leaves destAddr numberOfWords ↔ 0x08100000 < destAddr.toNat + 4 * numberOfWords.toNat := by
  obtain ⟨hfrom, hto⟩ := h
  constructor
  · rintro ⟨address, hstart, hend, hout⟩
    by_contra hle
    exact hout ⟨by omega, by omega⟩
  · exact fun hend => ⟨0x08100000, by omega, hend, fun hin => absurd hin.2 (by omega)⟩

theorem outside_iff : destAddr < flashSector0StartAddress ∨ flashEndAddress < destAddr ↔
    ¬ InFlash destAddr.toNat := by
  have hstart : flashSector0StartAddress.toNat = 0x08000000 := rfl
  have hend : flashEndAddress.toNat = 0x080FFFFF := rfl
  rw [BitVec.lt_def, BitVec.lt_def, hstart, hend, InFlash]
  omega

theorem rejects_outside (h : ¬ InFlash destAddr.toNat) : Rejects destAddr numberOfWords :=
  fun _ _ _ _ _ _ => if_pos (outside_iff.mpr h)

/-! ## Past the check -/

theorem programLoop_working (buffer : List Word) (left : Nat) (address : Word) (index : Nat)
    (s : Nat → Word) : (programLoop workingFlash buffer left address index s).1 = true := by
  induction left generalizing address index s with
  | zero => rfl
  | succ left ih =>
    rw [programLoop, workingFlash]
    exact ih ..

/-- Nothing but the HAL fails. -/
theorem write_working {source : List Word} {s t : Nat → Word} {ok : Bool} (h : InFlash destAddr.toNat)
    (hwrite : write workingFlash source destAddr numberOfWords s = some (ok, t)) : ok = true := by
  rw [write, if_neg (mt outside_iff.mp (not_not_intro h))] at hwrite
  obtain ⟨buffer, -, hwrite⟩ := Option.bind_eq_some_iff.mp hwrite
  obtain ⟨l, -, hwrite⟩ := Option.bind_eq_some_iff.mp hwrite
  have hprogram := Option.some.inj hwrite
  exact (congrArg Prod.fst hprogram).symm.trans (programLoop_working ..)

theorem not_rejects_inside (h : InFlash destAddr.toNat) : ¬ Rejects destAddr numberOfWords := by
  intro hrejects
  have hwrite := hrejects _ workingFlash workingFlash_lawful (fun _ => 0#32)
    (List.replicate numberOfWords.toNat 0#32) List.length_replicate
  exact absurd (write_working h hwrite) Bool.false_ne_true

end

/-- **Rejection.** A range that leaves the flash is rejected if and only if it begins outside
of it; the condition also names the ranges that do not leave it. -/
theorem rejects_iff (destAddr numberOfWords : Word) :
    (Leaves destAddr numberOfWords → Rejects destAddr numberOfWords) ↔
      ¬ InFlash destAddr.toNat ∨ destAddr.toNat + 4 * numberOfWords.toNat ≤ 0x08100000 := by
  constructor
  · intro h
    by_contra hcond
    rw [not_or, not_not, not_le] at hcond
    exact not_rejects_inside hcond.1 (h ((leaves_iff hcond.1).mpr hcond.2))
  · rintro (hout | hend) hleaves
    · exact rejects_outside hout
    · by_cases hin : InFlash destAddr.toNat
      · exact absurd ((leaves_iff hin).mp hleaves) (Nat.not_lt.mpr hend)
      · exact rejects_outside hin

/-- The last word of the flash and the one after it. -/
theorem last_word_not_rejected : ¬ (Leaves 0x080FFFFC#32 2#32 → Rejects 0x080FFFFC#32 2#32) := by
  have hin : InFlash (0x080FFFFC#32 : Word).toNat := ⟨by decide, by decide⟩
  intro h
  exact not_rejects_inside hin (h ((leaves_iff hin).mpr (by decide)))

end StLib.Flash.Rejection
