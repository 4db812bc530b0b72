import Mathlib.Tactic.IntervalCases
import StLib.Flash.Model

/-! # What a write leaves in the flash

The sectors of the range are read, the new words put in their place, and the sectors erased and
programmed from the result. -/
namespace StLib.Flash.Writes

open Model

/-! ## Addresses -/

theorem wordAddress_toNat {i : Nat} (h : i ≤ wordCount) : (wordAddress i).toNat = 0x08000000 + 4 * i := by
  have hcount : wordCount = 262144 := rfl
  exact Nat.mod_eq_of_lt (by omega)

theorem wordAddress_add (i k : Nat) : wordAddress i + BitVec.ofNat 32 (4 * k) = wordAddress (i + k) := by
  rw [wordAddress, wordAddress, ← BitVec.ofNat_add]
  congr 1
  omega

theorem getSector_inside {address : Word} (hfrom : 0x08000000 ≤ address.toNat)
    (hto : address.toNat < 0x08100000) :
    (getSector address).toNat = (address.toNat - 0x08000000) / 131072 := by
  simp only [getSector, BitVec.le_def, BitVec.lt_def, BitVec.toNat_ofNat]
  split_ifs <;> simp only [BitVec.toNat_ofNat] <;> omega

theorem getSector_outside {address : Word} (h : ¬ (0x08000000 ≤ address.toNat ∧ address.toNat < 0x08100000)) :
    (getSector address).toNat = 0 := by
  simp only [getSector, BitVec.le_def, BitVec.lt_def, BitVec.toNat_ofNat]
  split_ifs <;> simp only [BitVec.toNat_ofNat] <;> omega

theorem getSector_wordAddress {i : Nat} (h : i < wordCount) :
    (getSector (wordAddress i)).toNat = i / sectorSizeInWords := by
  have hcount : wordCount = 262144 := rfl
  have haddress := wordAddress_toNat (Nat.le_of_lt h)
  rw [getSector_inside (by omega) (by omega), haddress, sectorSizeInWords]
  omega

theorem startingAddress_eq {sector : Word} (h : sector.toNat < 8) :
    getSectorStartingAddress sector = wordAddress (sectorSizeInWords * sector.toNat) := by
  rw [getSectorStartingAddress]
  generalize sector.toNat = n at h
  interval_cases n <;> rfl

/-! ## The passes -/

section Passes

variable {σ : Type} {hal : Hal σ} {s t : σ} {source buffer : List Word}

theorem readLoop_spec (hlaw : hal.Lawful) (s : σ) (i k : Nat) (h : i + k ≤ wordCount) :
    ∃ l, readLoop hal s (wordAddress i) k = some l ∧ l.length = k ∧
      ∀ j < k, l[j]? = hal.load s (wordAddress (i + j)) := by
  induction k generalizing i with
  | zero => exact ⟨[], rfl, rfl, fun j hj => absurd hj (Nat.not_lt_zero j)⟩
  | succ k ih =>
    obtain ⟨w, hw⟩ := Option.isSome_iff_exists.mp (hlaw.load s i (by omega))
    obtain ⟨l, hl, hlength, hwords⟩ := ih (i + 1) (by omega)
    have hnext : wordAddress i + 4#32 = wordAddress (i + 1) := wordAddress_add i 1
    refine ⟨w :: l, ?_, congrArg (· + 1) hlength, fun j hj => ?_⟩
    · rw [readLoop, hw, hnext, hl]
      rfl
    · cases j with
      | zero => exact hw.symm
      | succ j =>
        rw [List.getElem?_cons_succ, hwords j (by omega), Nat.add_assoc, Nat.add_comm 1]

theorem read_spec (hlaw : hal.Lawful) (s : σ) (i : Nat) (result : List Word) (hi : i < wordCount)
    (h : i + result.length ≤ wordCount) :
    ∃ l, read hal s (wordAddress i) result = some l ∧ l.length = result.length ∧
      ∀ j < result.length, l[j]? = hal.load s (wordAddress (i + j)) := by
  have hinside : ¬ (wordAddress i < flashStartAddress ∨ flashEndAddress < wordAddress i) := by
    have hcount : wordCount = 262144 := rfl
    have hstart : flashStartAddress.toNat = 0x08000000 := rfl
    have hend : flashEndAddress.toNat = 0x080FFFFF := rfl
    rw [BitVec.lt_def, BitVec.lt_def, wordAddress_toNat (Nat.le_of_lt hi), hstart, hend]
    omega
  rw [Model.read, if_neg hinside]
  exact readLoop_spec hlaw s i _ h

/-- The words that are left of the source go to their places. -/
theorem fill_spec {endPos pos : Word} {left sourcePos : Nat} (hsource : sourcePos + left = source.length)
    (hroom : pos.toNat + left ≤ buffer.length) (hsmall : buffer.length < 2 ^ 32)
    (hend : 0 < left → endPos.toNat = pos.toNat + left - 1) :
    ∃ l, fill source endPos left pos sourcePos buffer = some l ∧ l.length = buffer.length ∧
      ∀ j, l[j]? = if pos.toNat ≤ j ∧ j < pos.toNat + left then source[sourcePos + (j - pos.toNat)]?
        else buffer[j]? := by
  induction left generalizing pos sourcePos buffer with
  | zero => exact ⟨buffer, rfl, rfl, fun j => (if_neg (by omega)).symm⟩
  | succ left ih =>
    have hlast := hend (Nat.succ_pos left)
    have hle : pos ≤ endPos := by
      rw [BitVec.le_def]
      omega
    have hnext : (pos + 1#32).toNat = pos.toNat + 1 := by
      have hone : (1#32 : Word).toNat = 1 := rfl
      rw [BitVec.toNat_add, hone]
      omega
    have hword : source[sourcePos]? = some source[sourcePos] := List.getElem?_eq_getElem (by omega)
    have hset : (buffer.set pos.toNat source[sourcePos]).length = buffer.length := List.length_set ..
    have hrest : (pos + 1#32).toNat + left ≤ (buffer.set pos.toNat source[sourcePos]).length := by omega
    obtain ⟨l, hl, hlength, hwords⟩ := ih (by omega : sourcePos + 1 + left = _) hrest (by omega) (by omega)
    refine ⟨l, ?_, hlength.trans hset, fun j => ?_⟩
    · rw [fill, if_pos hle, hword]
      change (if pos.toNat < buffer.length then _ else _) = _
      rw [if_pos (by omega)]
      exact hl
    · rw [hwords, hnext]
      by_cases hfirst : j = pos.toNat
      · rw [if_neg (by omega), if_pos (by omega), hfirst, List.getElem?_set_self (by omega), Nat.sub_self]
        exact hword.symm
      · rw [List.getElem?_set_ne (Ne.symm hfirst)]
        by_cases hin : pos.toNat ≤ j ∧ j < pos.toNat + (left + 1)
        · rw [if_pos (by omega), if_pos hin]
          congr 1
          omega
        · rw [if_neg (by omega), if_neg hin]

/-- The flash words are programmed from the buffer. -/
theorem programLoop_spec (hlaw : hal.Lawful) {left j index : Nat} (hroom : flashword * (j + left) ≤ wordCount)
    (hbuffer : index + flashword * left ≤ buffer.length)
    (herased : ∀ i, flashword * j ≤ i → i < flashword * (j + left) →
      hal.load s (wordAddress i) = some (BitVec.allOnes 32))
    (h : programLoop hal buffer left (wordAddress (flashword * j)) index s = (true, t)) :
    ∀ i < wordCount, hal.load t (wordAddress i) =
      if flashword * j ≤ i ∧ i < flashword * (j + left) then buffer[index + (i - flashword * j)]?
      else hal.load s (wordAddress i) := by
  unfold flashword at hroom hbuffer herased h ⊢
  induction left generalizing j index s with
  | zero =>
    obtain rfl := (Prod.mk.inj h).2
    exact fun i _ => (if_neg (by omega)).symm
  | succ left ih =>
    rw [programLoop] at h
    split at h
    · next u hprogram =>
      have hdata : ((buffer.drop index).take 8).length = 8 := by
        rw [List.length_take, List.length_drop]
        omega
      have hwritten := hlaw.program s u j _ (by rw [flashword]; omega) hdata
        (fun i hfrom hto => herased i hfrom (by rw [flashword] at hto; omega)) hprogram
      unfold flashword at hwritten
      have hnext : wordAddress (8 * j) + 4#32 * 8#32 = wordAddress (8 * (j + 1)) :=
        wordAddress_add (8 * j) 8
      rw [hnext] at h
      have hleft : ∀ i, 8 * (j + 1) ≤ i → i < 8 * (j + 1 + left) →
          hal.load u (wordAddress i) = some (BitVec.allOnes 32) := by
        intro i hfrom hto
        rw [hwritten i (by omega), if_neg (by omega)]
        exact herased i (by omega) (by omega)
      intro i hi
      rw [ih (by omega) (by unfold flashword; omega) hleft h i hi]
      by_cases hlater : 8 * (j + 1) ≤ i
      · by_cases hin : i < 8 * (j + (left + 1))
        · rw [if_pos (by omega), if_pos (by omega)]
          congr 1
          unfold flashword
          omega
        · rw [if_neg (by omega), if_neg (by omega), hwritten i hi, if_neg (by omega)]
      · rw [if_neg (by omega), hwritten i hi]
        by_cases hin : 8 * j ≤ i
        · rw [if_pos (by omega), if_pos (by omega), List.getElem?_take_of_lt (by omega), List.getElem?_drop]
        · rw [if_neg (by omega), if_neg (by omega)]
    · cases (Prod.mk.inj h).1

end Passes

/-! ## The sectors of a range -/

section Range

variable {k : Nat} {n : Word}

/-- The end of an empty range may be in the sector before. -/
theorem endSector_spec (hk : k < wordCount) (hrange : k + n.toNat ≤ wordCount) :
    (getSector (wordAddress k + (n * 4#32 - 4#32))).toNat < 8 ∧
      k / sectorSizeInWords ≤ (getSector (wordAddress k + (n * 4#32 - 4#32))).toNat + 1 ∧
      k + n.toNat ≤ sectorSizeInWords * ((getSector (wordAddress k + (n * 4#32 - 4#32))).toNat + 1) := by
  have hcount : wordCount = 262144 := rfl
  have hstart := wordAddress_toNat (Nat.le_of_lt hk)
  have hfour : (4#32 : Word).toNat = 4 := rfl
  have hend : (wordAddress k + (n * 4#32 - 4#32)).toNat = 0x08000000 + 4 * (k + n.toNat) - 4 := by
    rw [BitVec.toNat_add, BitVec.toNat_sub, BitVec.toNat_mul, hstart, hfour]
    omega
  unfold sectorSizeInWords
  by_cases hempty : k + n.toNat = 0
  · rw [getSector_outside (by omega)]
    omega
  · rw [getSector_inside (by omega) (by omega), hend]
    omega

/-- The sectors of a range hold it. -/
structure Sectors (k : Nat) (n : Word) (sector count : Nat) : Prop where
  inside : sector + count ≤ 8
  start : sectorSizeInWords * sector ≤ k
  room : k + n.toNat ≤ sectorSizeInWords * (sector + count)

theorem sectors_of_range (hk : k < wordCount) (hrange : k + n.toNat ≤ wordCount) :
    ∃ sector count, (getSector (wordAddress k)).toNat = sector ∧ sector < 8 ∧
      (getSector (wordAddress k + (n * 4#32 - 4#32)) - getSector (wordAddress k) + 1#32).toNat = count ∧
      Sectors k n sector count := by
  have hcount : wordCount = 262144 := rfl
  have hone : (1#32 : Word).toNat = 1 := rfl
  obtain ⟨hlast, hle, hroom⟩ := endSector_spec hk hrange
  have hfirst := getSector_wordAddress hk
  unfold sectorSizeInWords at hle hroom hfirst
  refine ⟨k / 32768, _, hfirst, by omega, rfl, ?_⟩
  have hsectors : (getSector (wordAddress k + (n * 4#32 - 4#32)) - getSector (wordAddress k) +
      1#32).toNat = (getSector (wordAddress k + (n * 4#32 - 4#32))).toNat + 1 - k / 32768 := by
    rw [BitVec.toNat_add, BitVec.toNat_sub, hfirst, hone]
    omega
  rw [hsectors]
  refine ⟨by omega, ?_, ?_⟩
  · unfold sectorSizeInWords
    omega
  · unfold sectorSizeInWords
    omega

/-- The place of the range in the buffer. -/
theorem startPos_spec {sector : Word} (hk : k < wordCount) (hsector : sector.toNat < 8)
    (hstart : sectorSizeInWords * sector.toNat ≤ k) :
    ((wordAddress k - getSectorStartingAddress sector) / 4#32).toNat = k - sectorSizeInWords * sector.toNat := by
  have hcount : wordCount = 262144 := rfl
  have hfour : (4#32 : Word).toNat = 4 := rfl
  have hbase : (wordAddress (sectorSizeInWords * sector.toNat)).toNat =
      0x08000000 + 4 * (sectorSizeInWords * sector.toNat) := wordAddress_toNat (by omega)
  rw [startingAddress_eq hsector, BitVec.toNat_udiv, BitVec.toNat_sub,
    wordAddress_toNat (Nat.le_of_lt hk), hbase, hfour]
  omega

end Range

section Rewrite

variable {σ : Type} {hal : Hal σ} {s t u : σ} {source buffer l : List Word} {k sector count : Nat} {n : Word}

/-- The buffer with the new words is what the sectors shall hold. -/
theorem buffer_word (hin : Sectors k n sector count)
    (hbuffer : ∀ j < sectorSizeInWords * count,
      buffer[j]? = hal.load s (wordAddress (sectorSizeInWords * sector + j)))
    (hl : ∀ j, l[j]? = if k - sectorSizeInWords * sector ≤ j ∧ j < k - sectorSizeInWords * sector + n.toNat
      then source[0 + (j - (k - sectorSizeInWords * sector))]? else buffer[j]?)
    {i : Nat} (hfrom : sectorSizeInWords * sector ≤ i) (hto : i < sectorSizeInWords * (sector + count)) :
    l[i - sectorSizeInWords * sector]? =
      if k ≤ i ∧ i < k + n.toNat then source[i - k]? else hal.load s (wordAddress i) := by
  have hstart := hin.start
  rw [Nat.mul_add] at hto
  rw [hl]
  by_cases hrange : k ≤ i ∧ i < k + n.toNat
  · rw [if_pos (by omega), if_pos hrange]
    congr 1
    omega
  · rw [if_neg (by omega), if_neg hrange, hbuffer _ (by omega), Nat.add_sub_cancel' hfrom]

/-- The sectors are erased and programmed with what they shall hold. -/
theorem program_sectors (hlaw : hal.Lawful) (hin : Sectors k n sector count)
    (hlength : l.length = sectorSizeInWords * count)
    (hwords : ∀ i, sectorSizeInWords * sector ≤ i → i < sectorSizeInWords * (sector + count) →
      l[i - sectorSizeInWords * sector]? =
        if k ≤ i ∧ i < k + n.toNat then source[i - k]? else hal.load s (wordAddress i))
    {first number : Word} (hfirst : first.toNat = sector) (hnumber : number.toNat = count)
    (herase : hal.erase s first number = (true, u))
    (hprogram : programLoop hal l (sectorSizeInWords * count / flashword)
      (wordAddress (sectorSizeInWords * sector)) 0 u = (true, t)) :
    ∀ i < wordCount, hal.load t (wordAddress i) =
      if k ≤ i ∧ i < k + n.toNat then source[i - k]? else hal.load s (wordAddress i) := by
  obtain ⟨hinside, hstart, hroom⟩ := hin
  have herased := hlaw.erase s u first number (by omega) herase
  rw [hfirst, hnumber] at herased
  have hcount : wordCount = 262144 := rfl
  unfold sectorSizeInWords at *
  have hleft : 32768 * count / flashword = 4096 * count := by
    unfold flashword
    omega
  have haddress : 32768 * sector = flashword * (4096 * sector) := by
    unfold flashword
    omega
  rw [hleft, haddress] at hprogram
  have hprogrammed := programLoop_spec hlaw (by unfold flashword; omega)
    (by rw [hlength]; unfold flashword; omega)
    (fun i hfrom hto => by
      unfold flashword at hfrom hto
      rw [herased i (by omega), if_pos (by omega)])
    hprogram
  unfold flashword at hprogrammed
  intro i hi
  rw [hprogrammed i hi]
  by_cases hsectors : 8 * (4096 * sector) ≤ i ∧ i < 8 * (4096 * sector + 4096 * count)
  · rw [if_pos hsectors, ← hwords i (by omega) (by omega)]
    congr 1
    omega
  · rw [if_neg hsectors, herased i hi, if_neg (by omega), if_neg (by omega)]

end Rewrite

/-- What a write inside the flash does: it makes a buffer of what the sectors shall hold, and
erases and programs them. -/
theorem write_eq {σ : Type} {hal : Hal σ} (hlaw : hal.Lawful) (s : σ) {source : List Word} {k : Nat}
    {n : Word} (hlength : source.length = n.toNat) (hk : k < wordCount) (hrange : k + n.toNat ≤ wordCount) :
    ∃ first last sector count l, Sectors k n sector count ∧ first.toNat = sector ∧
      (last - first + 1#32).toNat = count ∧ l.length = sectorSizeInWords * count ∧
      (∀ i, sectorSizeInWords * sector ≤ i → i < sectorSizeInWords * (sector + count) →
        l[i - sectorSizeInWords * sector]? =
          if k ≤ i ∧ i < k + n.toNat then source[i - k]? else hal.load s (wordAddress i)) ∧
      write hal source (wordAddress k) n s = match erase hal s first last with
        | (false, u) => some (false, u)
        | (true, u) => some (programLoop hal l (sectorSizeInWords * count / flashword)
            (wordAddress (sectorSizeInWords * sector)) 0 u) := by
  have hinside : ¬ (wordAddress k < flashSector0StartAddress ∨ flashEndAddress < wordAddress k) := by
    have hcount : wordCount = 262144 := rfl
    have hstart : flashSector0StartAddress.toNat = 0x08000000 := rfl
    have hend : flashEndAddress.toNat = 0x080FFFFF := rfl
    rw [BitVec.lt_def, BitVec.lt_def, wordAddress_toNat (Nat.le_of_lt hk), hstart, hend]
    omega
  obtain ⟨sector, count, hsector, hlt, hsectors, hin⟩ := sectors_of_range hk hrange
  have hnumber : ((getSector (wordAddress k + (n * 4#32 - 4#32)) - getSector (wordAddress k) +
      1#32).setWidth 8).toNat = count := by
    have hle := hin.inside
    rw [BitVec.toNat_setWidth, hsectors]
    omega
  have hfirst : (getSector (wordAddress k)).toNat < 8 := hsector ▸ hlt
  have hpos := startPos_spec hk hfirst (hsector ▸ hin.start)
  rw [startingAddress_eq hfirst, hsector] at hpos
  have hsize : sectorSizeInWords * sector + sectorSizeInWords * count ≤ wordCount := by
    rw [← Nat.mul_add]
    exact Nat.mul_le_mul_left sectorSizeInWords hin.inside
  have hbegin : sectorSizeInWords * sector < wordCount := Nat.lt_of_le_of_lt hin.start hk
  obtain ⟨buffer, hbuffer, hblength, hbwords⟩ := read_spec hlaw s (sectorSizeInWords * sector)
    (List.replicate (sectorSizeInWords * count) 0#32) hbegin (by rw [List.length_replicate]; exact hsize)
  rw [List.length_replicate] at hblength hbwords
  generalize hplace : (wordAddress k - wordAddress (sectorSizeInWords * sector)) / 4#32 = pos at hpos
  have hfit : pos.toNat + n.toNat ≤ buffer.length := by
    have hstart := hin.start
    have hroom := hin.room
    rw [Nat.mul_add] at hroom
    omega
  have hsmall : buffer.length < 2 ^ 32 := by
    have hcount : wordCount = 262144 := rfl
    omega
  have hlast : 0 < n.toNat → (pos + n - 1#32).toNat = pos.toNat + n.toNat - 1 := by
    intro hpositive
    have hone : (1#32 : Word).toNat = 1 := rfl
    rw [BitVec.toNat_sub, BitVec.toNat_add, hone]
    omega
  obtain ⟨l, hl, hllength, hlwords⟩ := fill_spec ((Nat.zero_add _).trans hlength.symm) hfit hsmall hlast
  rw [hpos] at hlwords
  refine ⟨getSector (wordAddress k), getSector (wordAddress k + (n * 4#32 - 4#32)), sector, count, l, hin,
    hsector, hsectors, hllength.trans hblength,
    fun i hfrom hto => buffer_word hin hbwords hlwords hfrom hto, ?_⟩
  rw [write, if_neg hinside]
  simp only [hnumber, startingAddress_eq hfirst, hsector, hplace, hbuffer, hl, Option.bind_eq_bind,
    Option.bind_some]
  rcases erase hal s (getSector (wordAddress k)) (getSector (wordAddress k + (n * 4#32 - 4#32))) with
    ⟨_ | _, u⟩ <;> rfl

/-- **A write is local.** A write of whole words of the flash comes back, and if it succeeds
the words of the range are those of the source and the others are as before. -/
theorem write_local {σ : Type} (hal : Hal σ) (hlaw : hal.Lawful) (s : σ) (source : List Word) (k : Nat)
    (n : Word) (hlength : source.length = n.toNat) (hrange : k + n.toNat ≤ wordCount) :
    ∃ ok t, write hal source (wordAddress k) n s = some (ok, t) ∧ (ok = true →
      ∀ i < wordCount, hal.load t (wordAddress i) =
        if k ≤ i ∧ i < k + n.toNat then source[i - k]? else hal.load s (wordAddress i)) := by
  rcases Nat.lt_or_ge k wordCount with hk | hk
  · obtain ⟨first, last, sector, count, l, hin, hfirst, hnumber, hllength, hwords, hwrite⟩ :=
      write_eq hlaw s hlength hk hrange
    rw [hwrite]
    rcases herase : erase hal s first last with ⟨_ | _, u⟩
    · exact ⟨false, u, rfl, nofun⟩
    · refine ⟨_, _, rfl, fun hok => ?_⟩
      exact program_sectors hlaw hin hllength hwords hfirst hnumber herase (Prod.ext hok rfl)
  · refine ⟨false, s, if_pos (.inr ?_), nofun⟩
    have hcount : wordCount = 262144 := rfl
    have hend : flashEndAddress.toNat = 0x080FFFFF := rfl
    rw [BitVec.lt_def, wordAddress_toNat (by omega), hend]
    omega

/-! ## A flash -/

def wordIndex (address : Word) : Nat := (address.toNat - 0x08000000) / 4

/-- A flash whose calls succeed. -/
def workingFlash : Hal (Nat → Word) where
  load s address := some (s (wordIndex address))
  erase s sector count := (true, fun i =>
    if sector.toNat * sectorSizeInWords ≤ i ∧ i < (sector.toNat + count.toNat) * sectorSizeInWords then
      BitVec.allOnes 32
    else s i)
  program s address data := (true, fun i =>
    if wordIndex address ≤ i ∧ i < wordIndex address + flashword then data[i - wordIndex address]?.getD 0#32
    else s i)

theorem wordIndex_wordAddress {i : Nat} (h : i < wordCount) : wordIndex (wordAddress i) = i := by
  rw [wordIndex, wordAddress_toNat (Nat.le_of_lt h)]
  omega

theorem workingFlash_load (s : Nat → Word) {i : Nat} (h : i < wordCount) :
    workingFlash.load s (wordAddress i) = some (s i) := congrArg (some ∘ s) (wordIndex_wordAddress h)

theorem workingFlash_lawful : workingFlash.Lawful where
  load s i h := by
    rw [workingFlash_load s h]
    rfl
  erase s t sector count _ h i hi := by
    obtain rfl := (Prod.mk.inj h).2
    rw [workingFlash_load _ hi, workingFlash_load _ hi]
    split <;> rfl
  program s t j data hroom hlength _ h i hi := by
    obtain rfl := (Prod.mk.inj h).2
    unfold flashword at hroom hlength ⊢
    rw [workingFlash_load _ hi, workingFlash_load _ hi, wordIndex_wordAddress (by omega)]
    by_cases hin : 8 * j ≤ i ∧ i < 8 * (j + 1)
    · rw [if_pos (by omega), if_pos hin, List.getElem?_eq_getElem (by omega)]
      rfl
    · rw [if_neg (by omega), if_neg hin]

/-- Two words on either side of a boundary of sectors. -/
theorem write_local_boundary : ∃ ok t,
    write workingFlash [1#32, 2#32] (wordAddress 32767) 2#32 (fun _ => 7#32) = some (ok, t) ∧ (ok = true →
      ∀ i < wordCount, workingFlash.load t (wordAddress i) =
        if 32767 ≤ i ∧ i < 32769 then [1#32, 2#32][i - 32767]? else some 7#32) := by
  obtain ⟨ok, t, hwrite, hwords⟩ := write_local workingFlash workingFlash_lawful (fun _ => 7#32)
    [1#32, 2#32] 32767 2#32 rfl (by decide)
  exact ⟨ok, t, hwrite, hwords⟩

end StLib.Flash.Writes
