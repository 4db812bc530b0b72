import Mathlib.Data.List.Basic

/-! # The flash

`Flash`, over the HAL as it is called. `HAL_FLASH_Unlock` and `HAL_FLASH_Lock` are left out,
and of `FLASH_EraseInitTypeDef` the fields that are the same in every call. An access outside of
a buffer or of the memory has no result. -/
namespace StLib.Flash.Model

abbrev Word := BitVec 32

/-! ## The HAL -/

/-- `σ` is the state of the memory and of the HAL; a call answers whether it returned `HAL_OK`. -/
structure Hal (σ : Type) where
  load : σ → Word → Option Word
  /-- `HAL_FLASHEx_Erase` of `NbSectors` sectors from `Sector` on. -/
  erase : σ → Word → Word → Bool × σ
  /-- `HAL_FLASH_Program` of a flash word. -/
  program : σ → Word → List Word → Bool × σ

/-! ## Addresses -/

def flashword : Nat := 8

def flashStartAddress : Word := 0x08000000#32

def flashSector0StartAddress : Word := 0x08000000#32

def flashEndAddress : Word := 0x080FFFFF#32

def sectorSizeInWords : Nat := 32768

def getSector (address : Word) : Word :=
  if 0x08000000#32 ≤ address ∧ address < 0x08020000#32 then 0#32
  else if 0x08020000#32 ≤ address ∧ address < 0x08040000#32 then 1#32
  else if 0x08040000#32 ≤ address ∧ address < 0x08060000#32 then 2#32
  else if 0x08060000#32 ≤ address ∧ address < 0x08080000#32 then 3#32
  else if 0x08080000#32 ≤ address ∧ address < 0x080A0000#32 then 4#32
  else if 0x080A0000#32 ≤ address ∧ address < 0x080C0000#32 then 5#32
  else if 0x080C0000#32 ≤ address ∧ address < 0x080E0000#32 then 6#32
  else if 0x080E0000#32 ≤ address ∧ address < 0x08100000#32 then 7#32
  else 0#32

def getSectorStartingAddress (sector : Word) : Word :=
  match sector.toNat with
  | 0 => flashSector0StartAddress
  | 1 => 0x08020000#32
  | 2 => 0x08040000#32
  | 3 => 0x08060000#32
  | 4 => 0x08080000#32
  | 5 => 0x080A0000#32
  | 6 => 0x080C0000#32
  | 7 => 0x080E0000#32
  | _ => flashSector0StartAddress

/-! ## Operations -/

section Operations

variable {σ : Type} (hal : Hal σ)

def readLoop (s : σ) (sourceAddr : Word) : Nat → Option (List Word)
  | 0 => some []
  | k + 1 => do
    let w ← hal.load s sourceAddr
    let rest ← readLoop s (sourceAddr + 4#32) k
    return w :: rest

/-- `number_of_words` is the length of the result. -/
def read (s : σ) (sourceAddr : Word) (result : List Word) : Option (List Word) :=
  if sourceAddr < flashStartAddress ∨ flashEndAddress < sourceAddr then some result
  else readLoop hal s sourceAddr result.length

def erase (s : σ) (startSector endSector : Word) : Bool × σ :=
  hal.erase s startSector (endSector - startSector + 1#32)

/-- The `for` of `write`, with as many words left of the source as `source_pos` is before
`number_of_words`. -/
def fill (source : List Word) (endPos : Word) : Nat → Word → Nat → List Word → Option (List Word)
  | 0, _, _, buffer => some buffer
  | left + 1, buffPos, sourcePos, buffer =>
    if buffPos ≤ endPos then do
      let w ← source[sourcePos]?
      if buffPos.toNat < buffer.length then
        fill source endPos left (buffPos + 1#32) (sourcePos + 1) (buffer.set buffPos.toNat w)
      else none
    else some buffer

/-- The `while` of `write`, a flash word for each step. -/
def programLoop (buffer : List Word) : Nat → Word → Nat → σ → Bool × σ
  | 0, _, _, s => (true, s)
  | left + 1, address, index, s =>
    match hal.program s address ((buffer.drop index).take flashword) with
    | (true, s) => programLoop buffer left (address + 4#32 * 8#32) (index + flashword) s
    | (false, s) => (false, s)

/-- What `write` returns and the state afterwards. -/
def write (source : List Word) (destAddr numberOfWords : Word) (s : σ) : Option (Bool × σ) :=
  if destAddr < flashSector0StartAddress ∨ flashEndAddress < destAddr then some (false, s)
  else do
    let startSector := getSector destAddr
    let startSectorAddr := getSectorStartingAddress startSector
    let endAddress := destAddr + (numberOfWords * 4#32 - 4#32)
    let endSector := getSector endAddress
    let numberOfSectors : BitVec 8 := (endSector - startSector + 1#32).setWidth 8
    let size := sectorSizeInWords * numberOfSectors.toNat
    let startPos := (destAddr - startSectorAddr) / 4#32
    let endPos := startPos + numberOfWords - 1#32
    let buffer ← read hal s startSectorAddr (List.replicate size 0#32)
    let buffer ← fill source endPos numberOfWords.toNat startPos 0 buffer
    match erase hal s startSector endSector with
    | (false, s) => return (false, s)
    | (true, s) => return programLoop hal buffer (size / flashword) startSectorAddr 0 s

end Operations

/-! ## The words of the flash -/

/-- The words of the eight sectors. -/
def wordCount : Nat := 8 * sectorSizeInWords

def wordAddress (i : Nat) : Word := BitVec.ofNat 32 (0x08000000 + 4 * i)

/-- What the HAL does to the words of the flash. Erasing sets a sector to ones, and programming
writes a flash word that is erased. -/
structure Hal.Lawful {σ : Type} (hal : Hal σ) : Prop where
  load : ∀ s i, i < wordCount → (hal.load s (wordAddress i)).isSome
  erase : ∀ s t sector count, sector.toNat + count.toNat ≤ 8 → hal.erase s sector count = (true, t) →
    ∀ i < wordCount, hal.load t (wordAddress i) =
      if sector.toNat * sectorSizeInWords ≤ i ∧ i < (sector.toNat + count.toNat) * sectorSizeInWords then
        some (BitVec.allOnes 32)
      else hal.load s (wordAddress i)
  program : ∀ s t j data, flashword * (j + 1) ≤ wordCount → data.length = flashword →
    (∀ i, flashword * j ≤ i → i < flashword * (j + 1) →
      hal.load s (wordAddress i) = some (BitVec.allOnes 32)) →
    hal.program s (wordAddress (flashword * j)) data = (true, t) →
    ∀ i < wordCount, hal.load t (wordAddress i) =
      if flashword * j ≤ i ∧ i < flashword * (j + 1) then data[i - flashword * j]?
      else hal.load s (wordAddress i)

end StLib.Flash.Model
