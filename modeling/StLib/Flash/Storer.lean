import Mathlib
import StLib.Base.PackedRegions
import StLib.Flash.Model

/-! # Variables kept in the flash

`FlashStorer`, over `Flash` as it is called. The variables are copied through a buffer of bytes that
is allocated for each call; a copy that leaves the buffer has no result. -/
namespace StLib.Flash.Storer

open StLib.Base.Bytes
open StLib.Base.BoundedCopies
open StLib.Base.LinkedCopies hiding read
open StLib.Base.PackedRegions
open Model (Word)

def flash32BitsWorld : Nat := 4

def flashStorerMaxSize : Nat := 1028 * 64

def flashStorerMaxAddress : Word := 0x080DFFF0#32

def flashStorerStartAddress : Word := flashStorerMaxAddress - BitVec.ofNat 32 flashStorerMaxSize

/-- `Flash::read` and `Flash::write`, as the bytes of a number of words from an address on. `write`
answers whether it succeeded. -/
structure Driver (σ : Type) where
  read : σ → Word → Nat → List Byte
  write : σ → List Byte → Word → Nat → Bool × σ

/-! ## The registered variables -/

/-- `v_pointer` and `size`. -/
abbrev FlashVariable := Region

structure FlashStorer where
  variableList : List FlashVariable
  totalSize : Nat
deriving DecidableEq

def FlashStorer.initial : FlashStorer := ⟨[], 0⟩

/-- `total_sizeof`, a sum in `size_t`. -/
def totalSizeof : List FlashVariable → Nat
  | [] => 0
  | v :: vars => (v.size + totalSizeof vars) % 2 ^ 32

def FlashStorer.addVariables (storer : FlashStorer) (vars : List FlashVariable) : Bool × FlashStorer :=
  let storer : FlashStorer :=
    { variableList := storer.variableList ++ vars, totalSize := totalSizeof vars }
  (flashStorerMaxSize ≤ storer.totalSize, storer)

/-- After calls of `add_variables`, each with its variables. -/
def registered (calls : List (List FlashVariable)) : FlashStorer :=
  calls.foldl (fun storer vars => (storer.addVariables vars).2) .initial

/-! ## Buffers -/

/-- A block of the heap, with what it happens to hold. -/
def malloc (heap : Memory) (size : Nat) : List Byte := heap.bytes size

def FlashStorer.numberOfWords (storer : FlashStorer) : Nat :=
  (storer.totalSize + flash32BitsWorld - 1) % 2 ^ 32 / flash32BitsWorld

/-- The loop of `store` and `store_all` that copies variables into the buffer. -/
def copyIn (chosen : FlashVariable → Bool) (memory : Memory) :
    List FlashVariable → Nat → List Byte → Option (List Byte)
  | [], _, data => some data
  | v :: vars, offset, data => do
    let data ← (
      if chosen v then memcpy data offset (Base.LinkedCopies.read memory v.address v.size) 0 v.size
      else some data)
    copyIn chosen memory vars ((offset + v.size) % 2 ^ 32) data

/-- The loop of `read` that copies the buffer out to the variables. -/
def copyOut (data : List Byte) : List FlashVariable → Nat → Memory → Option Memory
  | [], _, memory => some memory
  | v :: vars, offset, memory =>
    if offset + v.size ≤ data.length then
      copyOut data vars ((offset + v.size) % 2 ^ 32)
        (put memory v.address ((data.drop offset).take v.size))
    else none

/-! ## Storing and reading -/

section Operations

variable {σ : Type} (flash : Driver σ)

/-- `Flash::read` from the start address into a buffer. -/
def readWords (s : σ) (data : List Byte) (numberOfWords : Nat) : Option (List Byte) :=
  memcpy data 0 (flash.read s flashStorerStartAddress numberOfWords) 0 (numberOfWords * 4)

/-- `Flash::write` of a buffer to the start address. -/
def writeWords (s : σ) (data : List Byte) (numberOfWords : Nat) : Option (Bool × σ) :=
  if numberOfWords * 4 ≤ data.length then
    some (flash.write s (data.take (numberOfWords * 4)) flashStorerStartAddress numberOfWords)
  else none

def storeAll (storer : FlashStorer) (heap memory : Memory) (s : σ) : Option (Bool × σ) := do
  let data := malloc heap (storer.numberOfWords * flash32BitsWorld)
  let data ← copyIn (fun _ => true) memory storer.variableList 0 data
  writeWords flash s data storer.numberOfWords

/-- `store` of the variable at `pointer`. -/
def store (storer : FlashStorer) (pointer : Nat) (heap memory : Memory) (s : σ) : Option (Bool × σ) := do
  let data := malloc heap (storer.numberOfWords * flash32BitsWorld)
  let data ← readWords flash s data storer.numberOfWords
  let data ← copyIn (fun v => v.address = pointer) memory storer.variableList 0 data
  writeWords flash s data storer.numberOfWords

/-- `store` of several variables, in the order in which they are evaluated. `heap k` is what the
`k`-th block that is allocated holds. -/
def storeEach (storer : FlashStorer) (memory : Memory) : List Nat → (Nat → Memory) → σ → Option (Bool × σ)
  | [], _, s => some (true, s)
  | pointer :: pointers, heap, s => do
    let (stored, s) ← store flash storer pointer (heap 0) memory s
    let (rest, s) ← storeEach storer memory pointers (fun k => heap (k + 1)) s
    return (stored && rest, s)

/-- The memory after `read`. -/
def read (storer : FlashStorer) (heap memory : Memory) (s : σ) : Option Memory := do
  let data := malloc heap storer.totalSize
  let data ← readWords flash s data storer.numberOfWords
  copyOut data storer.variableList 0 memory

end Operations

end StLib.Flash.Storer
