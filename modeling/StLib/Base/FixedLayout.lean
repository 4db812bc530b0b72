import Mathlib.Tactic.Common
import StLib.Base.Bytes

/-! # Values of a fixed size

A value of a fixed size is written as that many bytes and read back from where they
lie; an array of them is written and read one after the other. -/
namespace StLib.Base.FixedLayout

open StLib.Base.Bytes

/-- How the values of a type lie in memory. -/
structure Layout (α : Type) where
  size : Nat
  encode : α → List Byte
  read : Memory → α
  length_encode : ∀ a, (encode a).length = size
  read_encode : ∀ a more beyond, read (memory (encode a ++ more) beyond) = a

variable {α : Type} (l : Layout α)

def Layout.encodeAll (as : List α) : List Byte := as.flatMap l.encode

/-- Read an array of values. -/
def Layout.readAll : Nat → Memory → List α
  | 0, _ => []
  | n + 1, d => l.read d :: readAll n (d.advance l.size)

theorem Layout.length_encodeAll (as : List α) : (l.encodeAll as).length = as.length * l.size := by
  induction as with
  | nil => simp [encodeAll]
  | cons a as ih =>
    have hcons : l.encodeAll (a :: as) = l.encode a ++ l.encodeAll as := rfl
    rw [hcons, List.length_append, ih, l.length_encode, List.length_cons, Nat.succ_mul, Nat.add_comm]

theorem Layout.advance_encode (a : α) (more : List Byte) (beyond : Memory) :
    (memory (l.encode a ++ more) beyond).advance l.size = memory more beyond := by
  have hadvance := advance_memory (l.encode a) more beyond
  rwa [l.length_encode] at hadvance

/-- **An array** is read back. -/
theorem Layout.readAll_encodeAll (as : List α) (more : List Byte) (beyond : Memory) :
    l.readAll as.length (memory (l.encodeAll as ++ more) beyond) = as := by
  induction as with
  | nil => rfl
  | cons a as ih =>
    have hcons : l.encodeAll (a :: as) ++ more = l.encode a ++ (l.encodeAll as ++ more) :=
      List.append_assoc ..
    rw [List.length_cons, readAll, hcons, l.read_encode, l.advance_encode, ih]

theorem Layout.length_readAll (n : Nat) (d : Memory) : (l.readAll n d).length = n := by
  induction n generalizing d with
  | zero => rfl
  | succ n ih => rw [readAll, List.length_cons, ih]

/-- The bytes of an object of size `n`. -/
abbrev Block (n : Nat) := { bytes : List Byte // bytes.length = n }

def blockAt (d : Memory) (n : Nat) : Block n :=
  ⟨d.bytes n, by rw [Memory.bytes, List.length_map, List.length_range]⟩

def blockLayout (n : Nat) : Layout (Block n) where
  size := n
  encode := Subtype.val
  read d := blockAt d n
  length_encode := Subtype.property
  read_encode := by
    rintro ⟨bytes, rfl⟩ more beyond
    exact Subtype.ext (bytes_memory bytes more beyond)

/-- A word of 32 bits, its low byte first. -/
def word32Layout : Layout (BitVec 32) where
  size := 4
  encode v := [v.extractLsb' 0 8, v.extractLsb' 8 8, v.extractLsb' 16 8, v.extractLsb' 24 8]
  read d := d 3 ++ d 2 ++ d 1 ++ d 0
  length_encode _ := rfl
  read_encode v more beyond := by
    show v.extractLsb' 24 8 ++ v.extractLsb' 16 8 ++ v.extractLsb' 8 8 ++ v.extractLsb' 0 8 = v
    grind

theorem word32_encode_read (d : Memory) : word32Layout.encode (word32Layout.read d) = [d 0, d 1, d 2, d 3] := by
  simp only [word32Layout, List.cons.injEq, and_true]
  refine ⟨?_, ?_, ?_, ?_⟩ <;>
  · ext i hi
    grind

/-- **Words** of whole bytes are written as these bytes. -/
theorem word32_encodeAll_readAll {data : List Byte} {n : Nat} (h : data.length = n * 4) (beyond : Memory) :
    word32Layout.encodeAll (word32Layout.readAll n (memory data beyond)) = data := by
  induction n generalizing data with
  | zero =>
    obtain rfl := List.eq_nil_of_length_eq_zero (h.trans (Nat.zero_mul 4))
    rfl
  | succ n ih =>
    have hfirst : (data.take 4).length = 4 := by
      rw [List.length_take]
      omega
    have hrest : (data.drop 4).length = n * 4 := by
      rw [List.length_drop]
      omega
    have hread : word32Layout.encode (word32Layout.read (memory data beyond)) = data.take 4 := by
      have hbytes := bytes_memory (data.take 4) (data.drop 4) beyond
      rw [List.take_append_drop, hfirst] at hbytes
      exact (word32_encode_read _).trans hbytes
    have hadvance := advance_memory (data.take 4) (data.drop 4) beyond
    rw [List.take_append_drop, hfirst] at hadvance
    have hcons (w : BitVec 32) (ws : List (BitVec 32)) : word32Layout.encodeAll (w :: ws) =
        word32Layout.encode w ++ word32Layout.encodeAll ws := List.flatMap_cons
    rw [Layout.readAll, hcons, hread, show word32Layout.size = 4 from rfl, hadvance, ih hrest,
      List.take_append_drop]

end StLib.Base.FixedLayout
