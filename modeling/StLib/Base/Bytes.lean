import Mathlib

/-! # Bytes in memory

Memory seen from a pointer on, the bytes of a list in it, little-endian words and C
strings. -/
namespace StLib.Base.Bytes

abbrev Byte := BitVec 8

/-- What memory holds from a pointer on. -/
abbrev Memory := Nat → Byte

/-- The bytes of a buffer, and what lies behind them. -/
def memory (bytes : List Byte) (beyond : Memory) : Memory :=
  fun i => (bytes[i]?).getD (beyond (i - bytes.length))

namespace Memory

/-- The pointer moved `n` bytes on. -/
def advance (d : Memory) (n : Nat) : Memory := fun i => d (n + i)

/-- The first `n` bytes. -/
def bytes (d : Memory) (n : Nat) : List Byte := (List.range n).map d

end Memory

theorem memory_of_lt {bytes : List Byte} {beyond : Memory} {i : Nat} (h : i < bytes.length) :
    memory bytes beyond i = bytes[i] := by
  simp [memory, h]

/-- What lies behind the first bytes makes no difference to them. -/
theorem memory_append {bytes : List Byte} (more : List Byte) (beyond beyond' : Memory) {i : Nat}
    (h : i < bytes.length) : memory bytes beyond i = memory (bytes ++ more) beyond' i := by
  rw [memory_of_lt h, memory_of_lt (by rw [List.length_append]; omega),
    List.getElem_append_left h]

theorem memory_beyond {bytes : List Byte} (beyond beyond' : Memory) {i : Nat}
    (h : i < bytes.length) : memory bytes beyond i = memory bytes beyond' i := by
  have := memory_append [] beyond beyond' h
  rwa [List.append_nil] at this

theorem advance_memory (a b : List Byte) (beyond : Memory) :
    (memory (a ++ b) beyond).advance a.length = memory b beyond := by
  funext i
  simp only [Memory.advance, memory, List.length_append]
  rw [List.getElem?_append_right (Nat.le_add_right _ _), Nat.add_sub_cancel_left,
    Nat.add_sub_add_left]

theorem bytes_memory (a b : List Byte) (beyond : Memory) :
    (memory (a ++ b) beyond).bytes a.length = a := by
  refine List.ext_getElem (by simp [Memory.bytes]) fun i hi ha => ?_
  simp only [Memory.bytes, List.getElem_map, List.getElem_range]
  rw [← memory_append b beyond beyond ha, memory_of_lt ha]

/-! ## Words -/

def lowByte (v : BitVec 16) : Byte := v.setWidth 8

def highByte (v : BitVec 16) : Byte := (v >>> 8).setWidth 8

/-- The bytes of a word, the low one first. -/
def bytesOfWord (v : BitVec 16) : List Byte := [lowByte v, highByte v]

def wordOfBytes (low high : Byte) : BitVec 16 := high ++ low

@[simp] theorem wordOfBytes_bytes (v : BitVec 16) : wordOfBytes (lowByte v) (highByte v) = v := by
  unfold wordOfBytes lowByte highByte
  grind

@[simp] theorem lowByte_wordOfBytes (low high : Byte) : lowByte (wordOfBytes low high) = low := by
  unfold wordOfBytes lowByte
  grind

@[simp] theorem highByte_wordOfBytes (low high : Byte) :
    highByte (wordOfBytes low high) = high := by
  unfold wordOfBytes highByte
  grind

/-! ## C strings -/

/-- `strnlen`. -/
def strnlen (src : Memory) : Nat → Nat
  | 0 => 0
  | max + 1 => if src 0 = 0#8 then 0 else strnlen (src.advance 1) max + 1

theorem nul_notMem_nil : 0#8 ∉ ([] : List Byte) := List.not_mem_nil

/-- The characters of a string that fits in `capacity`, less the terminator. -/
@[ext]
structure CString (capacity : Nat) where
  chars : List Byte
  fits : chars.length ≤ capacity
  noNul : 0#8 ∉ chars
deriving DecidableEq

theorem strnlen_le (src : Memory) (max : Nat) : strnlen src max ≤ max := by
  induction max generalizing src with
  | zero => exact Nat.le_refl _
  | succ max ih =>
    rw [strnlen]
    split
    · exact Nat.zero_le _
    · exact Nat.succ_le_succ (ih _)

/-- No character before the end is the terminator. -/
theorem strnlen_noNul {src : Memory} {max i : Nat} (h : i < strnlen src max) : src i ≠ 0#8 := by
  induction max generalizing src i with
  | zero => cases h
  | succ max ih =>
    rw [strnlen] at h
    split at h
    next => cases h
    next h0 =>
      cases i with
      | zero => exact h0
      | succ i =>
        have := ih (Nat.lt_of_succ_lt_succ h)
        rwa [Memory.advance, Nat.add_comm] at this

/-- The length is read off the characters and the terminator. -/
theorem strnlen_ofPrefix {src src' : Memory} {max : Nat}
    (h : ∀ i < strnlen src max + 1, src i = src' i) : strnlen src' max = strnlen src max := by
  induction max generalizing src src' with
  | zero => rfl
  | succ max ih =>
    have h0 := h 0 (Nat.succ_pos _)
    rw [strnlen, strnlen, ← h0]
    split
    next => rfl
    next hne =>
      rw [ih fun i hi => ?_]
      rw [strnlen, if_neg hne] at h
      exact h (1 + i) (by omega)

/-- The characters before the terminator are counted up to the bound. -/
theorem strnlen_min {chars rest : List Byte} (beyond : Memory) (max : Nat) (hno : 0#8 ∉ chars) :
    strnlen (memory (chars ++ 0#8 :: rest) beyond) max = min chars.length max := by
  induction chars generalizing max with
  | nil => cases max <;> exact (Nat.zero_min _).symm
  | cons c chars ih =>
    cases max with
    | zero => exact (Nat.min_zero _).symm
    | succ max =>
      have hne : c ≠ 0#8 := fun he => hno (he ▸ List.mem_cons_self)
      have hadvance := advance_memory [c] (chars ++ 0#8 :: rest) beyond
      rw [strnlen, if_neg (show memory (c :: chars ++ 0#8 :: rest) beyond 0 ≠ 0#8 from hne)]
      rw [show (memory (c :: chars ++ 0#8 :: rest) beyond).advance 1 = _ from hadvance,
        ih max (fun hm => hno (List.mem_cons_of_mem _ hm)), List.length_cons]
      omega

theorem strnlen_memory {chars rest : List Byte} (beyond : Memory) {max : Nat}
    (hno : 0#8 ∉ chars) (hmax : chars.length ≤ max) :
    strnlen (memory (chars ++ 0#8 :: rest) beyond) max = chars.length := by
  rw [strnlen_min beyond max hno, Nat.min_eq_left hmax]

/-- `copy_c_string` into an array of one more than `capacity`. -/
def copyCString (capacity : Nat) (src : Memory) : CString capacity where
  chars := src.bytes (strnlen src capacity)
  fits := by
    rw [Memory.bytes, List.length_map, List.length_range]
    exact strnlen_le src capacity
  noNul h := by
    obtain ⟨i, hi, he⟩ := List.mem_map.mp h
    exact strnlen_noNul (List.mem_range.mp hi) he

theorem bytes_congr {d d' : Memory} {n : Nat} (h : ∀ i < n, d i = d' i) : d'.bytes n = d.bytes n :=
  List.map_congr_left fun i hi => (h i (List.mem_range.mp hi)).symm

theorem copyCString_ofPrefix {src src' : Memory} {capacity : Nat}
    (h : ∀ i < strnlen src capacity + 1, src i = src' i) :
    copyCString capacity src' = copyCString capacity src := by
  ext1
  show src'.bytes (strnlen src' capacity) = src.bytes (strnlen src capacity)
  rw [strnlen_ofPrefix h]
  exact bytes_congr fun i hi => h i (Nat.lt_succ_of_lt hi)

/-- Copying a string that fits restores it. -/
theorem copyCString_memory {capacity : Nat} (s : CString capacity) (rest : List Byte)
    (beyond : Memory) :
    copyCString capacity (memory (s.chars ++ 0#8 :: rest) beyond) = s := by
  ext1
  show (memory _ beyond).bytes (strnlen (memory _ beyond) capacity) = s.chars
  rw [strnlen_memory beyond s.noNul s.fits]
  exact bytes_memory _ _ _

end StLib.Base.Bytes
