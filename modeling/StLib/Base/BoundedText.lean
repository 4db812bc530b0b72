import StLib.Base.DecimalText

/-! # Text in a buffer of fixed size

`vsnprintf` behind what a buffer holds already. However often text is appended, the buffer
holds the start of all that was appended, as much as fits, and its terminator. -/
namespace StLib.Base.BoundedText

open StLib.Base.Bytes StLib.Base.DecimalText

/-- `vsnprintf(buffer + offset, size, …)` of a text, with the `size` that is left. -/
def vsnprintf (buffer : List Byte) (offset : Nat) (text : List Byte) : List Byte :=
  if offset < buffer.length then
    let written := text.take (buffer.length - offset - 1)
    buffer.take offset ++ written ++ 0#8 :: buffer.drop (offset + written.length + 1)
  else buffer

theorem length_vsnprintf (buffer : List Byte) (offset : Nat) (text : List Byte) :
    (vsnprintf buffer offset text).length = buffer.length := by
  rw [vsnprintf]
  split
  · simp only [List.length_append, List.length_cons, List.length_take, List.length_drop]
    omega
  · rfl

/-- A buffer and where the next text goes. -/
structure Builder where
  buffer : List Byte
  offset : Nat := 0
deriving DecidableEq

namespace Builder

def new (target : List Byte) : Builder := { buffer := if target = [] then [] else target.set 0 0#8 }

def append (text : List Byte) (b : Builder) : Builder :=
  if b.buffer.length = 0 ∨ b.buffer.length - 1 ≤ b.offset then b
  else
    { buffer := vsnprintf b.buffer b.offset text
      offset :=
        if b.buffer.length - b.offset ≤ text.length then b.buffer.length - 1
        else b.offset + text.length }

/-- The builder holds what fits of a text into its buffer of `size` characters. -/
structure Holds (size : Nat) (text : List Byte) (b : Builder) : Prop where
  length : b.buffer.length = size
  offset : b.offset = (text.take (size - 1)).length
  chars : ∃ rest, b.buffer = text.take (size - 1) ++ 0#8 :: rest

variable {b : Builder} {size : Nat} {text : List Byte}

theorem new_holds {target : List Byte} (h : target ≠ []) : (new target).Holds target.length [] := by
  obtain ⟨c, target, rfl⟩ := List.exists_cons_of_ne_nil h
  refine ⟨rfl, by simp [new], target, ?_⟩
  simp [new]

theorem Holds.pos (h : b.Holds size text) : 0 < size := by
  obtain ⟨rest, hrest⟩ := h.chars
  have hlength := congrArg List.length hrest
  rw [h.length, List.length_append, List.length_cons] at hlength
  omega

/-- Taking the start of a text and more takes the start of both. -/
theorem take_take_append {α : Type} (a c : List α) (n : Nat) :
    (a ++ c).take n = a.take n ++ c.take (n - (a.take n).length) := by
  rw [List.take_append, List.length_take]
  congr 2
  omega

/-- **Appending** goes on with the text as far as there is room. -/
theorem append_holds (h : b.Holds size text) (more : List Byte) :
    (b.append more).Holds size (text ++ more) := by
  have hpos := h.pos
  have hlength : (text.take (size - 1)).length ≤ size - 1 := List.length_take_le _ _
  have hall := take_take_append text more (size - 1)
  have hempty : b.buffer.length ≠ 0 := by
    rw [h.length]
    omega
  rw [append]
  by_cases hfull : b.buffer.length - 1 ≤ b.offset
  · -- nothing is written once the buffer is full
    rw [if_pos (.inr hfull)]
    have hoffset := h.offset
    rw [h.length] at hfull
    have hsame : (text ++ more).take (size - 1) = text.take (size - 1) := by
      rw [hall, show size - 1 - (text.take (size - 1)).length = 0 by omega, List.take_zero,
        List.append_nil]
    exact ⟨h.length, hsame ▸ h.offset, hsame ▸ h.chars⟩
  · obtain ⟨rest, hrest⟩ := h.chars
    rw [h.length] at hfull
    rw [if_neg (not_or.mpr ⟨hempty, by rw [h.length]; exact hfull⟩)]
    have hinside : b.offset < b.buffer.length := by
      rw [h.length]
      omega
    have htake : b.buffer.take b.offset = text.take (size - 1) := by
      rw [h.offset, hrest, List.take_left]
    have hroom : size - 1 - (text.take (size - 1)).length = b.buffer.length - b.offset - 1 := by
      rw [h.length, h.offset]
      omega
    refine ⟨?_, ?_, b.buffer.drop (b.offset + (more.take (b.buffer.length - b.offset - 1)).length + 1), ?_⟩
    · exact (length_vsnprintf ..).trans h.length
    · rw [hall, List.length_append, hroom, ← h.offset, List.length_take, h.length]
      dsimp only
      split <;> omega
    · simp only [vsnprintf, if_pos hinside]
      rw [htake, hall, hroom]

/-- A run of appends. -/
def appendAll (texts : List (List Byte)) (b : Builder) : Builder := texts.foldl (fun b text => b.append text) b

theorem appendAll_holds (h : b.Holds size text) (texts : List (List Byte)) :
    (b.appendAll texts).Holds size (text ++ texts.flatten) := by
  induction texts generalizing b text with
  | nil =>
    rw [List.flatten_nil, List.append_nil]
    exact h
  | cons more texts ih =>
    rw [List.flatten_cons, ← List.append_assoc]
    exact ih (append_holds h more)

/-- **The string** in the buffer is the start of the text. -/
theorem Holds.string (h : b.Holds size text) (hno : 0#8 ∉ text) (beyond : Memory) :
    (copyCString (size - 1) (memory b.buffer beyond)).chars = text.take (size - 1) := by
  obtain ⟨rest, hrest⟩ := h.chars
  have hkept : 0#8 ∉ text.take (size - 1) := fun hmem => hno (List.mem_of_mem_take hmem)
  rw [hrest]
  exact congrArg CString.chars
    (copyCString_memory ⟨text.take (size - 1), List.length_take_le _ _, hkept⟩ rest beyond)

end Builder

/-! ## Numbers -/

/-- The bytes of a string literal. -/
def ascii (s : String) : List Byte := s.toList.map fun c => BitVec.ofNat 8 c.toNat

/-- `%0wu` for a width `w`. -/
def padded (width n : Nat) : List Byte :=
  List.replicate (width - (decimal n).length) (digitByte 0) ++ decimal n

/-- `%lld`. -/
def signedDecimal (n : Int) : List Byte :=
  if n < 0 then 45#8 :: decimal n.natAbs else decimal n.natAbs

theorem isDigit_of_mem_padded {width n : Nat} {c : Byte} (h : c ∈ padded width n) : isDigit c = true := by
  rcases List.mem_append.mp h with h | h
  · rw [(List.mem_replicate.mp h).2]
    exact isDigit_digitByte (by decide)
  · exact isDigit_of_mem_decimal h

theorem value_zeros (k : Nat) (digits : List Byte) :
    value (List.replicate k (digitByte 0) ++ digits) = value digits := by
  induction k with
  | zero => rfl
  | succ k ih => exact ih

theorem value_padded (width n : Nat) : value (padded width n) = n := by
  rw [padded, value_zeros, value_decimal]

theorem nul_notMem_of_isDigit {digits : List Byte} (h : ∀ c ∈ digits, isDigit c = true) : 0#8 ∉ digits := by
  intro hmem
  exact absurd (h _ hmem) (by decide)

theorem nul_notMem_decimal (n : Nat) : 0#8 ∉ decimal n :=
  nul_notMem_of_isDigit fun _ => isDigit_of_mem_decimal

theorem nul_notMem_padded (width n : Nat) : 0#8 ∉ padded width n :=
  nul_notMem_of_isDigit fun _ => isDigit_of_mem_padded

theorem nul_notMem_signedDecimal (n : Int) : 0#8 ∉ signedDecimal n := by
  rw [signedDecimal]
  split
  · rw [List.mem_cons, not_or]
    exact ⟨by decide, nul_notMem_decimal _⟩
  · exact nul_notMem_decimal _

/-- Digits end at the first character that is none. -/
theorem digits_split {a b rest rest' : List Byte} {c c' : Byte} (ha : ∀ x ∈ a, isDigit x = true)
    (hb : ∀ x ∈ b, isDigit x = true) (hc : isDigit c = false) (hc' : isDigit c' = false)
    (h : a ++ c :: rest = b ++ c' :: rest') : a = b ∧ c = c' ∧ rest = rest' := by
  have htake : ∀ {x : List Byte} {d : Byte} (r : List Byte), (∀ y ∈ x, isDigit y = true) →
      isDigit d = false → (x ++ d :: r).takeWhile isDigit = x := by
    intro x d r hx hd
    rw [List.takeWhile_append_of_pos hx, List.takeWhile_cons_of_neg (by rw [hd]; exact Bool.false_ne_true),
      List.append_nil]
  have heq : a = b := by
    rw [← htake rest ha hc, h, htake rest' hb hc']
  subst heq
  obtain ⟨hhead, htail⟩ := List.cons.inj (List.append_cancel_left h)
  exact ⟨rfl, hhead, htail⟩

/-- A number is read off its digits up to the next character. -/
theorem padded_split {width n n' : Nat} {c c' : Byte} {rest rest' : List Byte} (hc : isDigit c = false)
    (hc' : isDigit c' = false) (h : padded width n ++ c :: rest = padded width n' ++ c' :: rest') :
    n = n' ∧ c = c' ∧ rest = rest' := by
  obtain ⟨hdigits, hchar, hrest⟩ := digits_split (fun _ => isDigit_of_mem_padded)
    (fun _ => isDigit_of_mem_padded) hc hc' h
  have hvalue := congrArg value hdigits
  rw [value_padded, value_padded] at hvalue
  exact ⟨hvalue, hchar, hrest⟩

end StLib.Base.BoundedText
