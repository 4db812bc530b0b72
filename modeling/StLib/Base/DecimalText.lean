import Mathlib.Data.List.TakeWhile
import Mathlib.Data.Nat.Digits.Defs
import StLib.Base.Bytes

/-! # Numbers as decimal text

`std::to_string` of a number, and what `strtol`, `atoi` and `std::stoi` read from the start of a
text. -/
namespace StLib.Base.DecimalText

open StLib.Base.Bytes

def digitByte (d : Nat) : Byte := BitVec.ofNat 8 (48 + d)

def isDigit (c : Byte) : Bool := 48 ≤ c.toNat && c.toNat ≤ 57

def isSpace (c : Byte) : Bool := c.toNat == 32 || (9 ≤ c.toNat && c.toNat ≤ 13)

/-- `std::to_string`. -/
def decimal (n : Nat) : List Byte :=
  if n = 0 then [digitByte 0] else ((Nat.digits 10 n).map digitByte).reverse

def value (digits : List Byte) : Nat := digits.foldl (fun v c => 10 * v + (c.toNat - 48)) 0

/-- An optional sign. -/
def sign : List Byte → Int × List Byte
  | 45#8 :: text => (-1, text)
  | 43#8 :: text => (1, text)
  | text => (1, text)

/-- The number at the start of a text, where there is one. -/
def scan (text : List Byte) : Option Int :=
  let (factor, text) := sign (text.dropWhile isSpace)
  let digits := text.takeWhile isDigit
  if digits.isEmpty then none else some (factor * value digits)

def intMin : Int := -2 ^ 31

def intMax : Int := 2 ^ 31 - 1

/-- A number out of the range of `int` is taken as the end of the range that is next to it. -/
def atoi (text : List Byte) : Int := max intMin (min intMax ((scan text).getD 0))

/-- Without a number in the range of `int` an exception is thrown. -/
def stoi (text : List Byte) : Option Int := do
  let n ← scan text
  if intMin ≤ n ∧ n ≤ intMax then some n else none

/-! ## What is written is read -/

section

variable {n d : Nat}

theorem toNat_digitByte (h : d < 10) : (digitByte d).toNat = 48 + d := Nat.mod_eq_of_lt (by omega)

theorem isDigit_digitByte (h : d < 10) : isDigit (digitByte d) = true := by
  simp only [isDigit, toNat_digitByte h, Bool.and_eq_true, decide_eq_true_eq]
  omega

theorem isDigit_of_mem_decimal {c : Byte} (h : c ∈ decimal n) : isDigit c = true := by
  rw [decimal] at h
  split at h
  · rw [List.mem_singleton.mp h]
    exact isDigit_digitByte (by decide)
  · obtain ⟨d, hd, rfl⟩ := List.mem_map.mp (List.mem_reverse.mp h)
    exact isDigit_digitByte (Nat.digits_lt_base (by decide) hd)

theorem decimal_ne_nil (n : Nat) : decimal n ≠ [] := by
  rw [decimal]
  split
  · exact List.cons_ne_nil _ _
  · next hn =>
    rw [Ne, List.reverse_eq_nil_iff, List.map_eq_nil_iff]
    exact Nat.digits_ne_nil_iff_ne_zero.mpr hn

theorem value_digits {digits : List Nat} (h : ∀ d ∈ digits, d < 10) :
    value (digits.map digitByte).reverse = Nat.ofDigits 10 digits := by
  rw [value, List.foldl_reverse]
  induction digits with
  | nil => rfl
  | cons d digits ih =>
    have hrest := ih fun d hd => h d (List.mem_cons_of_mem _ hd)
    rw [List.map_cons, List.foldr_cons, hrest, toNat_digitByte (h d List.mem_cons_self),
      Nat.add_sub_cancel_left, Nat.ofDigits_cons, Nat.add_comm]

theorem value_decimal (n : Nat) : value (decimal n) = n := by
  rw [decimal]
  split
  · next hn =>
    rw [hn]
    rfl
  · rw [value_digits fun d hd => Nat.digits_lt_base (by decide) hd, Nat.ofDigits_digits]

/-- A text that starts with a digit has no space and no sign before it. -/
theorem sign_digit {c : Byte} (h : isDigit c = true) (text : List Byte) :
    sign ((c :: text).dropWhile isSpace) = (1, c :: text) := by
  have hrange : 48 ≤ c.toNat ∧ c.toNat ≤ 57 := by
    simpa only [isDigit, Bool.and_eq_true, decide_eq_true_eq] using h
  have hspace : ¬ isSpace c = true := by
    simp only [isSpace, Bool.or_eq_true, Bool.and_eq_true, beq_iff_eq, decide_eq_true_eq]
    omega
  rw [List.dropWhile_cons_of_neg hspace, sign]
  · rintro rest he
    rw [(List.cons.inj he).1] at hrange
    exact absurd hrange (by decide)
  · rintro rest he
    rw [(List.cons.inj he).1] at hrange
    exact absurd hrange (by decide)

theorem scan_decimal (n : Nat) : scan (decimal n) = some (n : Int) := by
  have hdigits : (decimal n).takeWhile isDigit = decimal n :=
    List.takeWhile_eq_self_iff.mpr fun c hc => isDigit_of_mem_decimal hc
  have hempty : (decimal n).isEmpty = false := by
    simpa using decimal_ne_nil n
  have hsign : sign ((decimal n).dropWhile isSpace) = (1, decimal n) := by
    match hn : decimal n, decimal_ne_nil n with
    | c :: text, _ =>
      exact sign_digit (isDigit_of_mem_decimal (hn ▸ List.mem_cons_self)) text
  simp only [scan, hsign, hdigits, hempty, value_decimal, one_mul]
  rfl

theorem atoi_decimal (h : n < 2 ^ 31) : atoi (decimal n) = n := by
  rw [atoi, scan_decimal, Option.getD_some]
  unfold intMin intMax
  omega

theorem stoi_decimal (h : n < 2 ^ 31) : stoi (decimal n) = some (n : Int) := by
  have hrange : intMin ≤ (n : Int) ∧ (n : Int) ≤ intMax := by
    unfold intMin intMax
    omega
  rw [stoi, scan_decimal]
  exact if_pos hrange

end

end StLib.Base.DecimalText
