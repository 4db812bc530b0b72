import StLib.Base.BoundedCopies
import StLib.Base.DecimalText
import StLib.Base.Tokens

/-! # Addresses as text

`IPV4`. `IP_ADDR4` of the IP stack is a parameter. An access outside of `ip_bytes` and a use of one
of its bytes that was not written have no result, nor has an exception. -/
namespace StLib.Ethernet.Ipv4

open StLib.Base.Bytes (Byte)
open StLib.Base.DecimalText
open StLib.Base.Tokens

/-- `.` -/
def dot : Byte := 46#8

/-- The characters of a C string before its terminator. -/
structure CharPtr where
  chars : List Byte
  noNul : 0#8 ∉ chars

structure IPV4 where
  address : BitVec 32
  stringAddress : List Byte
deriving DecidableEq

/-! ## The constructors -/

/-- `IPV4(ip_addr_t)`. -/
def ofAddress (address : BitVec 32) : IPV4 where
  address := address
  stringAddress := decimal (address.setWidth 8).toNat ++ [dot] ++
    decimal ((address >>> 8).setWidth 8).toNat ++ [dot] ++
    decimal ((address >>> 16).setWidth 8).toNat ++ [dot] ++
    decimal ((address >>> 24).setWidth 8).toNat

section

variable (ipAddr4 : Int → Int → Int → Int → BitVec 32)

/-- As many numbers as are left of `ip_bytes`, each up to the next `.` of the stream. -/
def readBytes : Nat → List Byte → Option (List Int)
  | 0, _ => some []
  | left + 1, stream => do
    let (temp, stream) := getline dot stream
    let byte ← stoi temp
    let bytes ← readBytes left stream
    return byte :: bytes

/-- `IPV4(string)`. -/
def ofString (address : List Byte) : Option IPV4 := do
  match ← readBytes 4 address with
  | [a, b, c, d] => some ⟨ipAddr4 a b c d, address⟩
  | _ => none

/-- The loop over the tokens that are left, from index `i` of `ip_bytes` on. -/
def tokenLoop (text : List Byte) (i : Nat) (ipBytes : List (Option Byte)) : Option (List (Option Byte)) :=
  match h : strtok dot text with
  | none => some ipBytes
  | some (token, rest) => do
    let ipBytes ← Base.BoundedCopies.store ipBytes i (some (BitVec.ofInt 8 (atoi token)))
    tokenLoop rest (i + 1) ipBytes
termination_by text.length
decreasing_by
  have hspec := strtok_spec dot text
  rw [h] at hspec
  exact hspec.2

def written (ipBytes : List (Option Byte)) (i : Nat) : Option Int := do
  let byte ← ipBytes[i]?
  let byte ← byte
  return byte.toNat

/-- What the constructor and the assignment do with a C string. -/
def parse (address : CharPtr) : Option IPV4 := do
  let ipBytes ← tokenLoop address.chars 0 [none, none, none, none]
  let a ← written ipBytes 0
  let b ← written ipBytes 1
  let c ← written ipBytes 2
  let d ← written ipBytes 3
  return ⟨ipAddr4 a b c d, address.chars⟩

/-- `IPV4(const char*)`. -/
def ofCharPtr (address : CharPtr) : Option IPV4 := parse ipAddr4 address

/-- `operator=(const char*)`. -/
def assign (_ : IPV4) (address : CharPtr) : Option IPV4 := parse ipAddr4 address

end

/-! ## The tokens of a C string -/

/-- The bytes of tokens put into the array one after the other. -/
def putAll : List (List Byte) → Nat → List (Option Byte) → Option (List (Option Byte))
  | [], _, ipBytes => some ipBytes
  | token :: tokens, i, ipBytes => do
    let ipBytes ← Base.BoundedCopies.store ipBytes i (some (BitVec.ofInt 8 (atoi token)))
    putAll tokens (i + 1) ipBytes

theorem tokenLoop_eq (text : List Byte) (i : Nat) (ipBytes : List (Option Byte)) :
    tokenLoop text i ipBytes = putAll (parts dot text) i ipBytes := by
  induction text, i, ipBytes using tokenLoop.induct with
  | case1 text i ipBytes h =>
    have hspec := strtok_spec dot text
    rw [h] at hspec
    rw [tokenLoop, hspec]
    split
    · rfl
    · next h' => rw [h] at h'; cases h'
  | case2 text i ipBytes token rest h ih =>
    have hspec := strtok_spec dot text
    rw [h] at hspec
    rw [tokenLoop, hspec.1, putAll]
    split
    · next h' => rw [h] at h'; cases h'
    · next h' =>
      rw [h] at h'
      cases h'
      exact congrArg _ (funext fun ipBytes => ih ipBytes)

def tokenByte (token : List Byte) : Int := (BitVec.ofInt 8 (atoi token)).toNat

section

variable {ipAddr4 : Int → Int → Int → Int → BitVec 32}

/-- Any other number of tokens than four leaves the array or a byte of it unwritten. -/
theorem parse_eq (address : CharPtr) : parse ipAddr4 address =
    match parts dot address.chars with
    | [a, b, c, d] =>
      some ⟨ipAddr4 (tokenByte a) (tokenByte b) (tokenByte c) (tokenByte d), address.chars⟩
    | _ => none := by
  rw [parse, tokenLoop_eq]
  match parts dot address.chars with
  | [] => rfl
  | [_] => rfl
  | [_, _] => rfl
  | [_, _, _] => rfl
  | [_, _, _, _] => rfl
  | _ :: _ :: _ :: _ :: _ :: _ => rfl

variable (ipAddr4) in
theorem parse_isSome_iff (address : CharPtr) :
    (parse ipAddr4 address).isSome ↔ (parts dot address.chars).length = 4 := by
  rw [parse_eq]
  match parts dot address.chars with
  | [] => exact ⟨nofun, nofun⟩
  | [_] => exact ⟨nofun, nofun⟩
  | [_, _] => exact ⟨nofun, nofun⟩
  | [_, _, _] => exact ⟨nofun, nofun⟩
  | [_, _, _, _] => exact ⟨fun _ => rfl, fun _ => rfl⟩
  | _ :: _ :: _ :: _ :: _ :: rest => exact ⟨nofun, fun h => absurd h (by simp)⟩

end

/-! ## The text of an address -/

/-- A byte of an address, the low one first. -/
def octet (address : BitVec 32) (k : Nat) : Byte := (address >>> (8 * k)).setWidth 8

def octetText (address : BitVec 32) (k : Nat) : List Byte := decimal (octet address k).toNat

section

variable (address : BitVec 32) (k : Nat)

theorem octet_lt : (octet address k).toNat < 2 ^ 31 :=
  Nat.lt_trans (octet address k).isLt (by decide)

theorem notMem_decimal {c : Byte} (h : isDigit c = false) (n : Nat) : c ∉ decimal n := by
  intro hc
  rw [isDigit_of_mem_decimal hc] at h
  cases h

theorem dot_notMem : dot ∉ octetText address k := notMem_decimal (by decide) _

theorem octetText_isEmpty : (octetText address k).isEmpty = false :=
  List.isEmpty_eq_false_iff.mpr (decimal_ne_nil _)

theorem stringAddress_eq : (ofAddress address).stringAddress = octetText address 0 ++
    dot :: (octetText address 1 ++ dot :: (octetText address 2 ++ dot :: octetText address 3)) := by
  simp only [ofAddress, octetText, octet, List.append_assoc, List.cons_append, List.nil_append,
    Nat.mul_zero, BitVec.ushiftRight_zero, Nat.reduceMul]

theorem stringAddress_noNul : 0#8 ∉ (ofAddress address).stringAddress := by
  have hzero (k : Nat) : 0#8 ∉ octetText address k := notMem_decimal (by decide) _
  have hdot : (0#8 : Byte) ≠ dot := by decide
  simp only [stringAddress_eq, List.mem_append, List.mem_cons, hzero, hdot, or_self, not_false_iff]

/-- `string_address.c_str()`. -/
def cStr : CharPtr := ⟨(ofAddress address).stringAddress, stringAddress_noNul address⟩

theorem parts_stringAddress : parts dot (ofAddress address).stringAddress =
    [octetText address 0, octetText address 1, octetText address 2, octetText address 3] := by
  simp only [stringAddress_eq, parts_append (dot_notMem address _), parts_last (dot_notMem address _),
    octetText_isEmpty, Bool.false_eq_true, if_false]

theorem tokenByte_octetText : tokenByte (octetText address k) = (octet address k).toNat := by
  rw [tokenByte, octetText, atoi_decimal (octet_lt address k), BitVec.ofInt_natCast, BitVec.ofNat_toNat,
    BitVec.setWidth_eq]

theorem readBytes_stringAddress : readBytes 4 (ofAddress address).stringAddress =
    some [((octet address 0).toNat : Int), (octet address 1).toNat, (octet address 2).toNat,
      (octet address 3).toNat] := by
  have hstoi (k : Nat) : stoi (octetText address k) = some ((octet address k).toNat : Int) :=
    stoi_decimal (octet_lt address k)
  simp only [readBytes, stringAddress_eq, getline_append (dot_notMem address _),
    getline_last (dot_notMem address _), hstoi]
  rfl

theorem octets_append :
    octet address 3 ++ octet address 2 ++ octet address 1 ++ octet address 0 = address := by
  unfold octet
  ext i hi
  grind

end

/-! ## The property -/

section

variable {ipAddr4 : Int → Int → Int → Int → BitVec 32}

/-- `IP_ADDR4` takes the low byte of each number, the first one at the lowest address. -/
def NetworkOrder (ipAddr4 : Int → Int → Int → Int → BitVec 32) : Prop :=
  ∀ a b c d, ipAddr4 a b c d = BitVec.ofInt 8 d ++ BitVec.ofInt 8 c ++ BitVec.ofInt 8 b ++ BitVec.ofInt 8 a

/-- From the text of an address, all three ways give the address and its text. -/
structure RoundTrips (ipAddr4 : Int → Int → Int → Int → BitVec 32) (address : BitVec 32) : Prop where
  ofString : ofString ipAddr4 (ofAddress address).stringAddress = some (ofAddress address)
  ofCharPtr : ofCharPtr ipAddr4 (cStr address) = some (ofAddress address)
  assign : ∀ self, assign ipAddr4 self (cStr address) = some (ofAddress address)

/-- No access outside of the array, and no use of a byte that was not written. -/
structure Guarded (ipAddr4 : Int → Int → Int → Int → BitVec 32) (text : CharPtr) : Prop where
  ofCharPtr : (ofCharPtr ipAddr4 text).isSome
  assign : ∀ self, (assign ipAddr4 self text).isSome

theorem guarded_iff (text : CharPtr) : Guarded ipAddr4 text ↔ (parts dot text.chars).length = 4 := by
  rw [← parse_isSome_iff ipAddr4 text]
  exact ⟨fun h => h.ofCharPtr, fun h => ⟨h, fun _ => h⟩⟩

theorem ipAddr4_octets (horder : NetworkOrder ipAddr4) (address : BitVec 32) :
    ipAddr4 (octet address 0).toNat (octet address 1).toNat (octet address 2).toNat (octet address 3).toNat =
      address := by
  rw [horder]
  simp only [BitVec.ofInt_natCast, BitVec.ofNat_toNat, BitVec.setWidth_eq]
  exact octets_append address

theorem roundTrips (horder : NetworkOrder ipAddr4) (address : BitVec 32) : RoundTrips ipAddr4 address := by
  have hparse : parse ipAddr4 (cStr address) = some (ofAddress address) := by
    rw [parse_eq, cStr, parts_stringAddress]
    simp only [tokenByte_octetText, ipAddr4_octets horder]
    rfl
  refine ⟨?_, hparse, fun _ => hparse⟩
  simp only [ofString, readBytes_stringAddress, Option.bind_eq_bind, Option.bind_some,
    ipAddr4_octets horder]
  rfl

/-- **Text and addresses.** The ways back from the text of any address agree, and a C string is read
within the four bytes exactly if four of its pieces between dots are not empty. -/
theorem text_right_iff (horder : NetworkOrder ipAddr4) (address : BitVec 32) (text : CharPtr) :
    RoundTrips ipAddr4 address ∧ Guarded ipAddr4 text ↔
      ((text.chars.splitOn dot).filter fun part => !part.isEmpty).length = 4 :=
  (and_iff_right (roundTrips horder address)).trans (guarded_iff text)

end

/-- The bytes of the four numbers as they lie in memory. -/
def bytesInOrder (a b c d : Int) : BitVec 32 :=
  BitVec.ofInt 8 d ++ BitVec.ofInt 8 c ++ BitVec.ofInt 8 b ++ BitVec.ofInt 8 a

/-- `192.168.0.4` and the text `1..2.3.256.`. -/
theorem text_right_iff_address : RoundTrips bytesInOrder 0x0400A8C0#32 ∧
    Guarded bytesInOrder ⟨[49, 46, 46, 50, 46, 51, 46, 50, 53, 54, 46], by decide⟩ :=
  (text_right_iff (fun _ _ _ _ => rfl) _ _).mpr rfl

/-- `1.2.3.4.5` and `1.2.3`. -/
theorem other_counts_not_guarded :
    ¬ Guarded bytesInOrder ⟨[49, 46, 50, 46, 51, 46, 52, 46, 53], by decide⟩ ∧
    ¬ Guarded bytesInOrder ⟨[49, 46, 50, 46, 51], by decide⟩ := by
  constructor
  · exact fun h => absurd ((guarded_iff _).mp h) (by decide)
  · exact fun h => absurd ((guarded_iff _).mp h) (by decide)

end StLib.Ethernet.Ipv4
