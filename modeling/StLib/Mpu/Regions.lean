import Mathlib.Algebra.Order.Group.Nat

/-! # Regions of the memory protection unit

`MPUDomain::configure_region`, on the target, where `size_t`, `uintptr_t` and `int` have 32
bits. An operation whose result does not fit its type has none. -/
namespace StLib.Mpu.Regions

/-! ## Arithmetic -/

def fit (bits value : Nat) : Option Nat := if value < 2 ^ bits then some value else none

/-- `value << amount` of an `int`. -/
def shl (value amount : Nat) : Option Nat := if amount < 32 then fit 31 (value * 2 ^ amount) else none

/-- `__builtin_clz`, undefined at zero. -/
def clz (x : BitVec 32) : Option Nat := if x = 0#32 then none else some x.clz.toNat

/-! ## configure_region -/

/-- `MPU_Region_InitTypeDef` of an enabled region. -/
structure Region where
  number : BitVec 8
  baseAddress : BitVec 32
  size : Nat
  subRegionDisable : Nat
  typeExtField : BitVec 8
  accessPermission : BitVec 8
  disableExec : BitVec 8
  isShareable : BitVec 8
  isCacheable : BitVec 8
  isBufferable : BitVec 8
deriving DecidableEq

/-- The arguments but for the addresses. -/
structure Attributes where
  regionNum : BitVec 8
  tex : BitVec 8
  access : BitVec 8
  noExec : BitVec 8
  shareable : BitVec 8
  cacheable : BitVec 8
  bufferable : BitVec 8

/-- The variable `mpu_size`. -/
def mpuSize (size : BitVec 32) : Option Nat :=
  if 32#32 < size then do
    let zeros ← clz (size - 1#32)
    fit 8 (4 * 8 - 1 - zeros)
  else some 4

/-- `MPU_InitStruct`. -/
def initStruct (base : BitVec 32) (a : Attributes) (mpuSize srd : Nat) : Region where
  number := a.regionNum
  baseAddress := base
  size := mpuSize
  subRegionDisable := srd
  typeExtField := a.tex
  accessPermission := a.access
  disableExec := a.noExec
  isShareable := a.shareable
  isCacheable := a.cacheable
  isBufferable := a.bufferable

/-- What is passed to `HAL_MPU_ConfigRegion`, if it is called. -/
def configureRegion (base size : BitVec 32) (a : Attributes) : Option (Option Region) :=
  if size = 0#32 then some none
  else do
    let mpuSize ← mpuSize size
    let subSize := (← shl 1 (mpuSize + 1)) / 8
    let sum ← fit 32 (size.toNat + subSize)
    let neededSubs ← fit 8 ((sum - 1) / subSize)
    let srd := (← shl 0xFF neededSubs) % 2 ^ 8
    return some (initStruct base a mpuSize srd)

/-! ## The unit -/

namespace Region

variable (r : Region)

def length : Nat := 2 ^ (r.size + 1)

/-- The region has eight parts of one length, each of which can be disabled. -/
def Enables (address : Nat) : Prop :=
  ∃ i < 8, r.subRegionDisable.testBit i = false ∧
    r.baseAddress.toNat + i * (r.length / 8) ≤ address ∧
    address < r.baseAddress.toNat + (i + 1) * (r.length / 8)

/-- The enabled parts of the region at the base hold the bytes from the base on, and less than
a part besides. -/
structure Covers (base size : BitVec 32) : Prop where
  start : r.baseAddress = base
  covered : ∀ address, base.toNat ≤ address → address < base.toNat + size.toNat → r.Enables address
  past : ∀ address, r.Enables address →
    base.toNat ≤ address ∧ address + 1 < base.toNat + size.toNat + r.length / 8

end Region

/-! ## The size -/

theorem fit_eq {bits value : Nat} (h : value < 2 ^ bits) : fit bits value = some value := if_pos h

theorem shl_eq {value amount : Nat} (hamount : amount < 32) (h : value * 2 ^ amount < 2 ^ 31) :
    shl value amount = some (value * 2 ^ amount) := by rw [shl, if_pos hamount, fit_eq h]

/-- The region is large enough, and a length of 32 bits holds it. -/
theorem mpuSize_eq {size : BitVec 32} (h : size.toNat ≤ 2 ^ 30) :
    ∃ m, mpuSize size = some m ∧ 4 ≤ m ∧ m ≤ 29 ∧ size.toNat ≤ 2 ^ (m + 1) := by
  rw [mpuSize]
  split
  · next hlarge =>
    have hlarge : 32 < size.toNat := BitVec.lt_def.mp hlarge
    have hbefore : (size - 1#32).toNat = size.toNat - 1 := by
      have hone : (1#32 : BitVec 32).toNat = 1 := rfl
      rw [BitVec.toNat_sub, hone]
      omega
    have hne : size - 1#32 ≠ 0#32 := by
      intro hzero
      rw [hzero] at hbefore
      change 0 = _ at hbefore
      omega
    have hbelow := BitVec.two_pow_sub_clz_le_toNat_of_ne_zero (by omega) hne
    have habove := (size - 1#32).toNat_lt_two_pow_sub_clz
    rw [hbefore] at hbelow habove
    have hmost : 32 - 1 - (size - 1#32).clz.toNat < 30 :=
      (Nat.pow_lt_pow_iff_right Nat.one_lt_two).mp (by omega)
    have hleast : 5 < 32 - (size - 1#32).clz.toNat :=
      (Nat.pow_lt_pow_iff_right Nat.one_lt_two).mp (by omega)
    refine ⟨4 * 8 - 1 - (size - 1#32).clz.toNat, ?_, by omega, by omega, ?_⟩
    · rw [clz, if_neg hne]
      exact fit_eq (by omega)
    · have hexponent : 4 * 8 - 1 - (size - 1#32).clz.toNat + 1 = 32 - (size - 1#32).clz.toNat := by omega
      rw [hexponent]
      omega
  · next hsmall =>
    have hsmall : ¬ 32 < size.toNat := fun hlt => hsmall (BitVec.lt_def.mpr hlt)
    exact ⟨4, rfl, Nat.le_refl _, by omega, by omega⟩

/-- A part of the region. -/
theorem subSize_eq {m : Nat} (h : 4 ≤ m) : 2 ^ (m + 1) / 8 = 2 ^ (m - 2) ∧ 2 ^ (m + 1) = 8 * 2 ^ (m - 2) := by
  obtain ⟨k, rfl⟩ := Nat.exists_eq_add_of_le h
  have hpow : 2 ^ (4 + k + 1) = 8 * 2 ^ (4 + k - 2) := by
    rw [show 4 + k + 1 = 4 + k - 2 + 3 by omega, Nat.pow_add, Nat.mul_comm]
  exact ⟨by rw [hpow, Nat.mul_div_cancel_left _ (by omega)], hpow⟩

/-! ## The parts -/

/-- The bits of the mask from the count on are set. -/
theorem srd_testBit {n i : Nat} (hn : n ≤ 8) (hi : i < 8) :
    (0xFF * 2 ^ n % 2 ^ 8).testBit i = decide (n ≤ i) := by
  have hall : ∀ n ≤ 8, ∀ i < 8, (0xFF * 2 ^ n % 2 ^ 8).testBit i = decide (n ≤ i) := by decide
  exact hall n hn i hi

/-- The number of the parts that are needed. -/
theorem neededSubs_spec {size sub : Nat} (hsub : 0 < sub) (hsize : 0 < size) :
    size ≤ (size + sub - 1) / sub * sub ∧ (size + sub - 1) / sub * sub < size + sub := by
  have hdiv := Nat.div_add_mod (size + sub - 1) sub
  have hmod := Nat.mod_lt (size + sub - 1) hsub
  rw [Nat.mul_comm] at hdiv
  omega

section Parts

variable {r : Region} {n : Nat}

/-- The parts before the count make up the memory that is enabled. -/
theorem enables_iff (hdisable : r.subRegionDisable = 0xFF * 2 ^ n % 2 ^ 8) (hn : n ≤ 8) {address : Nat} :
    r.Enables address ↔ r.baseAddress.toNat ≤ address ∧
      address < r.baseAddress.toNat + n * (r.length / 8) := by
  constructor
  · rintro ⟨i, hi, hbit, hfrom, hto⟩
    rw [hdisable, srd_testBit hn hi] at hbit
    have hlt : i < n := by simpa using hbit
    have hle : (i + 1) * (r.length / 8) ≤ n * (r.length / 8) := Nat.mul_le_mul_right _ hlt
    omega
  · rintro ⟨hfrom, hto⟩
    obtain ⟨offset, rfl⟩ := Nat.exists_eq_add_of_le hfrom
    have hoffset : offset < n * (r.length / 8) := by omega
    have hlt : offset / (r.length / 8) < n := Nat.div_lt_of_lt_mul (Nat.mul_comm .. ▸ hoffset)
    have hpos : 0 < r.length / 8 := Nat.pos_of_ne_zero fun hzero => by
      rw [hzero, Nat.mul_zero] at hoffset
      exact Nat.not_lt_zero _ hoffset
    refine ⟨offset / (r.length / 8), by omega, ?_, ?_, ?_⟩
    · rw [hdisable, srd_testBit hn (by omega)]
      exact decide_eq_false (Nat.not_le.mpr hlt)
    · exact Nat.add_le_add_left (Nat.div_mul_le_self ..) _
    · have hnext := Nat.lt_div_mul_add hpos (a := offset)
      rw [Nat.add_mul, Nat.one_mul]
      omega

theorem covers_of_parts {base size : BitVec 32} (hbase : r.baseAddress = base)
    (hdisable : r.subRegionDisable = 0xFF * 2 ^ n % 2 ^ 8) (hn : n ≤ 8)
    (hleast : size.toNat ≤ n * (r.length / 8)) (hmost : n * (r.length / 8) < size.toNat + r.length / 8) :
    r.Covers base size := by
  subst hbase
  refine ⟨rfl, fun address hfrom hto => ?_, fun address henabled => ?_⟩
  · exact (enables_iff hdisable hn).mpr ⟨hfrom, by omega⟩
  · obtain ⟨hfrom, hto⟩ := (enables_iff hdisable hn).mp henabled
    exact ⟨hfrom, by omega⟩

end Parts

/-- **Cover.** Of every size from 1 byte to 1 GiB no operation overflows, and the region that
is programmed covers the bytes from the base on, past them by less than an eighth. -/
theorem configureRegion_covers (base size : BitVec 32) (a : Attributes) (hpos : 0 < size.toNat)
    (hmost : size.toNat ≤ 2 ^ 30) :
    ∃ r, configureRegion base size a = some (some r) ∧ r.Covers base size := by
  obtain ⟨m, hm, hleast, hle, hroom⟩ := mpuSize_eq hmost
  obtain ⟨hsub, hlength⟩ := subSize_eq hleast
  have hne : size ≠ 0#32 := fun hzero => absurd hpos (by rw [hzero]; exact Nat.not_lt_zero 0)
  have hsubpos : 0 < 2 ^ (m - 2) := Nat.two_pow_pos _
  have hsublarge : 2 ^ (m - 2) ≤ 2 ^ 27 := Nat.pow_le_pow_right Nat.two_pos (by omega)
  obtain ⟨hcover, hpast⟩ := neededSubs_spec hsubpos hpos
  have hneeded : (size.toNat + 2 ^ (m - 2) - 1) / 2 ^ (m - 2) ≤ 8 := by
    rw [Nat.div_le_iff_le_mul_add_pred hsubpos]
    omega
  have hshift : shl 1 (m + 1) = some (2 ^ (m + 1)) := by
    have hfits : 1 * 2 ^ (m + 1) < 2 ^ 31 := by omega
    rw [shl_eq (by omega) hfits, Nat.one_mul]
  generalize hn : (size.toNat + 2 ^ (m - 2) - 1) / 2 ^ (m - 2) = n at hcover hpast hneeded
  have hsum : fit 32 (size.toNat + 2 ^ (m - 2)) = some (size.toNat + 2 ^ (m - 2)) := fit_eq (by omega)
  have hcount : fit 8 n = some n := fit_eq (by omega)
  have hmask : shl 0xFF n = some (0xFF * 2 ^ n) := by
    have hpow : 2 ^ n ≤ 2 ^ 8 := Nat.pow_le_pow_right Nat.two_pos hneeded
    exact shl_eq (by omega) (by omega)
  refine ⟨initStruct base a m (0xFF * 2 ^ n % 2 ^ 8), ?_, covers_of_parts rfl rfl hneeded ?_ ?_⟩
  · rw [configureRegion, if_neg hne, hm]
    simp only [Option.bind_eq_bind, Option.bind_some, hshift, hsub, hsum, hn, hcount, hmask]
    rfl
  · change size.toNat ≤ n * (2 ^ (m + 1) / 8)
    rw [hsub]
    exact hcover
  · change n * (2 ^ (m + 1) / 8) < size.toNat + 2 ^ (m + 1) / 8
    rw [hsub]
    exact hpast

/-- A size between two eighths of the region. -/
theorem configureRegion_covers_unaligned :
    ∃ r, configureRegion 0x38000000#32 1300#32 ⟨6, 1, 3, 1, 1, 0, 0⟩ = some (some r) ∧
      r.Covers 0x38000000#32 1300#32 :=
  configureRegion_covers _ _ _ (by decide) (by decide)

end StLib.Mpu.Regions
