import StLib.Base.Runs
import StLib.Dfsdm.Registers

/-! # A filter that is modified at run time

`modify_oversampling`, `modify_integrator` and `modify_filter_order` of a channel, in any order,
on the two registers of its filter that they read and write. -/
namespace StLib.Dfsdm.Modification

open StLib.Base.RegisterBits StLib.Base.BitSlots StLib.Base.Runs
open Model Registers

structure FilterRegisters where
  fltcr1 : Word
  fltfcr : Word

/-- `DFSDM_FLTCR1_DFEN`. -/
def dfen : Word := bit 0

namespace FilterRegisters

def isEnabledFilter (r : FilterRegisters) : Bool := r.fltcr1 &&& dfen ≠ 0

def enableFilter (r : FilterRegisters) : FilterRegisters := { r with fltcr1 := setBit r.fltcr1 dfen }

def disableFilter (r : FilterRegisters) : FilterRegisters := { r with fltcr1 := clearBit r.fltcr1 dfen }

/-- A field of `FLTFCR` is replaced while the filter is disabled. -/
def program (field : Slot 32) (value : Word) (r : FilterRegisters) : FilterRegisters :=
  let wasEnabledFilter := r.isEnabledFilter
  let r := if wasEnabledFilter then r.disableFilter else r
  let r := { r with fltfcr := field.replace value r.fltfcr }
  if wasEnabledFilter then r.enableFilter else r

end FilterRegisters

open FilterRegisters

def modifyOversampling (oversampling : BitVec 16) (r : FilterRegisters) : Bool × FilterRegisters :=
  if oversampling = 0 then (false, r)
  else
    let order := (r.fltfcr &&& ford.mask) >>> ford.pos
    if order ≤ 3 ∧ oversampling.toNat > oversamplingMax then (false, r)
    else if order = 4 ∧ oversampling.toNat > oversamplingMaxFilter4 then (false, r)
    else if order = 5 ∧ oversampling.toNat > oversamplingMaxFilter5 then (false, r)
    else (true, r.program fosr (oversampling.setWidth 32 - 1))

def modifyIntegrator (integrator : BitVec 8) (r : FilterRegisters) : Bool × FilterRegisters :=
  if integrator = 0 ∨ integrator.toNat > 256 then (false, r)
  else (true, r.program iosr (integrator.setWidth 32 - 1))

/-- The field is compared, which is one less than the oversampling. -/
def modifyFilterOrder (type : FilterType) (r : FilterRegisters) : Bool × FilterRegisters :=
  let oversampling := (r.fltfcr &&& fosr.mask) >>> fosr.pos
  if type = .sinc4 ∧ oversampling.toNat > oversamplingMaxFilter4 then (false, r)
  else if type = .sinc5 ∧ oversampling.toNat > oversamplingMaxFilter5 then (false, r)
  else (true, r.program ford type.code)

inductive Call
  | modifyOversampling (oversampling : BitVec 16)
  | modifyIntegrator (integrator : BitVec 8)
  | modifyFilterOrder (type : FilterType)

def Call.perform : Call → FilterRegisters → Bool × FilterRegisters
  | .modifyOversampling oversampling => Modification.modifyOversampling oversampling
  | .modifyIntegrator integrator => Modification.modifyIntegrator integrator
  | .modifyFilterOrder type => Modification.modifyFilterOrder type

/-- The registers after a call. -/
def Step (r : FilterRegisters) (call : Call) (r' : FilterRegisters) : Prop := (call.perform r).2 = r'

/-- A filter with the order, the oversampling and the integrator of an entry, whatever its control register. -/
def configured (e : Entry) (fltcr1 : Word) : FilterRegisters := { fltcr1, fltfcr := makeFltfcr e }

/-! ## What a call has to do -/

/-- The order and the oversampling that are programmed. -/
def Legal (r : FilterRegisters) : Prop :=
  ∃ order : FilterType, (ford.read r.fltfcr).toNat = order.code.toNat ∧
    isCorrectOversampling order ((fosr.read r.fltfcr).toNat + 1) = true

/-- The field that a call is for. -/
def Call.field : Call → Slot 32
  | .modifyOversampling _ => fosr
  | .modifyIntegrator _ => iosr
  | .modifyFilterOrder _ => ford

/-- The field of a call has the value of its argument. -/
def Call.Programmed (fltfcr : Word) : Call → Prop
  | .modifyOversampling oversampling => (fosr.read fltfcr).toNat + 1 = oversampling.toNat
  | .modifyIntegrator integrator => (iosr.read fltfcr).toNat + 1 = integrator.toNat
  | .modifyFilterOrder type => (ford.read fltfcr).toNat = type.code.toNat

structure Right (r : FilterRegisters) (call : Call) : Prop where
  legal : Legal (call.perform r).2
  refused : (call.perform r).1 = false → (call.perform r).2 = r
  programmed : (call.perform r).1 = true → call.Programmed (call.perform r).2.fltfcr
  others : (call.perform r).1 = true → ∀ k, ¬ call.field.Covers k →
    (call.perform r).2.fltfcr.getLsbD k = r.fltfcr.getLsbD k
  control : (call.perform r).2.fltcr1 = r.fltcr1
  enabled : (call.perform r).2.isEnabledFilter = r.isEnabledFilter

/-- The order is not raised where the oversampling is one above the limit of the new order. -/
def Meets (r : FilterRegisters) : Call → Prop
  | .modifyFilterOrder .sinc4 => (fosr.read r.fltfcr).toNat + 1 ≠ oversamplingMaxFilter4 + 1
  | .modifyFilterOrder .sinc5 => (fosr.read r.fltfcr).toNat + 1 ≠ oversamplingMaxFilter5 + 1
  | _ => True

/-! ## What a call does -/

variable {r : FilterRegisters}

/-- Disabling and enabling again leaves the control register as it is. -/
theorem program_eq (field : Slot 32) (value : Word) (r : FilterRegisters) :
    r.program field value = { r with fltfcr := field.replace value r.fltfcr } := by
  unfold program
  cases henabled : r.isEnabledFilter with
  | false => rfl
  | true =>
    have hdfen : r.fltcr1 &&& dfen ≠ 0 := of_decide_eq_true henabled
    simp only [enableFilter, disableFilter, if_true, dfen, setBit_clearBit (by decide) hdfen]

/-- The limit of an order. -/
def limit : FilterType → Nat
  | .fastSinc | .sinc1 | .sinc2 | .sinc3 => oversamplingMax
  | .sinc4 => oversamplingMaxFilter4
  | .sinc5 => oversamplingMaxFilter5

theorem isCorrectOversampling_iff (order : FilterType) (osr : Nat) :
    isCorrectOversampling order osr = true ↔ 1 ≤ osr ∧ osr ≤ limit order := by
  cases order <;> exact decide_eq_true_iff

theorem code_injective {order type : FilterType} (h : order.code.toNat = type.code.toNat) : order = type := by
  cases order <;> cases type <;> first | rfl | exact absurd h (by decide)

/-- A call that programs a small value in its field. -/
theorem right_of_program {call : Call} (value : Word) (hvalue : value.toNat < 2 ^ call.field.width)
    (hperform : call.perform r = (true, r.program call.field value))
    (hlegal : Legal (r.program call.field value))
    (hprogrammed : call.Programmed (r.program call.field value).fltfcr) : Right r call := by
  have heq := program_eq call.field value r
  refine ⟨?_, ?_, ?_, ?_, ?_, ?_⟩
  · rw [hperform]
    exact hlegal
  · rw [hperform]
    exact nofun
  · rw [hperform]
    exact fun _ => hprogrammed
  · intro _ k hk
    rw [hperform, heq]
    exact Slot.getLsbD_replace_outside hvalue _ hk
  · rw [hperform, heq]
  · rw [hperform, heq]
    rfl

theorem right_of_refused {call : Call} (hlegal : Legal r) (hperform : call.perform r = (false, r)) :
    Right r call := by
  refine ⟨?_, ?_, ?_, ?_, ?_, ?_⟩ <;> rw [hperform]
  · exact hlegal
  · exact fun _ => rfl
  · exact nofun
  · exact nofun

theorem read_program {field : Slot 32} {value : Word} (h : value.toNat < 2 ^ field.width) (r : FilterRegisters) :
    (field.read (r.program field value).fltfcr).toNat = value.toNat := by
  rw [program_eq, Slot.read_replace h, BitVec.toNat_setWidth, Nat.mod_eq_of_lt h]

theorem read_program_apart {field other : Slot 32} (hapart : other.Apart field) {value : Word}
    (h : value.toNat < 2 ^ field.width) (r : FilterRegisters) :
    (other.read (r.program field value).fltfcr).toNat = (other.read r.fltfcr).toNat := by
  rw [program_eq, Slot.read_replace_apart hapart h]

theorem toNat_masked (field : Slot 32) (x : Word) :
    ((x &&& field.mask) >>> field.pos).toNat = (field.read x).toNat := by
  have hlt : (field.read x).toNat < 2 ^ 32 :=
    Nat.lt_of_lt_of_le (field.read x).isLt (Nat.pow_le_pow_right Nat.two_pos (by have := field.fits; omega))
  rw [Slot.and_mask_ushiftRight, BitVec.toNat_setWidth, Nat.mod_eq_of_lt hlt]

/-! ## The calls -/

/-- The three checks of the oversampling are one, for the order that is programmed. -/
theorem exceeds_iff (order : FilterType) (osr : Nat) :
    (order.code ≤ 3 ∧ osr > oversamplingMax) ∨ (order.code = 4 ∧ osr > oversamplingMaxFilter4) ∨
      (order.code = 5 ∧ osr > oversamplingMaxFilter5) ↔ limit order < osr := by
  cases order <;> simp [FilterType.code, limit]

theorem modifyOversampling_eq {order : FilterType} (horder : (ford.read r.fltfcr).toNat = order.code.toNat)
    (oversampling : BitVec 16) :
    modifyOversampling oversampling r =
      if isCorrectOversampling order oversampling.toNat then
        (true, r.program fosr (oversampling.setWidth 32 - 1))
      else (false, r) := by
  have hword : (r.fltfcr &&& ford.mask) >>> ford.pos = order.code :=
    BitVec.eq_of_toNat_eq ((toNat_masked ford r.fltfcr).trans horder)
  have hzero : oversampling = 0 ↔ oversampling.toNat = 0 := BitVec.toNat_inj.symm
  have hexceeds := exceeds_iff order oversampling.toNat
  unfold modifyOversampling
  simp only [hword, hzero, isCorrectOversampling_iff]
  by_cases hone : oversampling.toNat = 0
  · rw [if_pos hone, if_neg (by omega)]
  · rw [if_neg hone]
    by_cases hlimit : limit order < oversampling.toNat
    · rw [if_neg (by omega : ¬ (1 ≤ oversampling.toNat ∧ oversampling.toNat ≤ limit order))]
      rcases hexceeds.mpr hlimit with h | h | h
      · rw [if_pos h]
      · rw [if_pos h, ite_self]
      · rw [if_pos h, ite_self, ite_self]
    · obtain ⟨hlow, hhigh⟩ := not_or.mp (mt hexceeds.mp hlimit)
      obtain ⟨hsinc4, hsinc5⟩ := not_or.mp hhigh
      rw [if_neg hlow, if_neg hsinc4, if_neg hsinc5, if_pos (by omega)]

theorem modifyOversampling_right (hlegal : Legal r) (oversampling : BitVec 16) :
    Right r (.modifyOversampling oversampling) := by
  have ⟨order, horder, _⟩ := hlegal
  have heq := modifyOversampling_eq horder oversampling
  by_cases hcorrect : isCorrectOversampling order oversampling.toNat = true
  · rw [if_pos hcorrect] at heq
    obtain ⟨hvalue, hsmall⟩ := oversampling_value hcorrect
    have hread : (fosr.read (r.program fosr (oversampling.setWidth 32 - 1)).fltfcr).toNat + 1 =
        oversampling.toNat := by
      rw [read_program hsmall, hvalue]
    refine right_of_program (oversampling.setWidth 32 - 1) hsmall heq ⟨order, ?_, ?_⟩ hread
    · exact (read_program_apart (by decide : ford.Apart fosr) hsmall r).trans horder
    · rw [Call.field, hread]
      exact hcorrect
  · rw [if_neg hcorrect] at heq
    exact right_of_refused hlegal heq

theorem modifyIntegrator_right (hlegal : Legal r) (integrator : BitVec 8) :
    Right r (.modifyIntegrator integrator) := by
  have ⟨order, horder, hcorrect⟩ := hlegal
  by_cases hzero : integrator = 0 ∨ integrator.toNat > 256
  · exact right_of_refused hlegal (if_pos hzero)
  · have hpos : 1 ≤ integrator.toNat :=
      Nat.one_le_iff_ne_zero.mpr fun h => hzero (Or.inl (BitVec.eq_of_toNat_eq h))
    have hvalue := toNat_sub_one (by decide) hpos
    have hsmall : (integrator.setWidth 32 - 1).toNat < 2 ^ iosr.width := by
      rw [hvalue]
      exact Nat.lt_of_le_of_lt (Nat.sub_le _ _) integrator.isLt
    refine right_of_program (integrator.setWidth 32 - 1) hsmall (if_neg hzero) ⟨order, ?_, ?_⟩ ?_
    · exact (read_program_apart (by decide : ford.Apart iosr) hsmall r).trans horder
    · rw [Call.field, read_program_apart (by decide : fosr.Apart iosr) hsmall]
      exact hcorrect
    · rw [Call.Programmed, Call.field, read_program hsmall, hvalue]
      exact Nat.sub_add_cancel hpos

/-- What the comparison of the field lets pass: one more than what is legal. -/
theorem modifyFilterOrder_eq (type : FilterType) (r : FilterRegisters) :
    modifyFilterOrder type r =
      if (fosr.read r.fltfcr).toNat ≤ limit type then (true, r.program ford type.code) else (false, r) := by
  have hfield : (fosr.read r.fltfcr).toNat < oversamplingMax := (fosr.read r.fltfcr).isLt
  unfold modifyFilterOrder
  simp only [toNat_masked]
  cases type with
  | fastSinc | sinc1 | sinc2 | sinc3 => simp [limit, Nat.le_of_lt hfield]
  | sinc4 | sinc5 =>
    simp only [limit]
    grind

theorem meets_modifyFilterOrder (type : FilterType) (r : FilterRegisters) :
    Meets r (.modifyFilterOrder type) ↔ (fosr.read r.fltfcr).toNat ≠ limit type := by
  have hfield : (fosr.read r.fltfcr).toNat < oversamplingMax := (fosr.read r.fltfcr).isLt
  cases type with
  | fastSinc | sinc1 | sinc2 | sinc3 => exact iff_of_true trivial (Nat.ne_of_lt hfield)
  | sinc4 | sinc5 => exact not_congr Nat.add_right_cancel_iff

theorem modifyFilterOrder_right (hlegal : Legal r) (type : FilterType) :
    Right r (.modifyFilterOrder type) ↔ Meets r (.modifyFilterOrder type) := by
  have heq := modifyFilterOrder_eq type r
  have hsmall := order_lt type
  have horder := read_program hsmall r
  have hkept := read_program_apart (by decide : fosr.Apart ford) hsmall r
  rw [meets_modifyFilterOrder]
  by_cases hlimit : (fosr.read r.fltfcr).toNat ≤ limit type
  · rw [if_pos hlimit] at heq
    constructor
    · intro hright hat
      obtain ⟨order, hcode, hcorrect⟩ := hright.legal
      rw [Call.perform, heq] at hcode hcorrect
      rw [code_injective (hcode.symm.trans horder), hkept, hat, isCorrectOversampling_iff] at hcorrect
      exact Nat.not_succ_le_self _ hcorrect.2
    · intro hne
      refine right_of_program type.code hsmall heq ⟨type, horder, ?_⟩ horder
      rw [Call.field, hkept, isCorrectOversampling_iff]
      exact ⟨Nat.le_add_left _ _, Nat.lt_of_le_of_ne hlimit hne⟩
  · rw [if_neg hlimit] at heq
    exact iff_of_true (right_of_refused hlegal heq) (Nat.ne_of_gt (Nat.not_le.mp hlimit))

theorem right_iff (hlegal : Legal r) (call : Call) : Right r call ↔ Meets r call := by
  cases call with
  | modifyOversampling oversampling => exact iff_of_true (modifyOversampling_right hlegal oversampling) trivial
  | modifyIntegrator integrator => exact iff_of_true (modifyIntegrator_right hlegal integrator) trivial
  | modifyFilterOrder type => exact modifyFilterOrder_right hlegal type

/-! ## Every run -/

/-- `IOSR` with the reserved bits above, where an integrator of the configuration ends. -/
def integratorBits : Slot 32 := { pos := 0, width := 16 }

def configuredFields (e : Entry) : List (Field 32) :=
  [⟨ford, e.configFilter.filterType.code⟩, ⟨fosr, e.configFilter.oversampling.setWidth 32 - 1⟩,
    ⟨integratorBits, e.configFilter.integrator.setWidth 32 - 1⟩]

/-- An accepted configuration is legal, also where its integrator is too large for its field. -/
theorem configured_legal {c : ConfigChannel} {e : Entry} (h : check c e.configFilter = .ok ()) (fltcr1 : Word) :
    Legal (configured e fltcr1) := by
  have haccepted := accepted_of_check h
  obtain ⟨hosr, hsmallOsr⟩ := oversampling_value haccepted.oversampling
  have hint := toNat_sub_one (by decide) haccepted.integrator
  have hsmall : ∀ f ∈ configuredFields e, f.Small := by
    have hbits : (e.configFilter.integrator.setWidth 32 - 1).toNat < 2 ^ 16 := by
      rw [hint]
      exact Nat.lt_of_le_of_lt (Nat.sub_le _ _) e.configFilter.integrator.isLt
    simp only [configuredFields, List.forall_mem_cons]
    exact ⟨order_lt _, hsmallOsr, hbits, fun _ hf => absurd hf List.not_mem_nil⟩
  have heq : makeFltfcr e = pack (configuredFields e) := by
    simp [makeFltfcr, pack, configuredFields, ford, fosr, integratorBits, BitVec.or_assoc]
  obtain ⟨hread, -⟩ := pack_spec heq hsmall (by decide : [ford, fosr, integratorBits].Pairwise Slot.Apart)
  simp only [configuredFields, List.forall_mem_cons] at hread
  obtain ⟨horder, hfosr, -⟩ := hread
  refine ⟨e.configFilter.filterType, horder, ?_⟩
  rw [configured, hfosr, hosr]
  exact haccepted.oversampling

/-- **Modification of a filter.** All the calls of a run are right exactly when they all meet the
condition: the order is compared with the field, which is one less than the oversampling. -/
theorem modification_right_iff {c : ConfigChannel} {e : Entry} (h : check c e.configFilter = .ok ())
    (fltcr1 : Word) (calls : List Call) (r : FilterRegisters) :
    Run Step Right (configured e fltcr1) calls r ↔ Run Step Meets (configured e fltcr1) calls r := by
  refine Run.congr (configured_legal h fltcr1) ?_ ?_
  · intro before call after _ hright hstep
    exact hstep ▸ hright.legal
  · intro before call after hlegal _
    exact right_iff hlegal call

/-- Sinc1 with an oversampling that is one above the limit of Sinc4. -/
def boundaryEntry : Entry where
  configFilter := { filterType := .sinc1, oversampling := 216 }
  channel := 0
  bufferSize := 1
  fits := one_lt_sizeLimit

theorem modification_right_iff_boundary :
    Run Step Right (configured boundaryEntry 1) [.modifyOversampling 215, .modifyFilterOrder .sinc4]
      ⟨1, 0x80D60000⟩ := by
  refine (modification_right_iff (c := {}) rfl 1 _ _).mpr ?_
  exact Run.cons trivial rfl (Run.single (by unfold Meets; decide) rfl)

/-- Sinc4 is accepted over an oversampling of 216. -/
theorem order_over_limit :
    check {} boundaryEntry.configFilter = .ok () ∧
      ∃ r, Run Step (fun _ _ => True) (configured boundaryEntry 1) [.modifyFilterOrder .sinc4] r ∧ ¬ Legal r := by
  refine ⟨rfl, _, Run.single trivial rfl, fun ⟨order, horder, hcorrect⟩ => ?_⟩
  have hsinc4 : order = .sinc4 := code_injective (horder.symm.trans (by decide))
  rw [hsinc4] at hcorrect
  exact absurd hcorrect (by decide)

end StLib.Dfsdm.Modification
