import StLib.Base.RegisterEdits
import StLib.Timers.Clocks

/-! # The registers of the channels

`config_output_compare_channel`, `config_input_compare_channel` and
`set_output_compare_preload_enable` of `TimerWrapper`. Channel 1 is number 0. -/
namespace StLib.Timers.ChannelRegisters

open StLib.Base.RegisterBits StLib.Base.RegisterEdits
open Model Clocks

inductive Register
  | ccmr (i : Fin 3)
  | ccer
  | cr2
  | ccr (i : Fin 6)
deriving DecidableEq

abbrev Registers := Register → BitVec 32

/-- The header of the device, or the mock of it, in which a mode has three bits. -/
inductive Header
  | device
  | mock

/-! ## Masks -/

/-- `TIM_CCER_CCxE`. -/
def ccE (ch : Fin 6) : BitVec 32 := bit (4 * ch)

/-- `TIM_CCER_CCxP`. -/
def ccP (ch : Fin 6) : BitVec 32 := bit (4 * ch + 1)

/-- `TIM_CCER_CCxNE`. -/
def ccNE (ch : Fin 6) : BitVec 32 := bit (4 * ch + 2)

/-- `TIM_CCER_CCxNP`. -/
def ccNP (ch : Fin 6) : BitVec 32 := bit (4 * ch + 3)

/-- `TIM_CR2_OISx`. -/
def ois (ch : Fin 6) : BitVec 32 := bit (8 + 2 * ch)

/-- `TIM_CR2_OISxN`. -/
def oisN (ch : Fin 6) : BitVec 32 := bit (9 + 2 * ch)

/-- `TIM_CCMRx` of a channel. -/
def modeRegister (ch : Fin 6) : Fin 3 := ⟨ch / 2, by omega⟩

/-- Two channels share a mode register. -/
def modeShift (ch : Fin 6) : Nat := 8 * (ch % 2)

/-- `OCxM`. -/
def ocM (header : Header) (ch : Fin 6) : BitVec 32 :=
  match header with
  | .device => 0x10070#32 <<< modeShift ch
  | .mock => 0x70#32 <<< modeShift ch

/-- `CCxS`. -/
def ccS (ch : Fin 6) : BitVec 32 := 0x3#32 <<< modeShift ch

/-- `OCxPE`. -/
def ocPE (ch : Fin 6) : BitVec 32 := 0x8#32 <<< modeShift ch

/-- `ICxF`. -/
def icF (ch : Fin 6) : BitVec 32 := 0xF0#32 <<< modeShift ch

/-- `ICxPSC`. -/
def icPSC (ch : Fin 6) : BitVec 32 := 0xC#32 <<< modeShift ch

/-! ## Output compare -/

/-- `TIM_OC_InitTypeDef`, of which `OCFastMode` is not used. -/
structure OcInit where
  ocMode : BitVec 32
  pulse : BitVec 32
  ocPolarity : BitVec 32
  ocnPolarity : BitVec 32
  ocIdleState : BitVec 32
  ocnIdleState : BitVec 32

def isCcxnInstance (e : Entry) (ch : Fin 6) : Bool :=
  if [1#8, 8#8].contains e.request then [0, 1, 2].contains ch
  else if [15#8, 16#8, 17#8].contains e.request then ch = 0
  else false

/-- What is done to `tmpccmrx`. -/
def outputMode (header : Header) (mode : BitVec 32) : Fin 6 → List (Edit 32)
  | 0 => [.clear (ocM header 0), .clear (ccS 0), .set mode]
  | 1 => [.clear (ocM header 1), .clear (ccS 1), .set (mode <<< 8)]
  | 2 => [.clear (ocM header 2), .clear (ccS 2), .set mode]
  | 3 => [.clear (ocM header 3), .clear (ccS 3), .set (mode <<< 8)]
  | 4 => [.clear (ocM header 4), .set mode]
  | 5 => [.clear (ocM header 5), .set mode]

/-- What is done to `tmpccer`. -/
def outputPolarity (polarity : BitVec 32) : Fin 6 → List (Edit 32)
  | 0 => [.clear (ccP 0), .set polarity]
  | 1 => [.clear (ccP 1), .set (polarity <<< 4)]
  | 2 => [.clear (ccP 2), .set (polarity <<< 8)]
  | 3 => [.clear (ccP 3), .set (polarity <<< 12)]
  | 4 => [.clear (ccP 4), .set (polarity <<< 16)]
  | 5 => [.clear (ccP 5), .set (polarity <<< 20)]

/-- What is done to `tmpccer` for the negated output. -/
def negatedPolarity (polarity : BitVec 32) : Fin 6 → List (Edit 32)
  | 0 => [.clear (ccNP 0), .set polarity, .clear (ccNE 0)]
  | 1 => [.clear (ccNP 1), .set (polarity <<< 4), .clear (ccNE 1)]
  | 2 => [.clear (ccNP 2), .set (polarity <<< 8), .clear (ccNE 2)]
  | _ => []

/-- What is done to `tmpcr2`. -/
def idleStates (negated idle : BitVec 32) : Fin 6 → List (Edit 32)
  | 0 => [.clear (ois 0), .clear (oisN 0), .set negated, .set idle]
  | 1 => [.clear (ois 1), .clear (oisN 1), .set (negated <<< 2), .set (idle <<< 2)]
  | 2 => [.clear (ois 2), .clear (oisN 2), .set (negated <<< 4), .set (idle <<< 4)]
  | 3 => [.clear (ois 3), .set (idle <<< 6)]
  | 4 => [.clear (ois 4), .set (idle <<< 8)]
  | 5 => [.clear (ois 5), .set (idle <<< 10)]

/-- `config_output_compare_channel`. -/
def configOutputCompareChannel (header : Header) (e : Entry) (ch : Fin 6) (config : OcInit)
    (tim : Registers) : Registers :=
  let tmpccer := tim .ccer
  let tmpcr2 := tim .cr2
  let tmpccmrx := tim (.ccmr (modeRegister ch))
  let tim := Function.update tim .ccer (clearBit (tim .ccer) (ccE ch))
  let tmpccmrx := edit (outputMode header config.ocMode ch) tmpccmrx
  let tmpccer := edit (outputPolarity config.ocPolarity ch) tmpccer
  let tmpccer := if isCcxnInstance e ch then edit (negatedPolarity config.ocnPolarity ch) tmpccer else tmpccer
  let tmpcr2 :=
    if isBreakInstance e then edit (idleStates config.ocnIdleState config.ocIdleState ch) tmpcr2 else tmpcr2
  let tim := Function.update tim .cr2 tmpcr2
  let tim := Function.update tim (.ccmr (modeRegister ch)) tmpccmrx
  let tim := Function.update tim (.ccr ch) config.pulse
  Function.update tim .ccer tmpccer

/-! ## Input compare -/

/-- `TIM_IC_InitTypeDef`. -/
structure IcInit where
  icPolarity : BitVec 32
  icSelection : BitVec 32
  icPrescaler : BitVec 32
  icFilter : BitVec 32

def isCc2Instance (e : Entry) : Bool :=
  [1#8, 2#8, 3#8, 4#8, 5#8, 8#8, 12#8, 15#8, 23#8, 24#8].contains e.request

/-- What is done to `tmpccmrx`. -/
def inputMode (cc2 : Bool) (config : IcInit) : Fin 4 → List (Edit 32)
  | 0 =>
    (if cc2 then [.clear (ccS 0), .set config.icSelection] else [.set 1]) ++
      [.clear (icF 0), .set (config.icFilter <<< 4 &&& icF 0),
        .clear (icPSC 0), .set (config.icPrescaler &&& icPSC 0)]
  | 1 => [.clear (ccS 1), .set (config.icSelection <<< 8),
      .clear (icF 1), .set (config.icFilter <<< 12 &&& icF 1),
      .clear (icPSC 1), .set (config.icPrescaler <<< 8 &&& icPSC 1)]
  | 2 => [.clear (ccS 2), .set config.icSelection,
      .clear (icF 2), .set (config.icFilter <<< 4 &&& icF 2),
      .clear (icPSC 2), .set (config.icPrescaler &&& icPSC 2)]
  | 3 => [.clear (ccS 3), .set (config.icSelection <<< 8),
      .clear (icF 3), .set (config.icFilter <<< 12 &&& icF 3),
      .clear (icPSC 3), .set (config.icPrescaler <<< 8 &&& icPSC 3)]

/-- What is done to `tmpccer`. -/
def inputPolarity (polarity : BitVec 32) : Fin 4 → List (Edit 32)
  | 0 => [.clear (ccE 0), .clear (ccP 0 ||| ccNP 0), .set (polarity &&& (ccP 0 ||| ccNP 0))]
  | 1 => [.clear (ccE 1), .clear (ccP 1 ||| ccNP 1), .set (polarity <<< 4 &&& (ccP 1 ||| ccNP 1))]
  | 2 => [.clear (ccE 2), .clear (ccP 2 ||| ccNP 2), .set (polarity <<< 8 &&& (ccP 2 ||| ccNP 2))]
  | 3 => [.clear (ccE 3), .clear (ccP 3 ||| ccNP 3), .set (polarity <<< 12 &&& (ccP 3 ||| ccNP 3))]

/-- Only channels 1 to 4 can be inputs. -/
def inputChannel (ch : Fin 4) : Fin 6 := ch.castLE (by decide)

/-- `config_input_compare_channel`. -/
def configInputCompareChannel (e : Entry) (ch : Fin 4) (config : IcInit) (tim : Registers) : Registers :=
  let tmpccer := tim .ccer
  let tmpccmrx := tim (.ccmr (modeRegister (inputChannel ch)))
  let tmpccer := edit (inputPolarity config.icPolarity ch) tmpccer
  let tmpccmrx := edit (inputMode (isCc2Instance e) config ch) tmpccmrx
  let tim := Function.update tim (.ccmr (modeRegister (inputChannel ch))) tmpccmrx
  Function.update tim .ccer tmpccer

/-- `set_output_compare_preload_enable`, with a negated channel in the branch of its channel. -/
def setOutputComparePreloadEnable (ch : Fin 6) (tim : Registers) : Registers :=
  Function.update tim (.ccmr (modeRegister ch)) (setBit (tim (.ccmr (modeRegister ch))) (ocPE ch))

/-! ## Configurations -/

inductive Configuration
  | output (ch : Fin 6) (config : OcInit)
  | input (ch : Fin 4) (config : IcInit)
  | preload (ch : Fin 6)

namespace Configuration

def channel : Configuration → Fin 6
  | output ch _ => ch
  | input ch _ => inputChannel ch
  | preload ch => ch

def run (header : Header) (e : Entry) : Configuration → Registers → Registers
  | output ch config => configOutputCompareChannel header e ch config
  | input ch config => configInputCompareChannel e ch config
  | preload ch => setOutputComparePreloadEnable ch

end Configuration

/-- `IS_TIM_OC_MODE` and `IS_TIM_PWM_MODE`. -/
def ocModes : Header → List (BitVec 32)
  | .device => [0, 0x10, 0x20, 0x30, 0x60, 0x70, 0x50, 0x40, 0x10000, 0x10010, 0x10040, 0x10050, 0x10060, 0x10070]
  | .mock => [0, 0x10, 0x20, 0x30, 0x60, 0x70, 0x50, 0x40]

/-- What the `IS_TIM_` macros of the HAL admit. -/
structure OcInit.Legal (header : Header) (config : OcInit) : Prop where
  ocMode : config.ocMode ∈ ocModes header
  ocPolarity : config.ocPolarity ∈ [0, ccP 0]
  ocnPolarity : config.ocnPolarity ∈ [0, ccNP 0]
  ocIdleState : config.ocIdleState ∈ [0, ois 0]
  ocnIdleState : config.ocnIdleState ∈ [0, oisN 0]

structure IcInit.Legal (config : IcInit) : Prop where
  icPolarity : config.icPolarity ∈ [0, ccP 0, ccP 0 ||| ccNP 0]
  icSelection : config.icSelection ∈ [1, 2, 3]
  icPrescaler : config.icPrescaler ∈ [0, 0x4, 0x8, 0xC]
  icFilter : config.icFilter.toNat ≤ 0xF

def Configuration.Legal (header : Header) : Configuration → Prop
  | output _ config => config.Legal header
  | input _ config => config.Legal
  | preload _ => True

/-- The bits of a register that belong to a channel. -/
def owned (ch : Fin 6) : Register → BitVec 32
  | .ccmr i => if i = modeRegister ch then 0x100FF#32 <<< modeShift ch else 0
  | .ccer => 0xF#32 <<< (4 * ch.val)
  | .cr2 => if ch < 3 then ois ch ||| oisN ch else ois ch
  | .ccr i => if i = ch then BitVec.allOnes 32 else 0

/-- A configuration changes only bits that belong to its channel. -/
def Local (header : Header) (e : Entry) (c : Configuration) (tim : Registers) : Prop :=
  ∀ r, c.run header e tim r &&& ~~~owned c.channel r = tim r &&& ~~~owned c.channel r

/-- The order of two configurations does not matter. -/
def Commute (header : Header) (e : Entry) (a b : Configuration) (tim : Registers) : Prop :=
  a.run header e (b.run header e tim) = b.run header e (a.run header e tim)

/-- The mode of channel 6 goes to the bits of channel 5, and has to be there already. -/
def Already (tim : Registers) : Configuration → Prop
  | .output ch config => ch = 5 → Inside config.ocMode (tim (.ccmr 2))
  | _ => True

/-- The mode of channel 6 has no bits but those of the mode of channel 5. -/
def Apart : Configuration → Configuration → Prop
  | .output ch config, .output ch' config' =>
    (ch = 4 → ch' = 5 → Inside config'.ocMode config.ocMode) ∧
      (ch = 5 → ch' = 4 → Inside config.ocMode config'.ocMode)
  | _, _ => True

/-! ## Configurations as edits -/

variable {header : Header} {e : Entry}

/-- What a configuration does to a register. -/
def Configuration.edits (header : Header) (e : Entry) : Configuration → Register → List (Edit 32)
  | output ch config, .ccmr i => if i = modeRegister ch then outputMode header config.ocMode ch else []
  | output ch config, .ccer => outputPolarity config.ocPolarity ch ++
      if isCcxnInstance e ch then negatedPolarity config.ocnPolarity ch else []
  | output ch config, .cr2 =>
    if isBreakInstance e then idleStates config.ocnIdleState config.ocIdleState ch else []
  | output ch config, .ccr i => if i = ch then [.write config.pulse] else []
  | input ch config, .ccmr i =>
    if i = modeRegister (inputChannel ch) then inputMode (isCc2Instance e) config ch else []
  | input ch config, .ccer => inputPolarity config.icPolarity ch
  | preload ch, .ccmr i => if i = modeRegister ch then [.set (ocPE ch)] else []
  | _, _ => []

/-- A copy of a register is edited and written back. -/
theorem update_ccmr {tim tim' : Registers} {i : Fin 3} (h : tim' (.ccmr i) = tim (.ccmr i)) (j : Fin 3)
    (edits : List (Edit 32)) :
    Function.update tim' (.ccmr j) (edit edits (tim (.ccmr j))) (.ccmr i) =
      edit (if i = j then edits else []) (tim (.ccmr i)) := by
  split
  · rename_i heq
    rw [heq, Function.update_self]
  · rename_i hne
    exact (Function.update_of_ne (fun heq => hne (Register.ccmr.inj heq)) _ _).trans h

theorem run_output (ch : Fin 6) (config : OcInit) (tim : Registers) (r : Register) :
    configOutputCompareChannel header e ch config tim r =
      edit ((Configuration.output ch config).edits header e r) (tim r) := by
  unfold configOutputCompareChannel
  cases r with
  | ccmr i =>
    rw [Function.update_of_ne (by simp), Function.update_of_ne (by simp)]
    exact update_ccmr (by rw [Function.update_of_ne (by simp), Function.update_of_ne (by simp)]) ..
  | ccer =>
    rw [Function.update_self, Configuration.edits, edit_append]
    split
    · rfl
    · rfl
  | cr2 =>
    rw [Function.update_of_ne (by simp), Function.update_of_ne (by simp), Function.update_of_ne (by simp),
      Function.update_self, Configuration.edits]
    split
    · rfl
    · rfl
  | ccr i =>
    rw [Function.update_of_ne (by simp), Configuration.edits]
    by_cases hi : i = ch
    · rw [hi, Function.update_self, if_pos rfl]
      rfl
    · have hne : Register.ccr i ≠ .ccr ch := fun heq => hi (Register.ccr.inj heq)
      rw [Function.update_of_ne hne, Function.update_of_ne (by simp), Function.update_of_ne (by simp),
        Function.update_of_ne (by simp), if_neg hi]
      rfl

theorem run_input (ch : Fin 4) (config : IcInit) (tim : Registers) (r : Register) :
    configInputCompareChannel e ch config tim r =
      edit ((Configuration.input ch config).edits header e r) (tim r) := by
  unfold configInputCompareChannel
  cases r with
  | ccmr i =>
    rw [Function.update_of_ne (by simp)]
    exact update_ccmr rfl ..
  | ccer => exact Function.update_self ..
  | cr2 =>
    rw [Function.update_of_ne (by simp), Function.update_of_ne (by simp)]
    rfl
  | ccr i =>
    rw [Function.update_of_ne (by simp), Function.update_of_ne (by simp)]
    rfl

theorem run_preload (ch : Fin 6) (tim : Registers) (r : Register) :
    setOutputComparePreloadEnable ch tim r = edit ((Configuration.preload ch).edits header e r) (tim r) := by
  unfold setOutputComparePreloadEnable
  cases r with
  | ccmr i => exact update_ccmr rfl (modeRegister ch) [.set (ocPE ch)]
  | ccer => exact Function.update_of_ne (by simp) ..
  | cr2 => exact Function.update_of_ne (by simp) ..
  | ccr i => exact Function.update_of_ne (by simp) ..

/-- A configuration edits every register by itself. -/
theorem run_eq (c : Configuration) (tim : Registers) (r : Register) :
    c.run header e tim r = edit (c.edits header e r) (tim r) := by
  cases c with
  | output ch config => exact run_output ch config tim r
  | input ch config => exact run_input ch config tim r
  | preload ch => exact run_preload ch tim r

/-! ## The bits of a channel -/

theorem inside_ocM (header : Header) (ch : Fin 6) : Inside (ocM header ch) (0x100FF#32 <<< modeShift ch) := by
  cases header with
  | device => exact Inside.shiftLeft (by decide) _
  | mock => exact Inside.shiftLeft (by decide) _

theorem inside_ccS (ch : Fin 6) : Inside (ccS ch) (0x100FF#32 <<< modeShift ch) :=
  Inside.shiftLeft (by decide) _

theorem inside_icF (ch : Fin 6) : Inside (icF ch) (0x100FF#32 <<< modeShift ch) :=
  Inside.shiftLeft (by decide) _

theorem inside_icPSC (ch : Fin 6) : Inside (icPSC ch) (0x100FF#32 <<< modeShift ch) :=
  Inside.shiftLeft (by decide) _

/-- A legal mode is one of the first channel. -/
theorem inside_ocMode {mode : BitVec 32} (h : mode ∈ ocModes header) : Inside mode (ocM header 0) := by
  cases header with
  | device => exact inside_of_mem h (by decide)
  | mock => exact inside_of_mem h (by decide)

theorem within_outputMode {mode : BitVec 32} (h : mode ∈ ocModes header) :
    ∀ ch : Fin 6, ch ≠ 5 → Within (0x100FF#32 <<< modeShift ch) (outputMode header mode ch) := by
  have hmode : Inside mode 0x100FF := by
    cases header with
    | device => exact inside_of_mem h (by decide)
    | mock => exact inside_of_mem h (by decide)
  intro ch hch
  have hocM := inside_ocM header ch
  have hccS := inside_ccS ch
  match ch with
  | 0 => exact within_cons.mpr ⟨hocM, within_cons.mpr ⟨hccS, within_cons.mpr ⟨hmode, within_nil⟩⟩⟩
  | 1 => exact within_cons.mpr ⟨hocM, within_cons.mpr ⟨hccS, within_cons.mpr ⟨hmode.shiftLeft 8, within_nil⟩⟩⟩
  | 2 => exact within_cons.mpr ⟨hocM, within_cons.mpr ⟨hccS, within_cons.mpr ⟨hmode, within_nil⟩⟩⟩
  | 3 => exact within_cons.mpr ⟨hocM, within_cons.mpr ⟨hccS, within_cons.mpr ⟨hmode.shiftLeft 8, within_nil⟩⟩⟩
  | 4 => exact within_cons.mpr ⟨hocM, within_cons.mpr ⟨hmode, within_nil⟩⟩
  | 5 => exact absurd rfl hch

theorem within_outputPolarity {polarity : BitVec 32} (h : polarity ∈ [0, ccP 0]) (ch : Fin 6) :
    Within (0xF#32 <<< (4 * ch.val)) (outputPolarity polarity ch) := by
  rw [List.mem_pair] at h
  rcases h with rfl | rfl <;> revert ch <;> decide

theorem within_negatedPolarity {polarity : BitVec 32} (h : polarity ∈ [0, ccNP 0]) (ch : Fin 6) :
    Within (0xF#32 <<< (4 * ch.val)) (negatedPolarity polarity ch) := by
  rw [List.mem_pair] at h
  rcases h with rfl | rfl <;> revert ch <;> decide

theorem within_idleStates {negated idle : BitVec 32} (hnegated : negated ∈ [0, oisN 0])
    (hidle : idle ∈ [0, ois 0]) (ch : Fin 6) :
    Within (if ch < 3 then ois ch ||| oisN ch else ois ch) (idleStates negated idle ch) := by
  rw [List.mem_pair] at hnegated hidle
  rcases hnegated with rfl | rfl <;> rcases hidle with rfl | rfl <;> revert ch <;> decide

theorem within_inputPolarity (polarity : BitVec 32) (ch : Fin 4) :
    Within (0xF#32 <<< (4 * ch.val)) (inputPolarity polarity ch) := by
  have hclear (mask : BitVec 32) {e p : BitVec 32} (he : Inside e mask) (hp : Inside p mask) (x : BitVec 32) :
      Within mask [.clear e, .clear p, .set (x &&& p)] :=
    within_cons.mpr ⟨he, within_cons.mpr ⟨hp, within_cons.mpr ⟨hp.and_left, within_nil⟩⟩⟩
  match ch with
  | 0 => exact hclear _ (by decide) (by decide) _
  | 1 => exact hclear _ (by decide) (by decide) _
  | 2 => exact hclear _ (by decide) (by decide) _
  | 3 => exact hclear _ (by decide) (by decide) _

theorem within_inputMode {config : IcInit} (h : config.icSelection ∈ [1, 2, 3]) (cc2 : Bool) (ch : Fin 4) :
    Within (0x100FF#32 <<< modeShift (inputChannel ch)) (inputMode cc2 config ch) := by
  have hselection : Inside config.icSelection 0x100FF := inside_of_mem h (by decide)
  have hccS := inside_ccS (inputChannel ch)
  have hicF := inside_icF (inputChannel ch)
  have hicPSC := inside_icPSC (inputChannel ch)
  have hfilter (x y : BitVec 32) : Within (0x100FF#32 <<< modeShift (inputChannel ch))
      [.clear (icF (inputChannel ch)), .set (x &&& icF (inputChannel ch)),
        .clear (icPSC (inputChannel ch)), .set (y &&& icPSC (inputChannel ch))] :=
    within_cons.mpr ⟨hicF, within_cons.mpr ⟨hicF.and_left,
      within_cons.mpr ⟨hicPSC, within_cons.mpr ⟨hicPSC.and_left, within_nil⟩⟩⟩⟩
  match ch with
  | 0 =>
    refine within_append.mpr ⟨?_, hfilter _ _⟩
    cases cc2 with
    | true => exact within_cons.mpr ⟨hccS, within_cons.mpr ⟨hselection, within_nil⟩⟩
    | false => exact within_cons.mpr ⟨by decide, within_nil⟩
  | 1 => exact within_cons.mpr ⟨hccS, within_cons.mpr ⟨hselection.shiftLeft 8, hfilter _ _⟩⟩
  | 2 => exact within_cons.mpr ⟨hccS, within_cons.mpr ⟨hselection, hfilter _ _⟩⟩
  | 3 => exact within_cons.mpr ⟨hccS, within_cons.mpr ⟨hselection.shiftLeft 8, hfilter _ _⟩⟩

/-- A configuration is within its channel's bits, but for the mode of channel 6. -/
theorem within_edits {c : Configuration} (h : c.Legal header) {r : Register}
    (hr : ∀ config, c = .output 5 config → r ≠ .ccmr 2) : Within (owned c.channel r) (c.edits header e r) := by
  cases c with
  | output ch config =>
    cases r with
    | ccmr i =>
      change Within (if i = modeRegister ch then _ else 0) (if i = modeRegister ch then _ else [])
      split
      · rename_i hi
        refine within_outputMode h.ocMode ch ?_
        rintro rfl
        exact hr config rfl (congrArg Register.ccmr hi)
      · exact within_nil
    | ccer =>
      refine within_append.mpr ⟨within_outputPolarity h.ocPolarity ch, ?_⟩
      split
      · exact within_negatedPolarity h.ocnPolarity ch
      · exact within_nil
    | cr2 =>
      change Within _ (if isBreakInstance e then _ else [])
      split
      · exact within_idleStates h.ocnIdleState h.ocIdleState ch
      · exact within_nil
    | ccr i =>
      change Within (if i = ch then _ else 0) (if i = ch then _ else [])
      split
      · have hall : Inside (BitVec.allOnes 32) (BitVec.allOnes 32) := by decide
        exact within_cons.mpr ⟨hall, within_nil⟩
      · exact within_nil
  | input ch config =>
    cases r with
    | ccmr i =>
      change Within (if i = modeRegister (inputChannel ch) then _ else 0)
        (if i = modeRegister (inputChannel ch) then _ else [])
      split
      · exact within_inputMode h.icSelection _ ch
      · exact within_nil
    | ccer => exact within_inputPolarity config.icPolarity ch
    | cr2 => exact within_nil
    | ccr i => exact within_nil
  | preload ch =>
    cases r with
    | ccmr i =>
      change Within (if i = modeRegister ch then _ else 0) (if i = modeRegister ch then _ else [])
      split
      · exact within_cons.mpr ⟨Inside.shiftLeft (by decide) _, within_nil⟩
      · exact within_nil
    | ccer => exact within_nil
    | cr2 => exact within_nil
    | ccr i => exact within_nil

/-- No bit belongs to two channels. -/
theorem owned_disjoint {a b : Fin 6} (h : a ≠ b) (r : Register) : owned a r &&& owned b r = 0 := by
  cases r with
  | ccmr i =>
    revert a b i
    decide +kernel
  | ccer =>
    revert a b
    decide +kernel
  | cr2 =>
    revert a b
    decide +kernel
  | ccr i =>
    change (if i = a then _ else _) &&& (if i = b then _ else _) = _
    by_cases ha : i = a
    · rw [if_neg fun hb : i = b => h (ha.symm.trans hb)]
      exact BitVec.and_zero
    · rw [if_neg ha]
      exact BitVec.zero_and

/-! ## Locality -/

theorem local_iff (c : Configuration) (tim : Registers) : Local header e c tim ↔
    ∀ r, edit (c.edits header e r) (tim r) &&& ~~~owned c.channel r = tim r &&& ~~~owned c.channel r := by
  rw [Local]
  simp only [run_eq]

/-- The bits of the first mode in the register of channels 5 and 6. -/
theorem ocM_bits (header : Header) {k : Nat} (hk : (ocM header 0).getLsbD k = true) :
    (ocM header 5).getLsbD k = false ∧ (owned 5 (.ccmr 2)).getLsbD k = false := by
  have hocM : ocM header 0 &&& ocM header 5 = 0 := by cases header <;> decide
  have howned : ocM header 0 &&& owned 5 (.ccmr 2) = 0 := by cases header <;> decide
  have hfirst := congrArg (fun x => BitVec.getLsbD x k) hocM
  have hsecond := congrArg (fun x => BitVec.getLsbD x k) howned
  rw [BitVec.getLsbD_and, hk, Bool.true_and] at hfirst hsecond
  exact ⟨hfirst.trans BitVec.getLsbD_zero, hsecond.trans BitVec.getLsbD_zero⟩

/-- The mode of channel 6 changes no other bits exactly where it is there already. -/
theorem misplaced_local_iff {mode : BitVec 32} (h : mode ∈ ocModes header) (x : BitVec 32) :
    edit (outputMode header mode 5) x &&& ~~~owned 5 (.ccmr 2) = x &&& ~~~owned 5 (.ccmr 2) ↔ Inside mode x := by
  have hmode := inside_iff.mp (inside_ocMode h)
  rw [and_not_mask_eq_iff, inside_iff]
  constructor
  · intro hsame k hk
    obtain ⟨-, howned⟩ := ocM_bits header (hmode k hk)
    rw [← hsame k howned, outputMode, getLsbD_clear_set, hk, Bool.or_true]
  · intro hset k howned
    have hclear : (ocM header 5).getLsbD k = false := by
      by_contra htrue
      have hin := inside_iff.mp (inside_ocM header 5) k (Bool.not_eq_false _ ▸ htrue)
      exact absurd (howned.symm.trans hin) Bool.noConfusion
    rw [outputMode, getLsbD_clear_set, hclear, Bool.not_false, Bool.and_true]
    cases hk : mode.getLsbD k with
    | false => rw [Bool.or_false]
    | true => rw [hset k hk, Bool.or_true]

theorem local_iff_already {c : Configuration} (h : c.Legal header) (tim : Registers) :
    Local header e c tim ↔ Already tim c := by
  rw [local_iff]
  by_cases hmisplaced : ∃ config, c = .output 5 config
  · obtain ⟨config, rfl⟩ := hmisplaced
    rw [Already, imp_iff_right rfl, ← misplaced_local_iff h.ocMode]
    constructor
    · intro hall
      exact hall (.ccmr 2)
    · intro hmode r
      by_cases hr : r = .ccmr 2
      · rw [hr]
        exact hmode
      · exact edit_outside (within_edits h fun _ _ => hr) _
  · have halready : Already tim c := by
      cases c with
      | output ch config =>
        rintro rfl
        exact absurd ⟨config, rfl⟩ hmisplaced
      | input ch config => trivial
      | preload ch => trivial
    refine iff_of_true (fun r => edit_outside (within_edits h ?_) _) halready
    intro config heq
    exact absurd ⟨config, heq⟩ hmisplaced

/-! ## Commutation -/

theorem commute_iff (a b : Configuration) (tim : Registers) : Commute header e a b tim ↔
    ∀ r, edit (a.edits header e r) (edit (b.edits header e r) (tim r)) =
      edit (b.edits header e r) (edit (a.edits header e r) (tim r)) := by
  rw [Commute, funext_iff]
  simp only [run_eq]

theorem Commute.symm {a b : Configuration} {tim : Registers} (h : Commute header e a b tim) :
    Commute header e b a tim := Eq.symm h

theorem apart_symm {a b : Configuration} (h : Apart a b) : Apart b a := by
  cases a <;> cases b <;> first | trivial | exact ⟨fun h4 h5 => h.2 h5 h4, fun h5 h4 => h.1 h4 h5⟩

/-- Where neither order puts a mode in the other channel's bits, the registers are edited apart. -/
theorem edits_comm {a b : Configuration} (ha : a.Legal header) (hb : b.Legal header)
    (hne : a.channel ≠ b.channel) {r : Register} (hra : ∀ config, a = .output 5 config → r ≠ .ccmr 2)
    (hrb : ∀ config, b = .output 5 config → r ≠ .ccmr 2) (x : BitVec 32) :
    edit (a.edits header e r) (edit (b.edits header e r) x) =
      edit (b.edits header e r) (edit (a.edits header e r) x) :=
  edit_comm (within_edits ha hra) (within_edits hb hrb) (owned_disjoint hne r) x

/-- The modes of channels 5 and 6 commute exactly where the first has the bits of the other. -/
theorem modes_comm_iff {mode mode' : BitVec 32} (h : mode ∈ ocModes header) (h' : mode' ∈ ocModes header)
    (x : BitVec 32) :
    edit (outputMode header mode' 5) (edit (outputMode header mode 4) x) =
        edit (outputMode header mode 4) (edit (outputMode header mode' 5) x) ↔ Inside mode' mode := by
  have hmode := inside_iff.mp (inside_ocMode h)
  have hmode' := inside_iff.mp (inside_ocMode h')
  have hfirst : ocM header 4 = ocM header 0 := by cases header <;> rfl
  simp only [outputMode, hfirst]
  rw [inside_iff]
  constructor
  · intro heq k hk
    have hbit := congrArg (fun y => BitVec.getLsbD y k) heq
    simp only [getLsbD_clear_set, hk, hmode' k hk, Bool.or_true, Bool.not_true, Bool.and_false,
      Bool.false_or] at hbit
    exact hbit.symm
  · intro hinside
    refine BitVec.eq_of_getLsbD_eq fun k _ => ?_
    simp only [getLsbD_clear_set]
    cases hk : (ocM header 0).getLsbD k with
    | true =>
      rw [(ocM_bits header hk).1]
      have himp := hinside k
      cases hm : mode.getLsbD k <;> cases hm' : mode'.getLsbD k <;> simp_all
    | false =>
      have hm : mode.getLsbD k = false := by
        by_contra htrue
        exact absurd (hk.symm.trans (hmode k (Bool.not_eq_false _ ▸ htrue))) Bool.noConfusion
      have hm' : mode'.getLsbD k = false := by
        by_contra htrue
        exact absurd (hk.symm.trans (hmode' k (Bool.not_eq_false _ ▸ htrue))) Bool.noConfusion
      rw [hm, hm']
      simp only [Bool.not_false, Bool.and_true, Bool.or_false]

/-- To the register of channels 5 and 6 another channel sets a mode, or at most the preload bit
of channel 5. -/
theorem edits_ccmr3 (header : Header) (e : Entry) {b : Configuration} (h : b.channel ≠ 5) :
    (∃ config, b = .output 4 config) ∨
      (∀ config, b ≠ .output 4 config) ∧ Within (ocPE 4) (b.edits header e (.ccmr 2)) := by
  have hchannel (ch : Fin 6) (hch : ch ≠ 5) (hfour : ch ≠ 4) : ¬ (2 : Fin 3) = modeRegister ch := by
    revert ch
    decide
  have hinput : ∀ ch, inputChannel ch ≠ 4 := by decide
  cases b with
  | output ch config =>
    by_cases hfour : ch = 4
    · exact .inl ⟨config, by rw [hfour]⟩
    · refine .inr ⟨fun config' heq => hfour (Configuration.output.inj heq).1, ?_⟩
      rw [Configuration.edits, if_neg (hchannel ch h hfour)]
      exact within_nil
  | input ch config =>
    refine .inr ⟨fun _ => Configuration.noConfusion, ?_⟩
    rw [Configuration.edits, if_neg (hchannel (inputChannel ch) h (hinput ch))]
    exact within_nil
  | preload ch =>
    refine .inr ⟨fun _ => Configuration.noConfusion, ?_⟩
    by_cases hfour : ch = 4
    · rw [hfour]
      exact within_cons.mpr ⟨Inside.refl _, within_nil⟩
    · rw [Configuration.edits, if_neg (hchannel ch h hfour)]
      exact within_nil

theorem within_misplaced {mode : BitVec 32} (h : mode ∈ ocModes header) :
    Within (0x100FF#32 <<< modeShift 5 ||| ocM header 0) (outputMode header mode 5) :=
  within_cons.mpr ⟨(inside_ocM header 5).or_left _,
    within_cons.mpr ⟨(inside_ocMode h).or_right _, within_nil⟩⟩

theorem misplaced_commute_iff {config : OcInit} {b : Configuration} (h : config.Legal header)
    (hb : b.Legal header) (hne : b.channel ≠ 5) (tim : Registers) :
    Commute header e (.output 5 config) b tim ↔ Apart (.output 5 config) b := by
  have hothers (hmodes : edit (outputMode header config.ocMode 5) (edit (b.edits header e (.ccmr 2)) (tim (.ccmr 2))) =
      edit (b.edits header e (.ccmr 2)) (edit (outputMode header config.ocMode 5) (tim (.ccmr 2)))) (r : Register) :
      edit ((Configuration.output 5 config).edits header e r) (edit (b.edits header e r) (tim r)) =
        edit (b.edits header e r) (edit ((Configuration.output 5 config).edits header e r) (tim r)) := by
    by_cases hr : r = .ccmr 2
    · rw [hr]
      exact hmodes
    · exact edits_comm (a := .output 5 config) h hb hne.symm (fun _ _ => hr) (fun _ _ => hr) (tim r)
  rw [commute_iff]
  rcases edits_ccmr3 header e hne with ⟨config', rfl⟩ | ⟨hnot, hwithin⟩
  · have hapart : Apart (.output 5 config) (.output 4 config') ↔ Inside config.ocMode config'.ocMode := by
      simp [Apart]
    rw [hapart, ← modes_comm_iff hb.ocMode h.ocMode (tim (.ccmr 2))]
    exact ⟨fun hall => hall (.ccmr 2), hothers⟩
  · have hdisjoint : (0x100FF#32 <<< modeShift 5 ||| ocM header 0) &&& ocPE 4 = 0 := by cases header <;> decide
    have hapart : Apart (.output 5 config) b := by
      cases b with
      | output ch config' =>
        refine ⟨fun heq => absurd heq (by decide), fun _ heq => ?_⟩
        exact absurd (by rw [heq]) (hnot config')
      | input ch config' => trivial
      | preload ch => trivial
    exact iff_of_true (hothers (edit_comm (within_misplaced h.ocMode) hwithin hdisjoint _)) hapart

/-- Two configurations of different channels commute exactly where no mode of channel 6 has
bits that the mode of channel 5 lacks. -/
theorem commute_iff_apart {a b : Configuration} (ha : a.Legal header) (hb : b.Legal header)
    (hne : a.channel ≠ b.channel) (tim : Registers) : Commute header e a b tim ↔ Apart a b := by
  by_cases hmisplaced : ∃ config, a = .output 5 config
  · obtain ⟨config, rfl⟩ := hmisplaced
    exact misplaced_commute_iff ha hb hne.symm tim
  by_cases hother : ∃ config, b = .output 5 config
  · obtain ⟨config, rfl⟩ := hother
    have hiff := misplaced_commute_iff (e := e) hb ha hne tim
    exact ⟨fun h => apart_symm (hiff.mp h.symm), fun h => (hiff.mpr (apart_symm h)).symm⟩
  · have hapart : Apart a b := by
      cases a <;> cases b <;> first
        | trivial
        | exact ⟨fun _ heq => absurd ⟨_, by rw [heq]⟩ hother, fun heq => absurd ⟨_, by rw [heq]⟩ hmisplaced⟩
    refine iff_of_true ((commute_iff a b tim).mpr fun r => edits_comm ha hb hne ?_ ?_ (tim r)) hapart
    · intro config heq
      exact absurd ⟨config, heq⟩ hmisplaced
    · intro config heq
      exact absurd ⟨config, heq⟩ hother

/-- Calls are local, and commute with those for other channels, but for the mode of channel 6: it
goes to the bits of channel 5. -/
theorem channel_configuration_iff (header : Header) (e : Entry) :
    (∀ (c : Configuration) (tim : Registers), c.Legal header → (Local header e c tim ↔ Already tim c)) ∧
    ∀ (a b : Configuration) (tim : Registers), a.Legal header → b.Legal header → a.channel ≠ b.channel →
      (Commute header e a b tim ↔ Apart a b) :=
  ⟨fun _ tim h => local_iff_already h tim, fun _ _ tim ha hb hne => commute_iff_apart ha hb hne tim⟩

/-- `TIM_OCMODE_PWM1`. -/
def pwm1 : OcInit := ⟨0x60, 0, 0, 0, 0, 0⟩

theorem legal_pwm1 (header : Header) : pwm1.Legal header := by
  cases header <;> constructor <;> decide

theorem channel_configuration_iff_pwm1 :
    (Local .device { request := 1 } (.output 5 pwm1) (fun _ => 0) ↔ Already (fun _ => 0) (.output 5 pwm1)) ∧
    (Commute .device { request := 1 } (.output 4 pwm1) (.output 5 pwm1) (fun _ => 0) ↔
      Apart (.output 4 pwm1) (.output 5 pwm1)) :=
  ⟨(channel_configuration_iff .device _).1 _ _ (legal_pwm1 _),
    (channel_configuration_iff .device _).2 _ _ _ (legal_pwm1 _) (legal_pwm1 _) (by decide)⟩

/-- Channel 6 gives channel 5 a mode. -/
theorem channel6_not_local : ¬ Local .device { request := 1 } (.output 5 pwm1) fun _ => 0 := by
  intro h
  exact absurd (h (.ccmr 2)) (by decide)

end StLib.Timers.ChannelRegisters
