import StLib.Base.BitSlots
import StLib.Dfsdm.Model

/-! # Register words of a channel and its filter

The checks of `DFSDM_CHANNEL`, the words that are made of what they accept, and the fields of the
registers that the hardware reads. -/
namespace StLib.Dfsdm.Registers

open StLib.Base.RegisterBits StLib.Base.BitSlots
open Model

/-- `SPICKSel`. -/
inductive SpiClockSel
  | clkIn
  | normalClkOut
  | clkDivided2Rising
  | clkDivided2Falling
deriving DecidableEq

def SpiClockSel.code : SpiClockSel → Word
  | clkIn => 0
  | normalClkOut => 1
  | clkDivided2Rising => 2
  | clkDivided2Falling => 3

inductive SpiType
  | spiRising
  | spiFalling
deriving DecidableEq

def SpiType.code : SpiType → Word
  | spiRising => 0
  | spiFalling => 1

/-- `Config_Channel`, of which the extreme detector is in the entry. -/
structure ConfigChannel where
  offset : Word := 0
  rightShift : Word := 0
  spiClockSel : SpiClockSel := .clkDivided2Rising
  spiType : SpiType := .spiRising
  clockAbsence : Bool := false
  shortCircuit : Bool := false
  shortCircuitCount : BitVec 8 := 0xFF
  watchdog : Bool := false
  filterWatchdog : FilterType := .sinc2
  watchdogOversampling : BitVec 8 := 5

def oversamplingMax : Nat := 1024

def oversamplingMaxFilter4 : Nat := 215

def oversamplingMaxFilter5 : Nat := 73

def isCorrectOversampling (f : FilterType) (osr : Nat) : Bool :=
  match f with
  | .fastSinc | .sinc1 | .sinc2 | .sinc3 => decide (1 ≤ osr ∧ osr ≤ oversamplingMax)
  | .sinc4 => decide (1 ≤ osr ∧ osr ≤ oversamplingMaxFilter4)
  | .sinc5 => decide (1 ≤ osr ∧ osr ≤ oversamplingMaxFilter5)

def offsetMax : Int := 2 ^ 23 - 1

def offsetMin : Int := -2 ^ 23

def compileErrorIf (failing : Prop) [Decidable failing] (text : String) : Except String Unit :=
  if failing then .error text else .ok ()

/-- The checks of the constructor; a filter above 3 is not in the type of the configuration. -/
def check (c : ConfigChannel) (f : ConfigFilter) : Except String Unit := do
  compileErrorIf (c.offset.toInt > offsetMax ∨ c.offset.toInt < offsetMin)
    "Your offset is bigger than the maximum size"
  compileErrorIf (c.rightShift > 0xFF) "Your right_shift is bigger than the maximum size"
  compileErrorIf (f.integrator ≤ 0) "DFSDM_FILTER: Integrator out of range"
  compileErrorIf (isCorrectOversampling f.filterType f.oversampling.toNat = false)
    "DFSDM_FILTER: invalid oversampling for selected filter type"
  compileErrorIf (c.watchdogOversampling > 32) "DFSDM_Watchdog oversampling is bigger than the maximum allowed"
  compileErrorIf (c.filterWatchdog.code > 3)
    "Why would a sane person need a filter of the watchdog higher than sinc3"

/-! ## Registers of a channel -/

def makeChawscdr (c : ConfigChannel) : Word :=
  let v : Word := c.shortCircuitCount.setWidth 32
  if c.watchdog then
    v ||| (c.filterWatchdog.code <<< 22) ||| (((c.watchdogOversampling.setWidth 32 - 1) &&& 0xF) <<< 16)
  else v

def makeChcfgr1 (c : ConfigChannel) : Word :=
  (c.spiClockSel.code <<< 2) ||| c.spiType.code ||| (code c.clockAbsence <<< 6) ||| (code c.shortCircuit <<< 5)

def makeChcfgr2 (c : ConfigChannel) : Word :=
  ((c.offset &&& 0x00FFFFFF) <<< 8) ||| ((c.rightShift &&& 0x0F) <<< 3)

/-! ## Fields -/

def ford : Slot 32 := { pos := 29, width := 3 }

def fosr : Slot 32 := { pos := 16, width := 10 }

def iosr : Slot 32 := { pos := 0, width := 8 }

/-- `OFFSET` of `CHCFGR2`. -/
def offset : Slot 32 := { pos := 8, width := 24 }

def dtrbs : Slot 32 := { pos := 3, width := 5 }

def awford : Slot 32 := { pos := 22, width := 2 }

def awfosr : Slot 32 := { pos := 16, width := 5 }

def scdt : Slot 32 := { pos := 0, width := 8 }

def sitp : Slot 32 := { pos := 0, width := 2 }

def spicksel : Slot 32 := { pos := 2, width := 2 }

def scden : Slot 32 := { pos := 5, width := 1 }

def ckaben : Slot 32 := { pos := 6, width := 1 }

/-- `AWHT` and `AWLT`. -/
def awt : Slot 32 := { pos := 8, width := 24 }

/-- The upper 16 bits of a threshold, which are those that channel data are compared with. -/
def awtData : Slot 32 := { pos := 16, width := 16 }

def jsync : Slot 32 := { pos := 3, width := 1 }

def jscan : Slot 32 := { pos := 4, width := 1 }

def jdmaen : Slot 32 := { pos := 5, width := 1 }

def jextsel : Slot 32 := { pos := 8, width := 5 }

def jexten : Slot 32 := { pos := 13, width := 2 }

def rcont : Slot 32 := { pos := 18, width := 1 }

def rsync : Slot 32 := { pos := 19, width := 1 }

def rdmaen : Slot 32 := { pos := 21, width := 1 }

def fast : Slot 32 := { pos := 29, width := 1 }

def awfsel : Slot 32 := { pos := 30, width := 1 }

/-! ## What the words have to say -/

/-- A threshold register, as the comparisons of a mode read it. -/
def ThresholdRead (mode : AnalogWatchdogMode) (threshold register : Word) : Prop :=
  match mode with
  | .afterFilter => (awt.read register).toInt = threshold.toInt
  | .channelData => awtData.read register = threshold.setWidth 16

/-- The trigger that is selected; a filter that follows filter 0 takes its. -/
def selected (e : Entry) : Word :=
  if e.configFilter.triggerConv = .unused then 0
  else if e.filter ≠ 0 ∧ e.configFilter.rsync = .syncWithFlt0 then 0
  else getTrigger e.configFilter.triggerConv

/-- The control register, by the type of the conversions. -/
def ControlRead (e : Entry) (register : Word) : Prop :=
  (awfsel.read register).toNat = e.configFilter.watchdogMode.code.toNat ∧
  match e.configFilter.typeConv with
  | .regular =>
    (rdmaen.read register).toNat = (code e.configFilter.dma).toNat ∧
    (fast.read register).toNat = (code e.configFilter.fast).toNat ∧
    (rsync.read register).toNat = e.configFilter.rsync.code.toNat ∧
    (rcont.read register).toNat = e.configFilter.rcont.code.toNat ∧
    Only [rdmaen, fast, rsync, rcont, awfsel] register
  | .injected =>
    (jscan.read register).toNat = e.configFilter.jscan.code.toNat ∧
    (jdmaen.read register).toNat = (code e.configFilter.dma).toNat ∧
    (jexten.read register).toNat = (code (e.configFilter.triggerConv ≠ .unused)).toNat ∧
    (jextsel.read register).toNat = (selected e).toNat ∧
    (jsync.read register).toNat =
      (code (e.configFilter.triggerConv ≠ .unused ∧ e.configFilter.rsync = .syncWithFlt0)).toNat ∧
    Only [jscan, jdmaen, jexten, jextsel, jsync, awfsel] register

/-- Every field reads back what is configured, and there are no bits outside of the fields. -/
structure Decoded (c : ConfigChannel) (e : Entry) : Prop where
  order : (ford.read (makeFltfcr e)).toNat = e.configFilter.filterType.code.toNat
  oversampling : (fosr.read (makeFltfcr e)).toNat + 1 = e.configFilter.oversampling.toNat
  integrator : (iosr.read (makeFltfcr e)).toNat + 1 = e.configFilter.integrator.toNat
  filterOnly : Only [ford, fosr, iosr] (makeFltfcr e)
  control : ControlRead e (makeFltcr1 e e.filter)
  offset : (offset.read (makeChcfgr2 c)).toInt = c.offset.toInt
  rightShift : (dtrbs.read (makeChcfgr2 c)).toNat = c.rightShift.toNat
  dataOnly : Only [Registers.offset, dtrbs] (makeChcfgr2 c)
  spiClock : (spicksel.read (makeChcfgr1 c)).toNat = c.spiClockSel.code.toNat
  spiType : (sitp.read (makeChcfgr1 c)).toNat = c.spiType.code.toNat
  clockAbsence : (ckaben.read (makeChcfgr1 c)).toNat = (code c.clockAbsence).toNat
  shortCircuit : (scden.read (makeChcfgr1 c)).toNat = (code c.shortCircuit).toNat
  channelOnly : Only [spicksel, sitp, ckaben, scden] (makeChcfgr1 c)
  shortCircuitCount : (scdt.read (makeChawscdr c)).toNat = c.shortCircuitCount.toNat
  watchdogOrder : c.watchdog = true → (awford.read (makeChawscdr c)).toNat = c.filterWatchdog.code.toNat
  watchdogOversampling : c.watchdog = true →
    (awfosr.read (makeChawscdr c)).toNat + 1 = c.watchdogOversampling.toNat
  watchdogOnly : Only [scdt, awford, awfosr] (makeChawscdr c)
  highThreshold : e.configFilter.watchdog = true →
    ThresholdRead e.configFilter.watchdogMode e.configFilter.watchdogHighThreshold (makeFltawhtr e)
  lowThreshold : e.configFilter.watchdog = true →
    ThresholdRead e.configFilter.watchdogMode e.configFilter.watchdogLowThreshold (makeFltawltr e)
  thresholdsOnly : Only [awt] (makeFltawhtr e) ∧ Only [awt] (makeFltawltr e)

/-- A threshold that 24 bits hold with their sign. -/
def Holds (threshold : Word) : Prop := -2 ^ 23 ≤ threshold.toInt ∧ threshold.toInt < 2 ^ 23

/-- The values that the checks let pass and the fields do not hold are not there. -/
structure Fitting (c : ConfigChannel) (e : Entry) : Prop where
  rightShift : c.rightShift.toNat ≤ 15
  integrator : e.configFilter.integrator.toNat ≤ 256
  watchdogOversampling : c.watchdog = true →
    1 ≤ c.watchdogOversampling.toNat ∧ c.watchdogOversampling.toNat ≤ 16
  thresholds : e.configFilter.watchdog = true → e.configFilter.watchdogMode = .afterFilter →
    Holds e.configFilter.watchdogHighThreshold ∧ Holds e.configFilter.watchdogLowThreshold

/-! ## What the checks let pass -/

structure Accepted (c : ConfigChannel) (f : ConfigFilter) : Prop where
  offset : offsetMin ≤ c.offset.toInt ∧ c.offset.toInt ≤ offsetMax
  integrator : 1 ≤ f.integrator.toNat
  oversampling : isCorrectOversampling f.filterType f.oversampling.toNat = true
  filterWatchdog : c.filterWatchdog.code ≤ 3

theorem compileErrorIf_ok {failing : Prop} [Decidable failing] {text : String} :
    compileErrorIf failing text = .ok () ↔ ¬ failing := by
  unfold compileErrorIf
  split <;> simp_all

theorem compileErrorIf_bind {failing : Prop} [Decidable failing] {text : String}
    {rest : Unit → Except String Unit} :
    (compileErrorIf failing text >>= rest) = .ok () ↔ ¬ failing ∧ rest () = .ok () := by
  unfold compileErrorIf
  split
  · rename_i hfailing
    exact ⟨fun h => (by cases h), fun h => absurd hfailing h.1⟩
  · rename_i hpassing
    exact (and_iff_right hpassing).symm

theorem accepted_of_check {c : ConfigChannel} {f : ConfigFilter} (h : check c f = .ok ()) : Accepted c f := by
  unfold check at h
  simp only [compileErrorIf_bind, compileErrorIf_ok] at h
  obtain ⟨hoffset, -, hintegrator, hoversampling, -, hwatchdog⟩ := h
  obtain ⟨hmax, hmin⟩ := not_or.mp hoffset
  rw [BitVec.le_def] at hintegrator
  exact ⟨⟨Int.not_lt.mp hmin, Int.not_lt.mp hmax⟩, Nat.not_le.mp hintegrator, by simpa using hoversampling,
    BitVec.not_lt.mp hwatchdog⟩

theorem oversampling_bounds {f : FilterType} {osr : Nat} (h : isCorrectOversampling f osr = true) :
    1 ≤ osr ∧ osr ≤ oversamplingMax := by
  have hfilter4 : oversamplingMaxFilter4 ≤ oversamplingMax := by decide
  have hfilter5 : oversamplingMaxFilter5 ≤ oversamplingMax := by decide
  have hbounds (max : Nat) (hmax : max ≤ oversamplingMax) (hosr : decide (1 ≤ osr ∧ osr ≤ max) = true) :
      1 ≤ osr ∧ osr ≤ oversamplingMax :=
    ⟨(of_decide_eq_true hosr).1, Nat.le_trans (of_decide_eq_true hosr).2 hmax⟩
  cases f with
  | fastSinc | sinc1 | sinc2 | sinc3 => exact hbounds _ (Nat.le_refl _) h
  | sinc4 => exact hbounds _ hfilter4 h
  | sinc5 => exact hbounds _ hfilter5 h

/-! ## Values in their fields -/

theorem toNat_code (enable : Bool) : (code enable).toNat < 2 ^ 1 := by cases enable <;> decide

/-- One less than a number that is not zero. -/
theorem toNat_sub_one {n : Nat} {x : BitVec n} (hn : n ≤ 32) (h : 1 ≤ x.toNat) :
    (x.setWidth 32 - 1).toNat = x.toNat - 1 := by
  have hx : x.toNat < 2 ^ 32 := Nat.lt_of_lt_of_le x.isLt (Nat.pow_le_pow_right Nat.two_pos hn)
  have hwide : (x.setWidth 32).toNat = x.toNat := by
    rw [BitVec.toNat_setWidth, Nat.mod_eq_of_lt hx]
  rw [BitVec.toNat_sub_of_le (by rw [BitVec.le_def, hwide]; exact h), hwide]
  rfl

theorem order_lt (order : FilterType) : order.code.toNat < 2 ^ ford.width := by cases order <;> decide

/-- What a correct oversampling is programmed as fits in its field, and is one less. -/
theorem oversampling_value {order : FilterType} {osr : BitVec 16}
    (h : isCorrectOversampling order osr.toNat = true) :
    (osr.setWidth 32 - 1).toNat + 1 = osr.toNat ∧ (osr.setWidth 32 - 1).toNat < 2 ^ fosr.width := by
  obtain ⟨hpos, hmax⟩ := oversampling_bounds h
  rw [toNat_sub_one (by decide) hpos]
  exact ⟨Nat.sub_add_cancel hpos, Nat.lt_of_lt_of_le (Nat.sub_one_lt (Nat.ne_of_gt hpos)) hmax⟩

/-- A value cut to its low bits. -/
theorem toNat_and_low (x : Word) (k : Nat) (hk : k ≤ 32) :
    (x &&& BitVec.ofNat 32 (2 ^ k - 1)).toNat = x.toNat % 2 ^ k := by
  have hle : 2 ^ k ≤ 2 ^ 32 := Nat.pow_le_pow_right Nat.two_pos hk
  have hpos : 0 < 2 ^ k := Nat.two_pow_pos k
  rw [BitVec.toNat_and, BitVec.toNat_ofNat, Nat.mod_eq_of_lt (by omega), Nat.and_two_pow_sub_one_eq_mod]

theorem and_low_lt (x : Word) (k : Nat) (hk : k ≤ 32) : (x &&& BitVec.ofNat 32 (2 ^ k - 1)).toNat < 2 ^ k := by
  rw [toNat_and_low x k hk]
  exact Nat.mod_lt _ (Nat.two_pow_pos k)

/-! ## Words as fields -/

variable {c : ConfigChannel} {e : Entry}

def fltfcrFields (e : Entry) : List (Field 32) :=
  [⟨ford, e.configFilter.filterType.code⟩, ⟨fosr, e.configFilter.oversampling.setWidth 32 - 1⟩,
    ⟨iosr, e.configFilter.integrator.setWidth 32 - 1⟩]

def chcfgr1Fields (c : ConfigChannel) : List (Field 32) :=
  [⟨spicksel, c.spiClockSel.code⟩, ⟨sitp, c.spiType.code⟩, ⟨ckaben, code c.clockAbsence⟩,
    ⟨scden, code c.shortCircuit⟩]

def chcfgr2Fields (c : ConfigChannel) : List (Field 32) :=
  [⟨offset, c.offset &&& 0x00FFFFFF⟩, ⟨dtrbs, c.rightShift &&& 0x0F⟩]

def chawscdrFields (c : ConfigChannel) : List (Field 32) :=
  ⟨scdt, c.shortCircuitCount.setWidth 32⟩ ::
    if c.watchdog then
      [⟨awford, c.filterWatchdog.code⟩, ⟨awfosr, (c.watchdogOversampling.setWidth 32 - 1) &&& 0xF⟩]
    else []

def thresholdFields (mode : AnalogWatchdogMode) (threshold : Word) : List (Field 32) :=
  match mode with
  | .afterFilter => [⟨awt, threshold &&& 0xFFFFFF⟩]
  | .channelData => [⟨awtData, threshold &&& 0xFFFF⟩]

def regularFields (e : Entry) : List (Field 32) :=
  [⟨rdmaen, code e.configFilter.dma⟩, ⟨fast, code e.configFilter.fast⟩, ⟨rsync, e.configFilter.rsync.code⟩,
    ⟨rcont, e.configFilter.rcont.code⟩, ⟨awfsel, e.configFilter.watchdogMode.code⟩]

def injectedFields (e : Entry) : List (Field 32) :=
  [⟨jscan, e.configFilter.jscan.code⟩, ⟨jdmaen, code e.configFilter.dma⟩,
    ⟨jexten, code (e.configFilter.triggerConv ≠ .unused)⟩, ⟨jextsel, selected e⟩,
    ⟨jsync, code (e.configFilter.triggerConv ≠ .unused ∧ e.configFilter.rsync = .syncWithFlt0)⟩,
    ⟨awfsel, e.configFilter.watchdogMode.code⟩]

theorem makeFltfcr_eq (e : Entry) : makeFltfcr e = pack (fltfcrFields e) := by
  simp [makeFltfcr, pack, fltfcrFields, ford, fosr, iosr, BitVec.or_assoc]

theorem makeChcfgr1_eq (c : ConfigChannel) : makeChcfgr1 c = pack (chcfgr1Fields c) := by
  simp [makeChcfgr1, pack, chcfgr1Fields, spicksel, sitp, ckaben, scden, BitVec.or_assoc]

theorem makeChcfgr2_eq (c : ConfigChannel) : makeChcfgr2 c = pack (chcfgr2Fields c) := by
  simp [makeChcfgr2, pack, chcfgr2Fields, offset, dtrbs]

theorem makeChawscdr_eq (c : ConfigChannel) : makeChawscdr c = pack (chawscdrFields c) := by
  unfold makeChawscdr chawscdrFields
  split <;> simp [pack, scdt, awford, awfosr, BitVec.or_assoc]

theorem makeThreshold_eq (mode : AnalogWatchdogMode) (threshold : Word) :
    makeThreshold mode threshold = pack (thresholdFields mode threshold) := by
  cases mode <;> simp [makeThreshold, pack, thresholdFields, awt, awtData]

theorem makeFltcr1_regular (h : e.configFilter.typeConv = .regular) (filter : Fin 4) :
    makeFltcr1 e filter = pack (regularFields e) := by
  simp [makeFltcr1, h, pack, regularFields, rdmaen, fast, rsync, rcont, awfsel, BitVec.or_assoc]

theorem makeFltcr1_injected (h : e.configFilter.typeConv = .injected) :
    makeFltcr1 e e.filter = pack (injectedFields e) := by
  by_cases htrigger : e.configFilter.triggerConv = .unused
  · simp [makeFltcr1, h, pack, injectedFields, selected, htrigger, code, jscan, jdmaen, jexten, jextsel, jsync,
      awfsel, BitVec.or_assoc]
  · -- the trigger is set twice where filter 0 does not wait for itself
    by_cases hfilter : e.filter = 0 <;> cases hsync : e.configFilter.rsync <;>
      simp [makeFltcr1, h, pack, injectedFields, selected, htrigger, hsync, hfilter, code, jscan, jdmaen,
        jexten, jextsel, jsync, awfsel, bit, BitVec.or_assoc]
    rw [← BitVec.or_assoc 8192#32]
    rfl

/-! ## Reading back -/

theorem fltfcr_read (h : Accepted c e.configFilter) (hintegrator : e.configFilter.integrator.toNat ≤ 256) :
    (ford.read (makeFltfcr e)).toNat = e.configFilter.filterType.code.toNat ∧
    (fosr.read (makeFltfcr e)).toNat + 1 = e.configFilter.oversampling.toNat ∧
    (iosr.read (makeFltfcr e)).toNat + 1 = e.configFilter.integrator.toNat ∧
    Only [ford, fosr, iosr] (makeFltfcr e) := by
  have hone := h.integrator
  have hint := toNat_sub_one (by decide) hone
  obtain ⟨hosr, hsmallOsr⟩ := oversampling_value h.oversampling
  have hsmall : ∀ f ∈ fltfcrFields e, f.Small := by
    have hiosr : (e.configFilter.integrator.setWidth 32 - 1).toNat < 2 ^ 8 := by omega
    simp only [fltfcrFields, List.forall_mem_cons]
    exact ⟨order_lt _, hsmallOsr, hiosr, fun _ hf => absurd hf List.not_mem_nil⟩
  obtain ⟨hread, honly⟩ := pack_spec (makeFltfcr_eq e) hsmall (by decide : [ford, fosr, iosr].Pairwise Slot.Apart)
  simp only [fltfcrFields, List.forall_mem_cons] at hread
  obtain ⟨horder, hfosr, hiosr, -⟩ := hread
  exact ⟨horder, by omega, by omega, honly⟩

theorem chcfgr1_read (c : ConfigChannel) :
    (spicksel.read (makeChcfgr1 c)).toNat = c.spiClockSel.code.toNat ∧
    (sitp.read (makeChcfgr1 c)).toNat = c.spiType.code.toNat ∧
    (ckaben.read (makeChcfgr1 c)).toNat = (code c.clockAbsence).toNat ∧
    (scden.read (makeChcfgr1 c)).toNat = (code c.shortCircuit).toNat ∧
    Only [spicksel, sitp, ckaben, scden] (makeChcfgr1 c) := by
  have hsmall : ∀ f ∈ chcfgr1Fields c, f.Small := by
    have hclock : c.spiClockSel.code.toNat < 2 ^ 2 := by cases c.spiClockSel <;> decide
    have htype : c.spiType.code.toNat < 2 ^ 2 := by cases c.spiType <;> decide
    simp only [chcfgr1Fields, List.forall_mem_cons]
    exact ⟨hclock, htype, toNat_code _, toNat_code _, fun _ hf => absurd hf List.not_mem_nil⟩
  obtain ⟨hread, honly⟩ := pack_spec (makeChcfgr1_eq c) hsmall
    (by decide : [spicksel, sitp, ckaben, scden].Pairwise Slot.Apart)
  simp only [chcfgr1Fields, List.forall_mem_cons] at hread
  obtain ⟨hclock, htype, habsence, hcircuit, -⟩ := hread
  exact ⟨hclock, htype, habsence, hcircuit, honly⟩

/-- 24 bits, with their sign. -/
theorem toInt_low (x : Word) : ((x &&& 0xFFFFFF).setWidth 24).toInt = x.toInt ↔ Holds x := by
  have hlow := toNat_and_low x 24 (by decide)
  have hx := x.isLt
  have hcut : ((x &&& 0xFFFFFF).setWidth 24).toNat = x.toNat % 2 ^ 24 := by
    rw [BitVec.toNat_setWidth]
    exact (congrArg (· % 2 ^ 24) hlow).trans (Nat.mod_mod _ _)
  unfold Holds
  rw [BitVec.toInt_eq_toNat_cond, BitVec.toInt_eq_toNat_cond, hcut]
  split <;> split <;> omega

theorem chcfgr2_read (c : ConfigChannel) :
    ((offset.read (makeChcfgr2 c)).toInt = c.offset.toInt ↔ Holds c.offset) ∧
    (dtrbs.read (makeChcfgr2 c)).toNat = c.rightShift.toNat % 16 ∧ Only [offset, dtrbs] (makeChcfgr2 c) := by
  have hshift := toNat_and_low c.rightShift 4 (by decide)
  have hsmall : ∀ f ∈ chcfgr2Fields c, f.Small := by
    have hdtrbs : (c.rightShift &&& 0x0F).toNat < 2 ^ 5 := Nat.lt_trans (and_low_lt _ 4 (by decide)) (by decide)
    simp only [chcfgr2Fields, List.forall_mem_cons]
    exact ⟨and_low_lt _ 24 (by decide), hdtrbs, fun _ hf => absurd hf List.not_mem_nil⟩
  have hapart : [offset, dtrbs].Pairwise Slot.Apart := by decide
  obtain ⟨hread, honly⟩ := pack_spec (makeChcfgr2_eq c) hsmall hapart
  have hoffset : (offset.read (makeChcfgr2 c)).toInt = ((c.offset &&& 0xFFFFFF).setWidth 24).toInt := by
    rw [makeChcfgr2_eq]
    exact congrArg BitVec.toInt (read_pack hsmall hapart ⟨offset, c.offset &&& 0xFFFFFF⟩ List.mem_cons_self)
  simp only [chcfgr2Fields, List.forall_mem_cons] at hread
  obtain ⟨-, hdtrbs, -⟩ := hread
  exact ⟨by rw [hoffset, toInt_low], hdtrbs.trans hshift, honly⟩

/-- Four bits hold what is one less. -/
theorem watchdogOversampling_low (x : BitVec 8) :
    ((x.setWidth 32 - 1) &&& 0xF : Word).toNat + 1 = x.toNat ↔ 1 ≤ x.toNat ∧ x.toNat ≤ 16 := by
  have hlow := toNat_and_low (x.setWidth 32 - 1) 4 (by decide)
  have hx := x.isLt
  have hwide : (x.setWidth 32).toNat = x.toNat := by
    rw [BitVec.toNat_setWidth, Nat.mod_eq_of_lt (by omega)]
  rw [BitVec.toNat_sub, hwide] at hlow
  change _ = (2 ^ 32 - 1 + x.toNat) % 2 ^ 32 % 2 ^ 4 at hlow
  change ((x.setWidth 32 - 1) &&& BitVec.ofNat 32 (2 ^ 4 - 1)).toNat + 1 = _ ↔ _
  omega

theorem chawscdr_read (h : c.filterWatchdog.code ≤ 3) :
    (scdt.read (makeChawscdr c)).toNat = c.shortCircuitCount.toNat ∧
    (c.watchdog = true → (awford.read (makeChawscdr c)).toNat = c.filterWatchdog.code.toNat ∧
      ((awfosr.read (makeChawscdr c)).toNat + 1 = c.watchdogOversampling.toNat ↔
        1 ≤ c.watchdogOversampling.toNat ∧ c.watchdogOversampling.toNat ≤ 16)) ∧
    Only [scdt, awford, awfosr] (makeChawscdr c) := by
  have hcount : (c.shortCircuitCount.setWidth 32).toNat = c.shortCircuitCount.toNat := by
    have hlt := c.shortCircuitCount.isLt
    rw [BitVec.toNat_setWidth, Nat.mod_eq_of_lt (by omega)]
  have hscdt : (c.shortCircuitCount.setWidth 32).toNat < 2 ^ 8 := hcount ▸ c.shortCircuitCount.isLt
  have heq := makeChawscdr_eq c
  cases hwatchdog : c.watchdog with
  | false =>
    rw [chawscdrFields, hwatchdog, if_neg Bool.false_ne_true] at heq
    obtain ⟨hread, honly⟩ := pack_spec heq (List.forall_mem_singleton.mpr hscdt) (by simp)
    refine ⟨(hread _ List.mem_cons_self).trans hcount, nofun, honly.mono ?_⟩
    intro s hs k hk
    obtain rfl := List.mem_singleton.mp hs
    exact ⟨scdt, List.mem_cons_self, hk⟩
  | true =>
    rw [chawscdrFields, hwatchdog, if_pos rfl] at heq
    have horder : c.filterWatchdog.code.toNat < 2 ^ 2 := Nat.lt_succ_of_le h
    have hosr : ((c.watchdogOversampling.setWidth 32 - 1) &&& 0xF : Word).toNat < 2 ^ 5 :=
      Nat.lt_trans (and_low_lt _ 4 (by decide)) (by decide)
    have hsmall : ∀ f ∈ [(⟨scdt, c.shortCircuitCount.setWidth 32⟩ : Field 32), ⟨awford, c.filterWatchdog.code⟩,
        ⟨awfosr, (c.watchdogOversampling.setWidth 32 - 1) &&& 0xF⟩], f.Small := by
      simp only [List.forall_mem_cons]
      exact ⟨hscdt, horder, hosr, fun _ hf => absurd hf List.not_mem_nil⟩
    obtain ⟨hread, honly⟩ := pack_spec heq hsmall (by decide : [scdt, awford, awfosr].Pairwise Slot.Apart)
    simp only [List.forall_mem_cons] at hread
    obtain ⟨hfirst, hsecond, hthird, -⟩ := hread
    exact ⟨hfirst.trans hcount, fun _ => ⟨hsecond, by rw [hthird]; exact watchdogOversampling_low _⟩, honly⟩

/-- Channel data are compared with 16 bits, which always fit. -/
theorem threshold_read (mode : AnalogWatchdogMode) (threshold : Word) :
    (ThresholdRead mode threshold (makeThreshold mode threshold) ↔ mode = .afterFilter → Holds threshold) ∧
    Only [awt] (makeThreshold mode threshold) := by
  cases mode with
  | afterFilter =>
    have hsmall : ∀ f ∈ thresholdFields .afterFilter threshold, f.Small :=
      List.forall_mem_singleton.mpr (and_low_lt _ 24 (by decide))
    have hread : (awt.read (makeThreshold .afterFilter threshold)).toInt =
        ((threshold &&& 0xFFFFFF).setWidth 24).toInt := by
      rw [makeThreshold_eq]
      exact congrArg BitVec.toInt (read_pack hsmall (by simp [thresholdFields]) _ List.mem_cons_self)
    refine ⟨?_, by rw [makeThreshold_eq]; exact only_pack hsmall⟩
    rw [ThresholdRead, hread, toInt_low, imp_iff_right rfl]
  | channelData =>
    have hsmall : ∀ f ∈ thresholdFields .channelData threshold, f.Small :=
      List.forall_mem_singleton.mpr (and_low_lt _ 16 (by decide))
    have hread : awtData.read (makeThreshold .channelData threshold) = (threshold &&& 0xFFFF).setWidth 16 := by
      rw [makeThreshold_eq]
      exact read_pack hsmall (by simp [thresholdFields]) _ List.mem_cons_self
    have hlow : (threshold &&& 0xFFFF).setWidth 16 = threshold.setWidth 16 := by
      have hcut := toNat_and_low threshold 16 (by decide)
      refine BitVec.eq_of_toNat_eq ?_
      rw [BitVec.toNat_setWidth, BitVec.toNat_setWidth]
      exact (congrArg (· % 2 ^ 16) hcut).trans (Nat.mod_mod _ _)
    refine ⟨iff_of_true (hread.trans hlow) nofun, ?_⟩
    rw [makeThreshold_eq]
    refine (only_pack hsmall).mono fun s hs k hk => ⟨awt, List.mem_cons_self, ?_⟩
    obtain rfl := List.mem_singleton.mp hs
    unfold Slot.Covers at hk ⊢
    simp only [awtData, awt] at hk ⊢
    omega

/-- The control register of any entry. -/
theorem fltcr1_read (e : Entry) : ControlRead e (makeFltcr1 e e.filter) := by
  have hmode : e.configFilter.watchdogMode.code.toNat < 2 ^ 1 := by
    cases e.configFilter.watchdogMode <;> decide
  have hsync : e.configFilter.rsync.code.toNat < 2 ^ 1 := by cases e.configFilter.rsync <;> decide
  unfold ControlRead
  cases htype : e.configFilter.typeConv with
  | regular =>
    have hrcont : e.configFilter.rcont.code.toNat < 2 ^ 1 := by cases e.configFilter.rcont <;> decide
    have hsmall : ∀ f ∈ regularFields e, f.Small := by
      simp only [regularFields, List.forall_mem_cons]
      exact ⟨toNat_code _, toNat_code _, hsync, hrcont, hmode, fun _ hf => absurd hf List.not_mem_nil⟩
    obtain ⟨hread, honly⟩ := pack_spec (makeFltcr1_regular htype e.filter) hsmall
      (by decide : [rdmaen, fast, rsync, rcont, awfsel].Pairwise Slot.Apart)
    simp only [regularFields, List.forall_mem_cons] at hread
    obtain ⟨hdma, hfast, hrsync, hcont, hawfsel, -⟩ := hread
    exact ⟨hawfsel, hdma, hfast, hrsync, hcont, honly⟩
  | injected =>
    have hjscan : e.configFilter.jscan.code.toNat < 2 ^ 1 := by cases e.configFilter.jscan <;> decide
    have htrigger : (selected e).toNat < 2 ^ 5 := by
      unfold selected
      split
      · decide
      · split
        · decide
        · cases e.configFilter.triggerConv <;> decide
    have hjexten := Nat.lt_trans (toNat_code (e.configFilter.triggerConv ≠ .unused)) (by decide : 2 ^ 1 < 2 ^ 2)
    have hsmall : ∀ f ∈ injectedFields e, f.Small := by
      simp only [injectedFields, List.forall_mem_cons]
      exact ⟨hjscan, toNat_code _, hjexten, htrigger, toNat_code _, hmode,
        fun _ hf => absurd hf List.not_mem_nil⟩
    obtain ⟨hread, honly⟩ := pack_spec (makeFltcr1_injected htype) hsmall
      (by decide : [jscan, jdmaen, jexten, jextsel, jsync, awfsel].Pairwise Slot.Apart)
    simp only [injectedFields, List.forall_mem_cons] at hread
    obtain ⟨hscan, hdma, hexten, hextsel, hjsync, hawfsel, -⟩ := hread
    exact ⟨hawfsel, hscan, hdma, hexten, hextsel, hjsync, honly⟩

/-- The words of an accepted configuration say what is configured exactly where no value is too
large for its field: the checks admit more of the right shift, the integrator, the oversampling of
the watchdog and the thresholds. -/
theorem decoded_iff (h : check c e.configFilter = .ok ()) : Decoded c e ↔ Fitting c e := by
  have haccepted := accepted_of_check h
  obtain ⟨hoffset, hdtrbs, hdata⟩ := chcfgr2_read c
  obtain ⟨hclock, htype, habsence, hcircuit, hchannel⟩ := chcfgr1_read c
  obtain ⟨hcount, hwatchdog, honly⟩ := chawscdr_read haccepted.filterWatchdog
  obtain ⟨hhigh, hhighOnly⟩ := threshold_read e.configFilter.watchdogMode e.configFilter.watchdogHighThreshold
  obtain ⟨hlow, hlowOnly⟩ := threshold_read e.configFilter.watchdogMode e.configFilter.watchdogLowThreshold
  constructor
  · intro hdecoded
    have hshift := hdecoded.rightShift
    have hinteg := hdecoded.integrator
    have hiosr : (iosr.read (makeFltfcr e)).toNat < 256 := (iosr.read (makeFltfcr e)).isLt
    refine ⟨by omega, by omega, fun hw => (hwatchdog hw).2.mp (hdecoded.watchdogOversampling hw), ?_⟩
    intro hw hmode
    exact ⟨hhigh.mp (hdecoded.highThreshold hw) hmode, hlow.mp (hdecoded.lowThreshold hw) hmode⟩
  · intro hfits
    obtain ⟨horder, hosr, hint, hfilter⟩ := fltfcr_read haccepted hfits.integrator
    have hholds : Holds c.offset := by
      obtain ⟨hmin, hmax⟩ := haccepted.offset
      unfold offsetMin at hmin
      unfold offsetMax at hmax
      exact ⟨hmin, by omega⟩
    have hshift := hfits.rightShift
    exact
      { order := horder
        oversampling := hosr
        integrator := hint
        filterOnly := hfilter
        control := fltcr1_read e
        offset := hoffset.mpr hholds
        rightShift := by omega
        dataOnly := hdata
        spiClock := hclock
        spiType := htype
        clockAbsence := habsence
        shortCircuit := hcircuit
        channelOnly := hchannel
        shortCircuitCount := hcount
        watchdogOrder := fun hw => (hwatchdog hw).1
        watchdogOversampling := fun hw => (hwatchdog hw).2.mpr (hfits.watchdogOversampling hw)
        watchdogOnly := honly
        highThreshold := fun hw => hhigh.mpr fun hmode => (hfits.thresholds hw hmode).1
        lowThreshold := fun hw => hlow.mpr fun hmode => (hfits.thresholds hw hmode).2
        thresholdsOnly := ⟨hhighOnly, hlowOnly⟩ }

def sampleEntry : Entry where
  configFilter := {}
  channel := 0
  bufferSize := 1
  fits := one_lt_sizeLimit

theorem decoded_iff_default : Decoded {} sampleEntry ↔ Fitting {} sampleEntry := decoded_iff rfl

/-- A right shift of 16 is accepted, and is none. -/
theorem right_shift_lost :
    check { rightShift := 16 } sampleEntry.configFilter = .ok () ∧ ¬ Decoded { rightShift := 16 } sampleEntry := by
  refine ⟨rfl, fun h => ?_⟩
  have hshift := h.rightShift
  exact absurd hshift (by decide)

end StLib.Dfsdm.Registers
