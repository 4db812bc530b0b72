import StLib.Adc.Build

/-! # The initialisation of the ADC domain

`ADCDomain::Init`. What the HAL returns comes from outside; the settings that are the same for
every peripheral are left out. -/
namespace StLib.Adc.Init

open StLib.Base.OccurrenceRank
open StLib.Board
open StLib.Adc.Build

/-! ## The pool -/

structure BufferSizes where
  adc1Size : Nat := 0
  adc2Size : Nat := 0
  adc3Size : Nat := 0

def calculateBufferSizes (sizes : BufferSizes) : List Config → Except String BufferSizes
  | [] => .ok sizes
  | cfg :: rest =>
    match cfg.peripheral with
    | .adc1 => calculateBufferSizes { sizes with adc1Size := sizes.adc1Size + 1 } rest
    | .adc2 => calculateBufferSizes { sizes with adc2Size := sizes.adc2Size + 1 } rest
    | .adc3 => calculateBufferSizes { sizes with adc3Size := sizes.adc3Size + 1 } rest
    | .auto => .error "ADC: peripheral not resolved"

namespace BufferSizes

variable (sizes : BufferSizes)

def totalDmaSlots : Nat := sizes.adc1Size + sizes.adc2Size + sizes.adc3Size

def bufferSizeFor : Peripheral → Nat
  | .adc1 => sizes.adc1Size
  | .adc2 => sizes.adc2Size
  | .adc3 => sizes.adc3Size
  | .auto => 0

def bufferOffsetFor : Peripheral → Nat
  | .adc1 => 0
  | .adc2 => sizes.adc1Size
  | .adc3 => sizes.adc1Size + sizes.adc2Size
  | .auto => 0

/-- An index into `dma_buffer_pool`. -/
def getDmaSlot (p : Peripheral) (index : Nat) : Option Nat :=
  if sizes.bufferSizeFor p ≤ index then none
  else if sizes.totalDmaSlots ≤ sizes.bufferOffsetFor p + index then none
  else some (sizes.bufferOffsetFor p + index)

/-- What `get_dma_buffer` returns, or its message. -/
def getDmaBuffer (p : Peripheral) : Except String Nat :=
  if sizes.bufferSizeFor p = 0 then .error "ADC DMA buffer not available"
  else if sizes.totalDmaSlots < sizes.bufferOffsetFor p + sizes.bufferSizeFor p then
    .error "ADC DMA pool overflow"
  else .ok (sizes.bufferOffsetFor p)

end BufferSizes

/-- `buffer_sizes`, for which the static assertion holds. -/
def bufferSizes (cfgs : List Config) : Except String BufferSizes := do
  let sizes ← calculateBufferSizes {} cfgs
  require (sizes.totalDmaSlots ≤ maxInstances) "ADC DMA buffer size exceeds max_instances"
  return sizes

/-! ## Handles -/

/-- `ADC_REGULAR_RANK_1` to `ADC_REGULAR_RANK_16`. -/
abbrev Rank := Fin 16

def regularRank (zeroBasedRank : Nat) : Rank :=
  if h : zeroBasedRank < 16 then ⟨zeroBasedRank, h⟩ else 0

inductive EocSelection
  | singleConv
  | seqConv
deriving DecidableEq

structure InitTypeDef where
  clockPrescaler : ClockPrescaler
  resolution : Resolution
  scanConvMode : Bool
  eocSelection : EocSelection
  nbrOfConversion : Nat

/-- `ADC_HandleTypeDef`; `init` is none where `Instance` is null. `sequence` is what the
channels were configured to, `transfer` where a DMA writes and how many conversions. -/
structure Handle where
  init : Option InitTypeDef := none
  dmaHandle : Option Nat := none
  sequence : Rank → Option (Channel × SampleTime) := fun _ => none
  transfer : Option (Nat × Nat) := none

/-- What the calls of the HAL return `HAL_OK` for. -/
structure Hal where
  init : Fin 3 → Bool
  configChannel : Fin 3 → Rank → Bool
  startDma : Fin 3 → Bool

structure Device where
  handles : Fin 3 → Handle := fun _ => {}
  dmaBufferPool : Nat → BitVec 16 := fun _ => 0
  panics : List String := []

namespace Device

variable (d : Device) (p : Fin 3)

def panic (message : String) : Device := { d with panics := d.panics ++ [message] }

def setHandle (h : Handle) : Device := { d with handles := Function.update d.handles p h }

/-- `std::fill_n` with zeros. -/
def clear (buffer size : Nat) : Device :=
  { d with dmaBufferPool := fun a => if buffer ≤ a ∧ a < buffer + size then 0 else d.dmaBufferPool a }

end Device

def stopDma (h : Handle) : Handle :=
  if h.init.isSome ∧ h.dmaHandle.isSome then { h with transfer := none } else h

def configurePeripheral (cfg : Config) (channelCount : Nat) (h : Handle) : Handle :=
  { h with
    init := some
      { clockPrescaler := cfg.prescaler
        resolution := cfg.resolution
        scanConvMode := 1 < channelCount
        eocSelection := if 1 < channelCount then .seqConv else .singleConv
        nbrOfConversion := channelCount } }

/-! ## init -/

structure Instance where
  handle : Option (Fin 3) := none
  channel : Channel := .ch 0
  sampleTime : SampleTime := .cycles8p5
  resolution : Resolution := .bits12
  dmaSlot : Option Nat := none

def peripheralFromIndex : Fin 3 → Peripheral
  | 0 => .adc1
  | 1 => .adc2
  | 2 => .adc3

def isResolvedConfig (cfg : Config) : Bool := cfg.peripheral ≠ .auto ∧ cfg.channel ≠ .auto

/-- `instance_ranks` where `instance_cfg_valid`, and `periph_channel_counts`. -/
def countChannels (counts : Fin 3 → Nat) : List Config → List (Option Nat) × (Fin 3 → Nat)
  | [] => ([], counts)
  | cfg :: rest =>
    if isResolvedConfig cfg then
      let pidx := peripheralIndex cfg.peripheral
      let counted := countChannels (Function.update counts pidx (counts pidx + 1)) rest
      (some (counts pidx) :: counted.1, counted.2)
    else
      let counted := countChannels counts rest
      (none :: counted.1, counted.2)

/-- The loop that configures the channels of a peripheral; false is `config_error`. -/
def configChannels (hal : Hal) (peripheral : Peripheral) : Nat → List Config → Handle → Handle × Bool
  | _, [], h => (h, true)
  | rank, cfg :: rest, h =>
    if cfg.peripheral ≠ peripheral then configChannels hal peripheral rank rest h
    else if hal.configChannel (peripheralIndex peripheral) (regularRank rank) then
      configChannels hal peripheral (rank + 1) rest
        { h with sequence := Function.update h.sequence (regularRank rank) (some (cfg.channel, cfg.sampleTime)) }
    else (h, false)

section

variable (sizes : BufferSizes) (runtimeCfgs : List Config) (dmaPeripherals : List DmaModel.Handle) (hal : Hal)
  (counts : Fin 3 → Nat)

/-- What is done once the buffer and the DMA instance are there. -/
def startPeripheral (firstCfg : Config) (buffer dma : Nat) (pidx : Fin 3) (d : Device) : Device × Bool :=
  let peripheral := peripheralFromIndex pidx
  let d := d.clear buffer (sizes.bufferSizeFor peripheral)
  let h := configurePeripheral firstCfg (counts pidx) { d.handles pidx with dmaHandle := some dma }
  if hal.init pidx then
    match configChannels hal peripheral 0 runtimeCfgs h with
    | (h, false) => ((d.setHandle pidx h).panic "ADC channel configuration failed", false)
    | (h, true) =>
      if hal.startDma pidx then (d.setHandle pidx { h with transfer := some (buffer, counts pidx) }, true)
      else ((d.setHandle pidx h).panic "ADC DMA start failed", false)
  else ((d.setHandle pidx h).panic "ADC Init failed", false)

/-- One turn of the loop over the peripherals; the result is `periph_ready`. -/
def initPeripheral (pidx : Fin 3) (d : Device) : Device × Bool :=
  if counts pidx = 0 then (d, false)
  else
    match runtimeCfgs.find? fun cfg => cfg.peripheral = peripheralFromIndex pidx with
    | none => (d, false)
    | some firstCfg =>
      let d := d.setHandle pidx (stopDma (d.handles pidx))
      match DmaModel.findDmaInstance firstCfg.dmaRequest dmaPeripherals with
      | none => (d.panic "ADC DMA instance unavailable", false)
      | some dma =>
        match sizes.getDmaBuffer (peripheralFromIndex pidx) with
        | .error message => (d.panic message, false)
        | .ok buffer => startPeripheral sizes runtimeCfgs hal counts firstCfg buffer dma pidx d

def initPeripherals : List (Fin 3) → (Fin 3 → Bool) → Device → Device × (Fin 3 → Bool)
  | [], ready, d => (d, ready)
  | pidx :: rest, ready, d =>
    let started := initPeripheral sizes runtimeCfgs dmaPeripherals hal counts pidx d
    initPeripherals rest (Function.update ready pidx started.2) started.1

/-- The last loop; no rank is a configuration that is not valid. -/
def fillInstance (ready : Fin 3 → Bool) (cfg : Config) : Option Nat → Instance
  | none => {}
  | some rank =>
    let pidx := peripheralIndex cfg.peripheral
    { handle := if ready pidx then some pidx else none
      channel := cfg.channel
      sampleTime := cfg.sampleTime
      resolution := cfg.resolution
      dmaSlot := if ready pidx then sizes.getDmaSlot cfg.peripheral rank else none }

def init (d : Device) : Device × List Instance :=
  let unresolved := runtimeCfgs.filter fun cfg => !isResolvedConfig cfg
  let d := unresolved.foldl (fun d _ => d.panic "ADC config unresolved (AUTO)") d
  let counted := countChannels (fun _ => 0) runtimeCfgs
  let started := initPeripherals sizes runtimeCfgs dmaPeripherals hal counted.2 [0, 1, 2] (fun _ => false) d
  (started.1, List.zipWith (fillInstance sizes started.2) runtimeCfgs counted.1)

end

end StLib.Adc.Init
