import Mathlib
import StLib.Board.Model

/-! # The DMA of a board

`DMADomain::build` with the settings of each stream, what the ADC and DFSDM domains
contribute, `BuildUtils`, and `DMADomain::Init`. The bursts, which are single for every
entry, and the interrupts are left out. -/
namespace StLib.Board.DmaModel

open Domains
open Model (Ctx)

/-! ## The settings of a stream -/

/-- `DMA_REQUEST_` and the source of the request. -/
inductive Request
  | mem2mem
  | adc1
  | adc2
  | adc3
  | i2c1Rx
  | i2c1Tx
  | i2c2Rx
  | i2c2Tx
  | i2c3Rx
  | i2c3Tx
  | i2c5Rx
  | i2c5Tx
  | spi1Rx
  | spi1Tx
  | spi2Rx
  | spi2Tx
  | spi3Rx
  | spi3Tx
  | spi4Rx
  | spi4Tx
  | spi5Rx
  | spi5Tx
  | fmacWrite
  | fmacRead
  | dfsdm1Flt0
  | dfsdm1Flt1
  | dfsdm1Flt2
  | dfsdm1Flt3
deriving DecidableEq

/-- The values that the HAL gives the requests. -/
abbrev Numbers := Request → BitVec 32

/-- The values in `stm32h7xx_hal_mock.h`. -/
def mockNumbers : Numbers := fun request => BitVec.ofNat 32 request.ctorIdx

inductive Direction
  | periphToMemory
  | memoryToPeriph
  | memoryToMemory
deriving DecidableEq

inductive DataAlignment
  | byte
  | halfword
  | word
deriving DecidableEq

inductive Mode
  | normal
  | circular
deriving DecidableEq

inductive Priority
  | low
  | high
deriving DecidableEq

inductive FifoThreshold
  | quarterFull
  | halfFull
  | full
deriving DecidableEq

/-- `DMA_InitTypeDef`; the defaults are what its zero stands for. -/
structure InitTypeDef where
  request : BitVec 32 := 0
  direction : Direction := .periphToMemory
  periphInc : Bool := false
  memInc : Bool := false
  periphDataAlignment : DataAlignment := .byte
  memDataAlignment : DataAlignment := .byte
  mode : Mode := .normal
  priority : Priority := .low
  fifoMode : Bool := false
  fifoThreshold : FifoThreshold := .quarterFull
deriving DecidableEq

def isSpi (p : Dma.Peripheral) : Bool := p ∈ [.spi1, .spi2, .spi3, .spi4, .spi5, .spi6]

def isI2c (p : Dma.Peripheral) : Bool := p ∈ [.i2c1, .i2c2, .i2c3, .i2c5]

def isFmac (p : Dma.Peripheral) : Bool := p = .fmac

def isNone (p : Dma.Peripheral) : Bool := p = .none

def isDfsdm (p : Dma.Peripheral) : Bool :=
  p ∈ [.dfsdmFilter0, .dfsdmFilter1, .dfsdmFilter2, .dfsdmFilter3]

def getRequest : Dma.Peripheral → Nat → Except String Request
  | .none, _ => .ok .mem2mem
  | .adc1, _ => .ok .adc1
  | .adc2, _ => .ok .adc2
  | .adc3, _ => .ok .adc3
  | .i2c1, 0 => .ok .i2c1Rx
  | .i2c1, 1 => .ok .i2c1Tx
  | .i2c2, 0 => .ok .i2c2Rx
  | .i2c2, 1 => .ok .i2c2Tx
  | .i2c3, 0 => .ok .i2c3Rx
  | .i2c3, 1 => .ok .i2c3Tx
  | .i2c5, 0 => .ok .i2c5Rx
  | .i2c5, 1 => .ok .i2c5Tx
  | .spi1, 0 => .ok .spi1Rx
  | .spi1, 1 => .ok .spi1Tx
  | .spi2, 0 => .ok .spi2Rx
  | .spi2, 1 => .ok .spi2Tx
  | .spi3, 0 => .ok .spi3Rx
  | .spi3, 1 => .ok .spi3Tx
  | .spi4, 0 => .ok .spi4Rx
  | .spi4, 1 => .ok .spi4Tx
  | .spi5, 0 => .ok .spi5Rx
  | .spi5, 1 => .ok .spi5Tx
  | .fmac, 0 => .ok .mem2mem
  | .fmac, 1 => .ok .fmacWrite
  | .fmac, 2 => .ok .fmacRead
  | .dfsdmFilter0, _ => .ok .dfsdm1Flt0
  | .dfsdmFilter1, _ => .ok .dfsdm1Flt1
  | .dfsdmFilter2, _ => .ok .dfsdm1Flt2
  | .dfsdmFilter3, _ => .ok .dfsdm1Flt3
  | _, _ => .error "Invalid DMA request configuration"

def getDirection (p : Dma.Peripheral) (i : Nat) : Direction :=
  if isFmac p && i == 0 || isNone p then .memoryToMemory
  else if isI2c p && i == 1 || isSpi p && i == 1 || isFmac p && i == 1 then .memoryToPeriph
  else .periphToMemory

def getPeriphInc (p : Dma.Peripheral) (i : Nat) : Bool := isFmac p && i == 0 || isNone p

def getMemInc (p : Dma.Peripheral) (i : Nat) : Bool := !(isFmac p && i == 0)

def getPeriphDataAlignment (p : Dma.Peripheral) : DataAlignment :=
  if isSpi p || isI2c p then .byte
  else if isNone p || isDfsdm p then .word
  else .halfword

def getMemDataAlignment (p : Dma.Peripheral) : DataAlignment :=
  if isI2c p then .word
  else if isSpi p then .byte
  else .halfword

def getMode (p : Dma.Peripheral) : Mode :=
  if isSpi p || isFmac p || isNone p then .normal else .circular

def getPriority (p : Dma.Peripheral) : Priority := if isFmac p then .high else .low

def getFifoMode (p : Dma.Peripheral) : Bool := isFmac p

def getFifoThreshold (p : Dma.Peripheral) : FifoThreshold := if isSpi p then .full else .halfFull

/-! ## build -/

structure Config where
  peripheral : Dma.Peripheral
  dmaInit : InitTypeDef
  stream : Dma.Stream
  id : Nat
deriving DecidableEq

variable (number : Numbers)

/-- `DMA_InitStruct`. -/
def initStruct (p : Dma.Peripheral) (i : Nat) : Except String InitTypeDef := do
  let request ← getRequest p i
  return { request := number request
           direction := getDirection p i
           periphInc := getPeriphInc p i
           memInc := getMemInc p i
           periphDataAlignment := getPeriphDataAlignment p
           memDataAlignment := getMemDataAlignment p
           mode := getMode p
           priority := getPriority p
           fifoMode := getFifoMode p
           fifoThreshold := getFifoThreshold p }

/-- The last pass. -/
def configure : List Dma.Entry → Except String (List Config)
  | [] => .ok []
  | e :: rest => do
    let dmaInit ← initStruct number e.peripheral e.id
    let cfgs ← configure rest
    return { peripheral := e.peripheral, dmaInit := dmaInit, stream := e.stream, id := e.id } :: cfgs

/-- `DMADomain::build<N>`. -/
def build (n : Nat) (instances : List Dma.Entry) : Except String (List Config) := do
  if instances.length ≠ n then throw "DMA entry count mismatch"
  let used ← Dma.markStreams (fun _ => false) instances
  let ents ← Dma.assignStreams used instances
  checkEarlier (fun prev e => prev.stream == e.stream) "DMA stream already in use" ents
  configure number ents

/-! ## Contributions -/

/-- A domain whose peripherals need DMA entries, on a board: the peripherals in the order of
the loops, which of them are in use, and the errors. -/
structure Contributor where
  peripherals : List Dma.Peripheral
  uses : Dma.Peripheral → Bool
  idError : String
  manyError : String
  sizeError : String

/-- `ADCDomain`. -/
def adcContributor (cfgs : List Adc.Config) : Contributor where
  peripherals := [.adc1, .adc2, .adc3]
  uses p := cfgs.any fun c => c.peripheral.dmaPeripheral == p
  idError := "ADC: DMA for ADC peripherals must use stream id 0"
  manyError := "ADC: multiple DMA streams configured for the same ADC peripheral"
  sizeError := "ADC: DMA contribution size mismatch"

/-- `DFSDM_CHANNEL_DOMAIN`. -/
def dfsdmContributor (cfgs : List DfsdmChannel.Config) : Contributor where
  peripherals := [.dfsdmFilter0, .dfsdmFilter1, .dfsdmFilter2, .dfsdmFilter3]
  uses p := cfgs.any fun c => DfsdmChannel.dmaFilter c.filter == p && c.dmaEnable
  idError := "DFSDM: DMA for DFSDM filters must use stream id 0"
  manyError := "DFSDM: multiple DMA streams configured for the same DFSDM filter"
  sizeError := "DFSDM: DMA contribution size mismatch"

namespace Contributor

variable (c : Contributor) (entries : List Dma.Entry)

/-- The loop of `dma_contribution_count`. -/
def countFrom : List Dma.Peripheral → Nat → Except String Nat
  | [], count => .ok count
  | p :: rest, count =>
    if c.uses p then do
      let existing ← Dma.entriesFor c.idError p entries
      if 1 < existing then throw c.manyError
      countFrom rest (if existing = 0 then count + 1 else count)
    else countFrom rest count

def dmaContributionCount : Except String Nat := c.countFrom entries c.peripherals 0

/-- The loop of `build_dma_contributions`; the cursor is the number of the entries so far. -/
def fill (extraN : Nat) : List Dma.Peripheral → List Dma.Entry → Except String (List Dma.Entry)
  | [], extra => if extra.length ≠ extraN then .error c.sizeError else .ok extra
  | p :: rest, extra =>
    if c.uses p then do
      let existing ← Dma.entriesFor c.idError p entries
      if existing = 0 then
        if extra.length < extraN then
          fill extraN rest (extra ++ [{ peripheral := p, stream := none, id := 0 }])
        else throw "index out of bounds"
      else fill extraN rest extra
    else fill extraN rest extra

def buildDmaContributions (extraN : Nat) : Except String (List Dma.Entry) :=
  c.fill entries extraN c.peripherals []

end Contributor

/-- `merge_dma_entries<TotalN>`. -/
def mergeDmaEntries (totalN : Nat) (baseEntries : List Dma.Entry) (extraEntries : List (List Dma.Entry)) :
    Except String (List Dma.Entry) :=
  if baseEntries.length + (extraEntries.map List.length).sum ≠ totalN then
    .error "DMA merged entry count mismatch"
  else .ok (baseEntries ++ extraEntries.flatten)

/-- Of `Board::build`, what belongs to the DMA. -/
structure DmaBundle where
  adcDmaExtraN : Nat
  adcDmaEntries : List Dma.Entry
  dfsdmDmaExtraN : Nat
  dfsdmDmaEntries : List Dma.Entry
  dmaN : Nat
  merged : List Dma.Entry
  dmaCfgs : List Config
deriving DecidableEq

def buildDma (ctx : Ctx) (adcCfgs : List Adc.Config) (dfsdmCfgs : List DfsdmChannel.Config) :
    Except String DmaBundle := do
  let adc := adcContributor adcCfgs
  let dfsdm := dfsdmContributor dfsdmCfgs
  let adcDmaExtraN ← adc.dmaContributionCount (ctx.entries .dma)
  let adcDmaEntries ← adc.buildDmaContributions (ctx.entries .dma) adcDmaExtraN
  let dfsdmDmaExtraN ← dfsdm.dmaContributionCount (ctx.entries .dma)
  let dfsdmDmaEntries ← dfsdm.buildDmaContributions (ctx.entries .dma) dfsdmDmaExtraN
  let dmaN := ctx.size .dma + adcDmaExtraN + dfsdmDmaExtraN
  let merged ← mergeDmaEntries dmaN (ctx.entries .dma) [adcDmaEntries, dfsdmDmaEntries]
  let dmaCfgs ← build number dmaN merged
  return { adcDmaExtraN := adcDmaExtraN
           adcDmaEntries := adcDmaEntries
           dfsdmDmaExtraN := dfsdmDmaExtraN
           dfsdmDmaEntries := dfsdmDmaEntries
           dmaN := dmaN
           merged := merged
           dmaCfgs := dmaCfgs }

/-! ## init -/

/-- `DMA_HandleTypeDef`; `stream` is `Instance`. -/
structure Handle where
  stream : Dma.Stream := none
  init : InitTypeDef := {}
deriving DecidableEq

/-- `HAL_DMA_Init`: whether it returns `HAL_OK`, and the handle after it. -/
abbrev HalDmaInit := Handle → Bool × Handle

/-- `instances` and `dma_irq_table`, in which an instance stands by its index. -/
structure Instances where
  dmas : List Handle := []
  irqTable : Fin Dma.maxStreams → Option Nat := fun _ => none
  panics : List String := []

/-- One round of `Init<N>::init`. -/
def initInstance (halDmaInit : HalDmaInit) (s : Instances) (c : Config) : Instances :=
  match c.stream with
  | none =>
    { s with
      dmas := s.dmas ++ [{}]
      panics := s.panics ++ ["DMA stream must be selected before init"] }
  | some stream =>
    let r := halDmaInit { stream := some stream, init := c.dmaInit }
    if r.1 then
      { s with
        dmas := s.dmas ++ [r.2]
        irqTable := Function.update s.irqTable stream (some s.dmas.length) }
    else { s with dmas := s.dmas ++ [{}], panics := s.panics ++ ["DMA Init failed"] }

def init (halDmaInit : HalDmaInit) (cfgs : List Config) : Instances :=
  cfgs.foldl (initInstance halDmaInit) {}

/-- `find_dma_instance`: the index of the instance, or no instance. -/
def findDmaInstance (request : BitVec 32) (dmas : List Handle) : Option Nat :=
  dmas.findIdx? fun dma => dma.init.request == request

end StLib.Board.DmaModel
