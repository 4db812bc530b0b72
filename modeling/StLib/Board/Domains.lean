import StLib.Timers.Model

/-! # The domains of a board

`DomainsCtx`: what a request inscribes in each domain and what the domain's `build` makes of
it. `compile_error` is an error. Of an entry stand here the fields that name an entry of
another domain and those that the DMA contributions are made from; fields that only reach a
register are left out, and the checks on them. Each configuration stands with the index of
the entry it is built from. -/
namespace StLib.Board.Domains

inductive Domain
  | mpu
  | gpio
  | timer
  | dma
  | spi
  | digitalOutput
  | digitalInput
  | mdmaPacket
  | sd
  | ethernet
  | adc
  | exti
  | dfsdmChannel
  | dfsdmClk
deriving DecidableEq

/-- `DomainsCtx`. -/
def Domain.all : List Domain :=
  [mpu, gpio, timer, dma, spi, digitalOutput, digitalInput, mdmaPacket, sd, ethernet, adc, exti,
    dfsdmChannel, dfsdmClk]

/-- `max_instances`. -/
def Domain.maxInstances : Domain → Nat
  | mpu => 100
  | gpio => 110
  | timer => Timers.Model.maxInstances
  | dma => 16
  | spi => 6
  | digitalOutput => 110
  | digitalInput => 110
  | mdmaPacket => 50
  | sd => 2
  | ethernet => 1
  | adc => 32
  | exti => 16
  | dfsdmChannel => 8
  | dfsdmClk => 1

/-- `cfgs[i]` is written for `entries[i]`. -/
def inPlace {C : Type} (cfgs : List C) : List (Nat × C) := cfgs.mapIdx fun i c => (i, c)

/-- The check of each entry against those before it. -/
def checkEarlier {E : Type} (clash : E → E → Bool) (message : String) (entries : List E) :
    Except String Unit :=
  if entries.Pairwise fun prev e => clash prev e = false then .ok () else .error message

/-! ## Memory and pins -/

namespace Mpu

inductive MemoryDomain
  | d1
  | d2
  | d3
deriving DecidableEq

inductive MemoryType
  | cached
  | nonCached
deriving DecidableEq

structure Entry where
  memoryDomain : MemoryDomain
  memoryType : MemoryType
  alignment : Nat
  sizeInBytes : Nat

structure Config where
  offset : BitVec 32
  size : Nat
  domain : MemoryDomain
  type : MemoryType

def supportedAlignments : List Nat := [32, 16, 8, 4, 2, 1]

def alignUp (val : BitVec 32) (align : Nat) : BitVec 32 :=
  (val + BitVec.ofNat 32 align - 1) &&& ~~~(BitVec.ofNat 32 align - 1)

/-- `offsets_nc` and `offsets_c`, and `assigned_offsets`. -/
structure Offsets where
  next : MemoryDomain × MemoryType → BitVec 32 := fun _ => 0
  assigned : Nat → BitVec 32 := fun _ => 0

def assign (align : Nat) (o : Offsets) (i : Nat) (e : Entry) : Offsets :=
  if e.alignment = align then
    let place := (e.memoryDomain, e.memoryType)
    let start := alignUp (o.next place) align
    { next := Function.update o.next place (start + BitVec.ofNat 32 e.sizeInBytes)
      assigned := Function.update o.assigned i start }
  else o

def assignedOffsets (entries : List Entry) : Offsets :=
  supportedAlignments.foldl
    (fun o align => entries.zipIdx.foldl (fun o x => assign align o x.2 x.1) o) {}

def build (entries : List Entry) : Except String (List (Nat × Config)) :=
  .ok <| inPlace <| entries.mapIdx fun i e =>
    { offset := (assignedOffsets entries).assigned i
      size := e.sizeInBytes
      domain := e.memoryDomain
      type := e.memoryType }

end Mpu

namespace Gpio

structure Entry where
  port : Nat
  pin : Nat
deriving DecidableEq

structure Config where
  port : Nat
  pin : Nat

def build (entries : List Entry) : Except String (List (Nat × Config)) := do
  checkEarlier (fun prev e => prev.pin == e.pin && prev.port == e.port) "GPIO already inscribed" entries
  return inPlace (entries.map fun e => { port := e.port, pin := e.pin })

end Gpio

/-! ## DMA -/

namespace Dma

inductive Peripheral
  | none
  | adc1
  | adc2
  | adc3
  | i2c1
  | i2c2
  | i2c3
  | i2c5
  | spi1
  | spi2
  | spi3
  | spi4
  | spi5
  | spi6
  | fmac
  | dfsdmFilter0
  | dfsdmFilter1
  | dfsdmFilter2
  | dfsdmFilter3
deriving DecidableEq

/-- `MAX_STREAMS`. -/
abbrev maxStreams : Nat := 16

/-- `none` is `Stream::none`. -/
abbrev Stream := Option (Fin maxStreams)

/-- `peripheral` is the field `instance`. -/
structure Entry where
  peripheral : Peripheral
  stream : Stream
  id : Nat
deriving DecidableEq

structure Config where
  peripheral : Peripheral
  stream : Stream
  id : Nat
deriving DecidableEq

/-- Whether `get_Request` knows the request. -/
def hasRequest : Peripheral → Nat → Bool
  | .i2c1, i | .i2c2, i | .i2c3, i | .i2c5, i => i < 2
  | .spi1, i | .spi2, i | .spi3, i | .spi4, i | .spi5, i => i < 2
  | .spi6, _ => false
  | .fmac, i => i < 3
  | _, _ => true

abbrev UsedStreams := Fin maxStreams → Bool

/-- The first pass: the streams that the entries name. -/
def markStreams (used : UsedStreams) : List Entry → Except String UsedStreams
  | [] => .ok used
  | e :: rest =>
    match e.stream with
    | .none => markStreams used rest
    | some s =>
      if used s then .error "DMA stream already in use"
      else markStreams (Function.update used s true) rest

def firstFree (used : UsedStreams) : Option (Fin maxStreams) :=
  (List.finRange maxStreams).find? fun s => !used s

/-- The second pass: a stream for each entry that names none. -/
def assignStreams (used : UsedStreams) : List Entry → Except String (List Entry)
  | [] => .ok []
  | e :: rest =>
    match e.stream, firstFree used with
    | some _, _ => (assignStreams used rest).map (e :: ·)
    | .none, .none => .error "Not enough DMA streams available"
    | .none, some s =>
      (assignStreams (Function.update used s true) rest).map ({ e with stream := some s } :: ·)

/-- The last pass. -/
def configure : List Entry → Except String (List Config)
  | [] => .ok []
  | e :: rest =>
    if hasRequest e.peripheral e.id then
      (configure rest).map ({ peripheral := e.peripheral, stream := e.stream, id := e.id } :: ·)
    else .error "Invalid DMA request configuration"

def build (entries : List Entry) : Except String (List (Nat × Config)) := do
  let used ← markStreams (fun _ => false) entries
  let ents ← assignStreams used entries
  checkEarlier (fun prev e => prev.stream == e.stream) "DMA stream already in use" ents
  let cfgs ← configure ents
  return inPlace cfgs

/-- The entries of a peripheral, which must have the stream id 0. -/
def entriesFor (idError : String) (peripheral : Peripheral) : List Entry → Except String Nat
  | [] => .ok 0
  | e :: rest =>
    if e.peripheral ≠ peripheral then entriesFor idError peripheral rest
    else if e.id ≠ 0 then .error idError
    else (entriesFor idError peripheral rest).map (· + 1)

/-- The loop of `build_dma_contributions`: an entry for each peripheral in use that has none;
`dma_contribution_count` is the length. -/
def contributions (uses : Peripheral → Bool) (idError manyError : String) (entries : List Entry) :
    List Peripheral → Except String (List Entry)
  | [] => .ok []
  | p :: rest =>
    if uses p then
      match entriesFor idError p entries with
      | .error m => .error m
      | .ok 0 =>
        (contributions uses idError manyError entries rest).map
          ({ peripheral := p, stream := .none, id := 0 } :: ·)
      | .ok 1 => contributions uses idError manyError entries rest
      | .ok (_ + 2) => .error manyError
    else contributions uses idError manyError entries rest

end Dma

/-! ## Devices over pins, buffers and streams -/

namespace Spi

inductive Peripheral
  | spi1
  | spi2
  | spi3
  | spi4
  | spi5
  | spi6
deriving DecidableEq

def Peripheral.dmaPeripheral : Peripheral → Dma.Peripheral
  | spi1 => .spi1
  | spi2 => .spi2
  | spi3 => .spi3
  | spi4 => .spi4
  | spi5 => .spi5
  | spi6 => .spi6

structure Entry where
  peripheral : Peripheral
  sckGpioIdx : Nat
  misoGpioIdx : Nat
  mosiGpioIdx : Nat
  nssGpioIdx : Option Nat
  dmaRxIdx : Nat
  dmaTxIdx : Nat

abbrev Config := Entry

def build (entries : List Entry) : Except String (List (Nat × Config)) := do
  checkEarlier (fun prev e => prev.peripheral == e.peripheral) "SPI peripheral already used" entries
  return inPlace entries

end Spi

namespace Digital

/-- `DigitalOutputDomain::Entry` and `DigitalInputDomain::Entry`. -/
structure Entry where
  gpioIdx : Nat

structure Config where
  gpioIdx : Nat

def build (entries : List Entry) : Except String (List (Nat × Config)) :=
  .ok <| inPlace <| entries.map fun e => { gpioIdx := e.gpioIdx }

end Digital

namespace MdmaPacket

structure Entry where
  packetMpuIndex : Nat
  nodesMpuIndex : Nat

structure Config where
  packetMpuIndex : Nat
  nodesMpuIndex : Nat

def build (entries : List Entry) : Except String (List (Nat × Config)) :=
  .ok <| inPlace <| entries.map fun e =>
    { packetMpuIndex := e.packetMpuIndex, nodesMpuIndex := e.nodesMpuIndex }

end MdmaPacket

namespace Sd

inductive Peripheral
  | sdmmc1
  | sdmmc2
deriving DecidableEq

structure Entry where
  peripheral : Peripheral
  mpuBuffer0Idx : Nat
  mpuBuffer1Idx : Nat
  cdPinIdx : Option Nat
  wpPinIdx : Option Nat
  cmdPinIdx : Nat
  ckPinIdx : Nat
  d0PinIdx : Nat
  d1PinIdx : Nat
  d2PinIdx : Nat
  d3PinIdx : Nat

abbrev Config := Entry

def build (entries : List Entry) : Except String (List (Nat × Config)) := do
  checkEarlier (fun prev e => prev.peripheral == e.peripheral)
    "SDMMC peripheral used multiple times in SdDomain" entries
  return inPlace entries

end Sd

namespace Ethernet

structure Entry where
  phyResetId : Nat

structure Config where
  phyResetId : Nat

def build : List Entry → Except String (List (Nat × Config))
  | [] => .ok []
  | [e] => .ok [(0, { phyResetId := e.phyResetId })]
  | _ => .error "EthernetDomain supports at most one instance"

end Ethernet

namespace Adc

inductive Peripheral
  | adc1
  | adc2
  | adc3
deriving DecidableEq

def Peripheral.dmaPeripheral : Peripheral → Dma.Peripheral
  | adc1 => .adc1
  | adc2 => .adc2
  | adc3 => .adc3

/-- `peripheral` and `channel` as `resolve_mapping` gives them. -/
structure Entry where
  gpioIdx : Nat
  peripheral : Peripheral
  channel : Nat

abbrev Config := Entry

def build (entries : List Entry) : Except String (List (Nat × Config)) := do
  checkEarlier (fun prev e => prev.gpioIdx == e.gpioIdx) "ADC: GPIO already used" entries
  checkEarlier (fun prev e => prev.peripheral == e.peripheral && prev.channel == e.channel)
    "ADC: duplicate channel on same peripheral" entries
  return inPlace entries

def dmaContributions (cfgs : List Config) (entries : List Dma.Entry) : Except String (List Dma.Entry) :=
  Dma.contributions (fun p => cfgs.any fun c => c.peripheral.dmaPeripheral == p)
    "ADC: DMA for ADC peripherals must use stream id 0"
    "ADC: multiple DMA streams configured for the same ADC peripheral"
    entries [.adc1, .adc2, .adc3]

end Adc

namespace Exti

structure Entry where
  pinIdx : Nat
  pin : Nat

structure Config where
  pinIdx : Nat
  interruptNum : Nat

def build (entries : List Entry) : Except String (List (Nat × Config)) := do
  if entries.any fun e => 16 ≤ e.pin then throw "Invalid Pin for EXTI"
  checkEarlier (fun prev e => prev.pin == e.pin)
    "EXTI line already used (Hardware Conflict: Pins with same number share EXTI Line)" entries
  return inPlace (entries.map fun e => { pinIdx := e.pinIdx, interruptNum := e.pin })

end Exti

namespace DfsdmChannel

structure Entry where
  gpioIdx : Nat
  channel : Nat
  filter : Fin 4
  dma : Bool

/-- `dmaEnable` is the filter's `dma`. -/
structure Config where
  gpioIdx : Nat
  channel : Nat
  filter : Fin 4
  dmaEnable : Bool

def dmaFilter (filter : Fin 4) : Dma.Peripheral :=
  match filter with
  | 0 => .dfsdmFilter0
  | 1 => .dfsdmFilter1
  | 2 => .dfsdmFilter2
  | 3 => .dfsdmFilter3

def build (entries : List Entry) : Except String (List (Nat × Config)) := do
  checkEarlier (fun prev e => prev.channel == e.channel) "You have two pins using the same channel" entries
  checkEarlier (fun prev e => prev.filter == e.filter && prev.dma != e.dma)
    "You have two channels that goes to the same filter with different filter configuration" entries
  return inPlace <| entries.map fun e =>
    { gpioIdx := e.gpioIdx, channel := e.channel, filter := e.filter, dmaEnable := e.dma }

def dmaContributions (cfgs : List Config) (entries : List Dma.Entry) : Except String (List Dma.Entry) :=
  Dma.contributions (fun p => cfgs.any fun c => dmaFilter c.filter == p && c.dmaEnable)
    "DFSDM: DMA for DFSDM filters must use stream id 0"
    "DFSDM: multiple DMA streams configured for the same DFSDM filter"
    entries [.dfsdmFilter0, .dfsdmFilter1, .dfsdmFilter2, .dfsdmFilter3]

end DfsdmChannel

namespace DfsdmClk

structure Entry where
  gpioIdx : Nat
  clkDivider : Nat

structure Config where
  gpioIdx : Nat
  clkDivider : Nat

def build (entries : List Entry) : Except String (List (Nat × Config)) := do
  if 1 < entries.length then throw "You can't have more than one clock_out"
  return inPlace (entries.map fun e => { gpioIdx := e.gpioIdx, clkDivider := e.clkDivider })

end DfsdmClk

/-! ## Entries and configurations by domain -/

abbrev Entry : Domain → Type
  | .mpu => Mpu.Entry
  | .gpio => Gpio.Entry
  | .timer => Timers.Model.Entry
  | .dma => Dma.Entry
  | .spi => Spi.Entry
  | .digitalOutput => Digital.Entry
  | .digitalInput => Digital.Entry
  | .mdmaPacket => MdmaPacket.Entry
  | .sd => Sd.Entry
  | .ethernet => Ethernet.Entry
  | .adc => Adc.Entry
  | .exti => Exti.Entry
  | .dfsdmChannel => DfsdmChannel.Entry
  | .dfsdmClk => DfsdmClk.Entry

abbrev Config : Domain → Type
  | .mpu => Mpu.Config
  | .gpio => Gpio.Config
  | .timer => Timers.Model.Config
  | .dma => Dma.Config
  | .spi => Spi.Config
  | .digitalOutput => Digital.Config
  | .digitalInput => Digital.Config
  | .mdmaPacket => MdmaPacket.Config
  | .sd => Sd.Config
  | .ethernet => Ethernet.Config
  | .adc => Adc.Config
  | .exti => Exti.Config
  | .dfsdmChannel => DfsdmChannel.Config
  | .dfsdmClk => DfsdmClk.Config

/-- `build` of each domain. -/
def build (scheduler : Timers.Model.SchedulerTimer) :
    (d : Domain) → List (Entry d) → Except String (List (Nat × Config d))
  | .mpu => Mpu.build
  | .gpio => Gpio.build
  | .timer => Timers.Model.assign scheduler
  | .dma => Dma.build
  | .spi => Spi.build
  | .digitalOutput => Digital.build
  | .digitalInput => Digital.build
  | .mdmaPacket => MdmaPacket.build
  | .sd => Sd.build
  | .ethernet => Ethernet.build
  | .adc => Adc.build
  | .exti => Exti.build
  | .dfsdmChannel => DfsdmChannel.build
  | .dfsdmClk => DfsdmClk.build

end StLib.Board.Domains
