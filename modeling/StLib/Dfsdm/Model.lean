import Mathlib
import StLib.Base.FinLiterals
import StLib.Base.RegisterBits

/-! # Channels and filters of the DFSDM

`DFSDM.hpp`: the entries of the channels, the filter registers that are computed from them,
`build` and `calculate_buffer_sizes`, with the bit positions of the STM32H723. A
`compile_error` is a rejection. The registers of the channels, the pins, the latencies and
the callbacks are left out; of the one of the conversions stands whether there is one. -/
namespace StLib.Dfsdm.Model

open StLib.Base.RegisterBits

abbrev Word := BitVec 32

inductive FilterType
  | fastSinc
  | sinc1
  | sinc2
  | sinc3
  | sinc4
  | sinc5
deriving DecidableEq

def FilterType.code : FilterType → Word
  | fastSinc => 0
  | sinc1 => 1
  | sinc2 => 2
  | sinc3 => 3
  | sinc4 => 4
  | sinc5 => 5

inductive TypeConversion
  | regular
  | injected
deriving DecidableEq

inductive InjectedMode
  | single
  | scan
deriving DecidableEq

def InjectedMode.code : InjectedMode → Word
  | single => 0
  | scan => 1

inductive RegularMode
  | single
  | continuous
deriving DecidableEq

def RegularMode.code : RegularMode → Word
  | single => 0
  | continuous => 1

inductive SyncConversion
  | independent
  | syncWithFlt0
deriving DecidableEq

def SyncConversion.code : SyncConversion → Word
  | independent => 0
  | syncWithFlt0 => 1

inductive AnalogWatchdogMode
  | afterFilter
  | channelData
deriving DecidableEq

def AnalogWatchdogMode.code : AnalogWatchdogMode → Word
  | afterFilter => 0
  | channelData => 1

inductive TriggerTimerSource
  | unused
  | tim1
  | tim3
  | tim4
  | tim7
  | tim8
  | tim16
  | tim23
  | tim24
  | exti11
  | exti15
  | lptim1
  | lptim2
  | lptim3
deriving DecidableEq

/-- `get_trigger`. -/
def getTrigger : TriggerTimerSource → Word
  | .tim1 => 0
  | .tim3 => 4
  | .tim4 => 5
  | .tim7 => 8
  | .tim8 => 2
  | .tim16 => 6
  | .tim23 => 11
  | .tim24 => 12
  | .exti11 => 24
  | .exti15 => 25
  | .lptim1 => 26
  | .lptim2 => 27
  | .lptim3 => 28
  | .unused => 0

/-- `Config_Filter`; what is enabled or disabled is a `Bool`. -/
structure ConfigFilter where
  filter : Fin 4 := 0
  triggerConv : TriggerTimerSource := .unused
  filterType : FilterType := .fastSinc
  oversampling : BitVec 16 := 32
  integrator : BitVec 16 := 1
  typeConv : TypeConversion := .regular
  dma : Bool := false
  fast : Bool := false
  rsync : SyncConversion := .independent
  rcont : RegularMode := .single
  jscan : InjectedMode := .scan
  overrun : Bool := false
  watchdog : Bool := false
  watchdogMode : AnalogWatchdogMode := .afterFilter
  watchdogLowThreshold : Word := 0x10000000
  watchdogHighThreshold : Word := 0x7FFFFFFF
  conversionCompleteCallback : Bool := false

/-- The values of `size_t`. -/
def sizeLimit : Nat := 2 ^ 32

theorem one_lt_sizeLimit : 1 < sizeLimit := by decide

structure Entry where
  extremeDetector : Bool := false
  configFilter : ConfigFilter
  channel : Fin 8
  bufferSize : Nat
  fits : bufferSize < sizeLimit := by decide

def Entry.filter (e : Entry) : Fin 4 := e.configFilter.filter

structure FilterConfig where
  fltcr1 : Word := 0
  fltcr2 : Word := 0
  fltfcr : Word := 0
  fltawhtr : Word := 0
  fltawltr : Word := 0
  fltjchgr : Word := 0
deriving DecidableEq

structure Config where
  initDataFilter : FilterConfig := {}
  typeConv : TypeConversion := .regular
  dmaEnable : Bool := false
  filter : Fin 4 := 0
  channel : Fin 8 := 0
  bufferSize : Nat := 0
  bufferPosIni : Nat := 0
  conversionCompleteCallback : Bool := false

/-! ## Registers of a filter -/

def code (enable : Bool) : Word := if enable then 1 else 0

def fltcr2Jeocie : Word := bit 0

def fltcr2Reocie : Word := bit 1

def fltcr2Jovrie : Word := bit 2

def fltcr2Rovrie : Word := bit 3

def fltcr2Awdie : Word := bit 4

def fltcr2Scdie : Word := bit 5

def fltcr2Ckabie : Word := bit 6

def fltcr2ExchPos : Nat := 8

def fltcr2AwdchPos : Nat := 16

def makeFltfcr (e : Entry) : Word :=
  (e.configFilter.filterType.code <<< 29) |||
    ((e.configFilter.oversampling.setWidth 32 - 1) <<< 16) |||
      (e.configFilter.integrator.setWidth 32 - 1)

def makeFltcr2Global : Word := fltcr2Ckabie ||| fltcr2Scdie

def makeFltcr2 (e : Entry) : Word :=
  let v : Word := 0
  let v :=
    if e.configFilter.dma = false ∨ e.configFilter.conversionCompleteCallback then
      v ||| fltcr2Reocie ||| fltcr2Jeocie
    else v
  let v :=
    if e.configFilter.watchdog then v ||| fltcr2Awdie ||| bit (fltcr2AwdchPos + e.channel) else v
  let v := if e.extremeDetector then v ||| bit (fltcr2ExchPos + e.channel) else v
  if e.configFilter.overrun then v ||| fltcr2Jovrie ||| fltcr2Rovrie else v

def makeFltcr1 (e : Entry) (filter : Fin 4) : Word :=
  let v : Word :=
    match e.configFilter.typeConv with
    | .regular =>
      (code e.configFilter.dma <<< 21) ||| (code e.configFilter.fast <<< 29) |||
        (e.configFilter.rsync.code <<< 19) ||| (e.configFilter.rcont.code <<< 18)
    | .injected =>
      let v := (e.configFilter.jscan.code <<< 4) ||| (code e.configFilter.dma <<< 5)
      if e.configFilter.triggerConv = .unused then v
      else
        let v := v ||| bit 13
        let v := if filter = 0 then v ||| (getTrigger e.configFilter.triggerConv <<< 8) else v
        if e.configFilter.rsync = .syncWithFlt0 then v ||| bit 3
        else v ||| (getTrigger e.configFilter.triggerConv <<< 8)
  v ||| (e.configFilter.watchdogMode.code <<< 30)

/-- `make_fltawhtr` and `make_fltawltr`. -/
def makeThreshold (mode : AnalogWatchdogMode) (threshold : Word) : Word :=
  match mode with
  | .channelData => (threshold &&& 0xFFFF) <<< (8 + 8)
  | .afterFilter => (threshold &&& 0xFFFFFF) <<< 8

def makeFltawhtr (e : Entry) : Word :=
  makeThreshold e.configFilter.watchdogMode e.configFilter.watchdogHighThreshold

def makeFltawltr (e : Entry) : Word :=
  makeThreshold e.configFilter.watchdogMode e.configFilter.watchdogLowThreshold

/-! ## `build` -/

/-- The configuration of an entry before its filter is shared. -/
def Entry.config (e : Entry) : Config where
  initDataFilter :=
    { fltcr1 := makeFltcr1 e e.filter
      fltcr2 := makeFltcr2 e ||| if e.filter = 0 then makeFltcr2Global else 0
      fltfcr := makeFltfcr e
      fltawhtr := makeFltawhtr e
      fltawltr := makeFltawltr e
      fltjchgr := if e.configFilter.typeConv = .injected then bit e.channel else 0 }
  typeConv := e.configFilter.typeConv
  dmaEnable := e.configFilter.dma
  filter := e.filter
  channel := e.channel
  bufferSize := e.bufferSize
  conversionCompleteCallback := e.configFilter.conversionCompleteCallback

/-- The arrays of `build` after `i` entries. -/
structure Builder where
  i : Nat := 0
  cfgs : Nat → Config := fun _ => {}
  channelsUsed : Fin 8 → Bool := fun _ => false
  filtersUsed : Fin 4 → Option Nat := fun _ => none
  channelOrder : Fin 8 → Option Nat := fun _ => none

/-- The registers that two channels of a filter must agree in. -/
def Config.agrees (c d : Config) : Bool :=
  c.initDataFilter.fltcr1 = d.initDataFilter.fltcr1 &&
    c.initDataFilter.fltcr2 &&& 0xFF = d.initDataFilter.fltcr2 &&& 0xFF &&
      c.initDataFilter.fltfcr = d.initDataFilter.fltfcr &&
        c.initDataFilter.fltawltr = d.initDataFilter.fltawltr &&
          c.initDataFilter.fltawhtr = d.initDataFilter.fltawhtr && c.dmaEnable = d.dmaEnable

/-- A configuration with the channel masks of another one. -/
def Config.share (c d : Config) : Config :=
  { c with
    initDataFilter :=
      { c.initDataFilter with
        fltjchgr := c.initDataFilter.fltjchgr ||| d.initDataFilter.fltjchgr
        fltcr2 := c.initDataFilter.fltcr2 ||| d.initDataFilter.fltcr2 } }

def Config.copyMasks (c d : Config) : Config :=
  { c with
    initDataFilter :=
      { c.initDataFilter with
        fltjchgr := d.initDataFilter.fltjchgr
        fltcr2 := d.initDataFilter.fltcr2 } }

/-- The last channel of the filter before this one is the one that the masks are shared
with. -/
def Builder.add (b : Builder) (e : Entry) : Option Builder :=
  if b.channelsUsed e.channel then none
  else
    let cfg := e.config
    let cfgs? :=
      match b.filtersUsed e.filter with
      | none => some (Function.update b.cfgs b.i cfg)
      | some p =>
        if (b.cfgs p).agrees cfg then
          let shared := (b.cfgs p).share cfg
          some (Function.update (Function.update b.cfgs p shared) b.i (cfg.copyMasks shared))
        else none
    cfgs?.map fun cfgs =>
      { i := b.i + 1
        cfgs
        channelsUsed := Function.update b.channelsUsed e.channel true
        filtersUsed := Function.update b.filtersUsed e.filter (some b.i)
        channelOrder := Function.update b.channelOrder e.channel (some b.i) }

def Builder.addAll : List Entry → Builder → Option Builder
  | [], b => some b
  | e :: rest, b => (b.add e).bind (addAll rest)

/-- `channels_filter`. -/
abbrev Sizes := Fin 4 → Fin 8 → BitVec 8

def activeChannels (sizes : Fin 8 → BitVec 8) : Nat :=
  (List.finRange 8).countP fun j => sizes j != 0

/-- The second loop, from the `i`-th entry on. -/
def validate (cfgs : Nat → Config) : Nat → List Entry → Sizes → Bool
  | _, [], _ => true
  | i, e :: rest, sizes =>
    let cfg := cfgs i
    let sizes := Function.update sizes cfg.filter
      (Function.update (sizes cfg.filter) cfg.channel (BitVec.ofNat 8 cfg.bufferSize))
    let active := activeChannels (sizes cfg.filter)
    if active > 1 ∧ e.configFilter.typeConv = .regular then false
    else if active > 1 ∧ cfg.dmaEnable then
      if e.configFilter.jscan = .single then false
      else if (List.finRange 8).any fun j => decide (sizes cfg.filter j > 1) then false
      else validate cfgs (i + 1) rest sizes
    else validate cfgs (i + 1) rest sizes

def Config.place (c : Config) (pos : BitVec 8) : Config := { c with bufferPosIni := pos.toNat }

/-- The third loop, over the channels. `pos` is `buffer_pos`, which is narrow. -/
def givePositions (order : Fin 8 → Option Nat) :
    List (Fin 8) → (Fin 4 → BitVec 8) → (Nat → Config) → Nat → Config
  | [], _, cfgs => cfgs
  | c :: rest, pos, cfgs =>
    match order c with
    | none => givePositions order rest pos cfgs
    | some i =>
      let cfg := cfgs i
      givePositions order rest
        (Function.update pos cfg.filter (pos cfg.filter + BitVec.ofNat 8 cfg.bufferSize))
        (Function.update cfgs i (cfg.place (pos cfg.filter)))

def build (entries : List Entry) : Option (List Config) :=
  (Builder.addAll entries {}).bind fun b =>
    if validate b.cfgs 0 entries (fun _ _ => 0) then
      some ((List.range entries.length).map
        (givePositions b.channelOrder (List.finRange 8) (fun _ => 0) b.cfgs))
    else none

/-- `calculate_buffer_sizes`. -/
def calculateBufferSizes : List Config → (Fin 4 → Nat) → Fin 4 → Nat
  | [], sizes => sizes
  | cfg :: rest, sizes =>
    let size :=
      match cfg.typeConv with
      | .regular => max cfg.bufferSize (sizes cfg.filter)
      | .injected => (sizes cfg.filter + cfg.bufferSize) % sizeLimit
    calculateBufferSizes rest (Function.update sizes cfg.filter size)

def bufferSizes (cfgs : List Config) : Fin 4 → Nat := calculateBufferSizes cfgs fun _ => 0

end StLib.Dfsdm.Model
