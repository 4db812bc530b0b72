import StLib.Board.Domains

/-! # The board

`ST-LIB.hpp`: `BuildCtx`, the requests of a board and what they inscribe, `Board::build`,
`Board::init` and `Board::instance_of`. A board names request objects, which stand in
`objects` by their number. -/
namespace StLib.Board.Model

open Domains

/-! ## BuildCtx -/

/-- The address of a request object or of a member of one. -/
structure Address where
  object : Nat
  member : List Nat := []
deriving DecidableEq

def Address.sub (a : Address) (n : Nat) : Address := { a with member := a.member ++ [n] }

/-- `storage` and `owners`; the length of a list is the domain's `size`. -/
abbrev Ctx := (d : Domain) → List (Entry d × Address)

def Ctx.empty : Ctx := fun _ => []

/-- `span`. -/
def Ctx.entries (ctx : Ctx) (d : Domain) : List (Entry d) := (ctx d).map Prod.fst

/-- `owners_span`. -/
def Ctx.owners (ctx : Ctx) (d : Domain) : List Address := (ctx d).map Prod.snd

/-- `domain_size`. -/
def Ctx.size (ctx : Ctx) (d : Domain) : Nat := (ctx d).length

/-- `BuildCtx::add`. -/
def add (d : Domain) (e : Entry d) (owner : Address) : StateM Ctx Nat :=
  fun ctx => (ctx.size d, Function.update ctx d (ctx d ++ [(e, owner)]))

/-! ## Request objects -/

inductive Device
  | buffer (e : Mpu.Entry)
  | gpio (e : Gpio.Entry)
  | timer (gpios : List Gpio.Entry) (e : Timers.Model.Entry)
  | dma (peripheral : Dma.Peripheral) (streams : List Dma.Stream)
  | spi (peripheral : Spi.Peripheral) (rxStream txStream : Dma.Stream) (sck miso mosi : Gpio.Entry)
    (nss : Option Gpio.Entry)
  | digitalOutput (gpio : Gpio.Entry)
  | digitalInput (gpio : Gpio.Entry)
  | mdmaPacket (packetReq nodesReq : Mpu.Entry)
  | sdCard (peripheral : Sd.Peripheral) (buffer0 buffer1 : Mpu.Entry) (cd wp : Option Gpio.Entry)
    (cmd ck d0 d1 d2 d3 : Gpio.Entry)
  | ethernet (rmiiGpios : List Gpio.Entry) (rxerGpio : Option Gpio.Entry) (phyReset : Gpio.Entry)
  | adc (gpio : Gpio.Entry) (peripheral : Adc.Peripheral) (channel : Nat)
  | exti (pin : Gpio.Entry)
  | dfsdmChannel (gpio : Gpio.Entry) (channel : Nat) (filter : Fin 4) (dma : Bool)
  | dfsdmClk (gpio : Gpio.Entry) (clkDivider : Nat)
  | protection

/-- `domain`; a protection has none. -/
def Device.domain : Device → Option Domain
  | buffer .. => some .mpu
  | gpio .. => some .gpio
  | timer .. => some .timer
  | dma .. => some .dma
  | spi .. => some .spi
  | digitalOutput .. => some .digitalOutput
  | digitalInput .. => some .digitalInput
  | mdmaPacket .. => some .mdmaPacket
  | sdCard .. => some .sd
  | ethernet .. => some .ethernet
  | adc .. => some .adc
  | exti .. => some .exti
  | dfsdmChannel .. => some .dfsdmChannel
  | dfsdmClk .. => some .dfsdmClk
  | protection => none

/-! ## inscribe -/

def inscribeGpio (e : Gpio.Entry) (this : Address) : StateM Ctx Nat := add .gpio e this

def inscribeBuffer (e : Mpu.Entry) (this : Address) : StateM Ctx Nat := add .mpu e this

/-- The GPIOs at the members from `n` on. -/
def inscribeGpios (this : Address) : Nat → List Gpio.Entry → StateM Ctx Unit
  | _, [] => pure ()
  | n, e :: rest => do
    let _ ← inscribeGpio e (this.sub n)
    inscribeGpios this (n + 1) rest

/-- The streams from the one with the id `id` on; every entry has the same owner. -/
def inscribeDma (peripheral : Dma.Peripheral) (this : Address) :
    Nat → List Dma.Stream → StateM Ctx (List Nat)
  | _, [] => pure []
  | id, stream :: rest => do
    let idx ← add .dma { peripheral := peripheral, stream := stream, id := id } this
    let indices ← inscribeDma peripheral this (id + 1) rest
    return idx :: indices

def inscribeDigitalOutput (gpio : Gpio.Entry) (this : Address) : StateM Ctx Nat := do
  let gpioIdx ← inscribeGpio gpio (this.sub 0)
  add .digitalOutput { gpioIdx := gpioIdx } this

def inscribeDigitalInput (gpio : Gpio.Entry) (this : Address) : StateM Ctx Nat := do
  let gpioIdx ← inscribeGpio gpio (this.sub 0)
  add .digitalInput { gpioIdx := gpioIdx } this

/-- An optional member. -/
def inscribeOption (inscribe : Gpio.Entry → Address → StateM Ctx Nat) (this : Address) :
    Option Gpio.Entry → StateM Ctx (Option Nat)
  | none => pure none
  | some e => do
    let idx ← inscribe e this
    return some idx

def Device.inscribe (this : Address) : Device → StateM Ctx Unit
  | buffer e => do
    let _ ← inscribeBuffer e this
  | gpio e => do
    let _ ← inscribeGpio e this
  | timer gpios e => do
    inscribeGpios this 0 gpios
    let _ ← add .timer e this
  | dma peripheral streams => do
    let _ ← inscribeDma peripheral this 0 streams
  | spi peripheral rxStream txStream sck miso mosi nss => do
    let dmaIndices ← inscribeDma peripheral.dmaPeripheral (this.sub 4) 0 [rxStream, txStream]
    let nssIdx ← inscribeOption inscribeGpio (this.sub 3) nss
    let sckIdx ← inscribeGpio sck (this.sub 0)
    let misoIdx ← inscribeGpio miso (this.sub 1)
    let mosiIdx ← inscribeGpio mosi (this.sub 2)
    let _ ← add .spi
      { peripheral := peripheral
        sckGpioIdx := sckIdx
        misoGpioIdx := misoIdx
        mosiGpioIdx := mosiIdx
        nssGpioIdx := nssIdx
        dmaRxIdx := dmaIndices.getD 0 0
        dmaTxIdx := dmaIndices.getD 1 0 } this
  | digitalOutput pin => do
    let _ ← inscribeDigitalOutput pin this
  | digitalInput pin => do
    let _ ← inscribeDigitalInput pin this
  | mdmaPacket packetReq nodesReq => do
    let pIdx ← inscribeBuffer packetReq (this.sub 0)
    let nIdx ← inscribeBuffer nodesReq (this.sub 1)
    let _ ← add .mdmaPacket { packetMpuIndex := pIdx, nodesMpuIndex := nIdx } this
  | sdCard peripheral buffer0 buffer1 cd wp cmd ck d0 d1 d2 d3 => do
    let buffer0Idx ← inscribeBuffer buffer0 (this.sub 0)
    let buffer1Idx ← inscribeBuffer buffer1 (this.sub 1)
    let cdIdx ← inscribeOption inscribeDigitalInput (this.sub 2) cd
    let wpIdx ← inscribeOption inscribeDigitalInput (this.sub 3) wp
    let cmdIdx ← inscribeGpio cmd (this.sub 4)
    let ckIdx ← inscribeGpio ck (this.sub 5)
    let d0Idx ← inscribeGpio d0 (this.sub 6)
    let d1Idx ← inscribeGpio d1 (this.sub 7)
    let d2Idx ← inscribeGpio d2 (this.sub 8)
    let d3Idx ← inscribeGpio d3 (this.sub 9)
    let _ ← add .sd
      { peripheral := peripheral
        mpuBuffer0Idx := buffer0Idx
        mpuBuffer1Idx := buffer1Idx
        cdPinIdx := cdIdx
        wpPinIdx := wpIdx
        cmdPinIdx := cmdIdx
        ckPinIdx := ckIdx
        d0PinIdx := d0Idx
        d1PinIdx := d1Idx
        d2PinIdx := d2Idx
        d3PinIdx := d3Idx } this
  | ethernet rmiiGpios rxerGpio phyReset => do
    inscribeGpios (this.sub 0) 0 rmiiGpios
    let _ ← inscribeOption inscribeGpio (this.sub 2) rxerGpio
    let phyResetId ← inscribeDigitalOutput phyReset (this.sub 1)
    let _ ← add .ethernet { phyResetId := phyResetId } this
  | adc pin peripheral channel => do
    let gpioIdx ← inscribeGpio pin (this.sub 0)
    let _ ← add .adc { gpioIdx := gpioIdx, peripheral := peripheral, channel := channel } this
  | exti pin => do
    let pinIdx ← inscribeGpio pin (this.sub 0)
    let _ ← add .exti { pinIdx := pinIdx, pin := pin.pin } this
  | dfsdmChannel pin channel filter enable => do
    let gpioIdx ← inscribeGpio pin (this.sub 0)
    let _ ← add .dfsdmChannel { gpioIdx := gpioIdx, channel := channel, filter := filter, dma := enable } this
  | dfsdmClk pin clkDivider => do
    let gpioIdx ← inscribeGpio pin (this.sub 0)
    let _ ← add .dfsdmClk { gpioIdx := gpioIdx, clkDivider := clkDivider } this
  | protection => pure ()

/-- `(devs.inscribe(ctx), ...)`. -/
def inscribeAll (objects : Nat → Device) : List Nat → StateM Ctx Unit
  | [] => pure ()
  | dev :: rest => do
    (objects dev).inscribe { object := dev }
    inscribeAll objects rest

/-- `Board::build_ctx`; an entry beyond `max_instances` is outside of its array. -/
def buildCtx (objects : Nat → Device) (devs : List Nat) : Except String Ctx :=
  let ctx := (inscribeAll objects devs Ctx.empty).2
  if ∀ d ∈ Domain.all, ctx.size d ≤ d.maxInstances then .ok ctx else .error "index out of bounds"

/-! ## build -/

/-- `cfg`. -/
abbrev ConfigBundle := (d : Domain) → List (Nat × Config d)

/-- The entries that `build` adds to those of `DMADomain`. -/
def extraDma (ctx : Ctx) (adcCfgs : List (Nat × Adc.Config))
    (dfsdmCfgs : List (Nat × DfsdmChannel.Config)) : Except String (List Dma.Entry) := do
  let adcEntries ← Adc.dmaContributions (adcCfgs.map Prod.snd) (ctx.entries .dma)
  let dfsdmEntries ← DfsdmChannel.dmaContributions (dfsdmCfgs.map Prod.snd) (ctx.entries .dma)
  return adcEntries ++ dfsdmEntries

/-- `Board::build`. -/
def build (scheduler : Timers.Model.SchedulerTimer) (ctx : Ctx) : Except String ConfigBundle := do
  let adcCfgs ← Domains.build scheduler .adc (ctx.entries .adc)
  let dfsdmCfgs ← Domains.build scheduler .dfsdmChannel (ctx.entries .dfsdmChannel)
  let extra ← extraDma ctx adcCfgs dfsdmCfgs
  let mpuCfgs ← Domains.build scheduler .mpu (ctx.entries .mpu)
  let gpioCfgs ← Domains.build scheduler .gpio (ctx.entries .gpio)
  let timCfgs ← Domains.build scheduler .timer (ctx.entries .timer)
  let dmaCfgs ← Domains.build scheduler .dma (ctx.entries .dma ++ extra)
  let spiCfgs ← Domains.build scheduler .spi (ctx.entries .spi)
  let doutCfgs ← Domains.build scheduler .digitalOutput (ctx.entries .digitalOutput)
  let dinCfgs ← Domains.build scheduler .digitalInput (ctx.entries .digitalInput)
  let mdmaPacketCfgs ← Domains.build scheduler .mdmaPacket (ctx.entries .mdmaPacket)
  let sdCfgs ← Domains.build scheduler .sd (ctx.entries .sd)
  let ethCfgs ← Domains.build scheduler .ethernet (ctx.entries .ethernet)
  let extiCfgs ← Domains.build scheduler .exti (ctx.entries .exti)
  let dfsdmClkCfgs ← Domains.build scheduler .dfsdmClk (ctx.entries .dfsdmClk)
  return fun
    | .mpu => mpuCfgs
    | .gpio => gpioCfgs
    | .timer => timCfgs
    | .dma => dmaCfgs
    | .spi => spiCfgs
    | .digitalOutput => doutCfgs
    | .digitalInput => dinCfgs
    | .mdmaPacket => mdmaPacketCfgs
    | .sd => sdCfgs
    | .ethernet => ethCfgs
    | .adc => adcCfgs
    | .exti => extiCfgs
    | .dfsdmChannel => dfsdmCfgs
    | .dfsdmClk => dfsdmClkCfgs

/-! ## init -/

/-- The array `Init<N>::instances` of a domain. Where `Init` also takes the configurations,
`init` and `instance_of` both name those of `cfg`. -/
structure Storage where
  domain : Domain
  n : Nat
deriving DecidableEq

/-- Of an instance, the configuration that it was initialised from. -/
abbrev Memory := (s : Storage) → Nat → Option (Nat × Config s.domain)

/-- `Init<N>::init`: `instances[i]` is set from `cfgs[i]`. -/
def initDomain (d : Domain) (n : Nat) (cfgs : List (Nat × Config d)) (m : Memory) : Memory :=
  Function.update m ⟨d, n⟩ fun i => if i < n then cfgs[i]? else m ⟨d, n⟩ i

/-- `Init<N>::init` of the domains that have at most one instance. -/
def initFirst (d : Domain) (n : Nat) (cfgs : List (Nat × Config d)) (m : Memory) : Memory :=
  if n = 0 then m
  else Function.update m ⟨d, n⟩ fun i => if i = 0 then cfgs[0]? else m ⟨d, n⟩ i

/-- `Board::init`; `dmaN` is the number of configurations. -/
def init (ctx : Ctx) (cfg : ConfigBundle) (m : Memory) : Memory :=
  let m := initDomain .mpu (ctx.size .mpu) (cfg .mpu) m
  let m := initDomain .gpio (ctx.size .gpio) (cfg .gpio) m
  let m := initDomain .timer (ctx.size .timer) (cfg .timer) m
  let m := initDomain .dma (cfg .dma).length (cfg .dma) m
  let m := initDomain .spi (ctx.size .spi) (cfg .spi) m
  let m := initDomain .digitalOutput (ctx.size .digitalOutput) (cfg .digitalOutput) m
  let m := initDomain .digitalInput (ctx.size .digitalInput) (cfg .digitalInput) m
  let m := initDomain .mdmaPacket (ctx.size .mdmaPacket) (cfg .mdmaPacket) m
  let m := initDomain .sd (ctx.size .sd) (cfg .sd) m
  let m := initFirst .ethernet (ctx.size .ethernet) (cfg .ethernet) m
  let m := initDomain .adc (ctx.size .adc) (cfg .adc) m
  let m := initDomain .exti (ctx.size .exti) (cfg .exti) m
  let m := initDomain .dfsdmChannel (ctx.size .dfsdmChannel) (cfg .dfsdmChannel) m
  initFirst .dfsdmClk (ctx.size .dfsdmClk) (cfg .dfsdmClk) m

/-- Static storage before `init`. -/
def Memory.zero : Memory := fun _ _ => none

/-! ## instance_of -/

/-- `owner_index_of`, from index `i` on. -/
def ownerIndexOf (target : Address) : Nat → List Address → Except String Nat
  | _, [] => .error "Device not registered in domain"
  | i, owner :: rest => if owner = target then .ok i else ownerIndexOf target (i + 1) rest

/-- The instance that `Board::instance_of` refers to. -/
structure Reference where
  storage : Storage
  idx : Nat

/-- `Board::instance_of`. -/
def instanceOf (ctx : Ctx) (d : Domain) (target : Address) : Except String Reference := do
  let idx ← ownerIndexOf target 0 (ctx.owners d)
  return { storage := { domain := d, n := ctx.size d }, idx := idx }

end StLib.Board.Model
