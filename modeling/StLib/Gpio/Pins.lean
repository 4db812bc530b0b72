import StLib.Base.RegisterBits
import StLib.Base.FinLiterals
import StLib.Base.TableWrites

/-! # Pins

The pins of a board. Every domain inscribes the pins it needs with what it needs of them,
the build refuses a pin that is inscribed twice, and `init` configures them one by one. -/
namespace StLib.Gpio.Pins

open StLib.Base.RegisterBits StLib.Base.TableWrites

inductive Port
  | a
  | b
  | c
  | d
  | e
  | f
  | g
  | h
deriving DecidableEq

inductive OperationMode
  | input
  | outputPushPull
  | outputOpenDrain
  | analog
  | altPp
  | altOd
  | extiRising
  | extiFalling
  | extiRisingFalling
deriving DecidableEq

namespace OperationMode

def isAlternate : OperationMode → Bool
  | altPp => true
  | altOd => true
  | _ => false

/-- Whether a rising edge interrupts. -/
def rising : OperationMode → Bool
  | extiRising => true
  | extiRisingFalling => true
  | _ => false

/-- Whether a falling edge interrupts. -/
def falling : OperationMode → Bool
  | extiFalling => true
  | extiRisingFalling => true
  | _ => false

def isExti (mode : OperationMode) : Bool := mode.rising || mode.falling

end OperationMode

inductive Pull
  | none
  | up
  | down
deriving DecidableEq

inductive Speed
  | low
  | medium
  | high
  | veryHigh
deriving DecidableEq

inductive AlternateFunction
  | noAf
  | af (n : Fin 16)
deriving DecidableEq

/-- The functions are numbered the other way round. -/
def AlternateFunction.value : AlternateFunction → Nat
  | noAf => 20
  | af n => 15 - n.val

/-- A pin of the chip: its port, its bit there, and which alternate functions it has. -/
structure Pin where
  port : Port
  pin : BitVec 32
  afs : BitVec 16
  single : ∃ k < 16, pin = bit k

def Pin.validAf (p : Pin) (af : AlternateFunction) : Bool :=
  if af = .noAf then true else decide (bit af.value &&& p.afs ≠ 0)

structure Entry where
  port : Port
  pin : BitVec 32
  mode : OperationMode
  pull : Pull
  speed : Speed
  af : AlternateFunction
deriving DecidableEq

/-- The constructor of `GPIO`. -/
def gpio (pin : Pin) (mode : OperationMode) (pull : Pull) (speed : Speed)
    (af : AlternateFunction := .noAf) : Except String Entry :=
  if pin.validAf af = false then .error "Alternate function not valid for this pin"
  else if mode.isAlternate ∧ af = .noAf then
    .error "Alternate function must be specified for alternate modes"
  else .ok { port := pin.port, pin := pin.pin, mode, pull, speed, af }

/-- `GPIO_InitTypeDef`. -/
structure InitTypeDef where
  pin : BitVec 32
  mode : OperationMode
  pull : Pull
  speed : Speed
  alternate : BitVec 32
deriving DecidableEq

structure Config where
  port : Port
  init : InitTypeDef
deriving DecidableEq

def Entry.config (e : Entry) : Config where
  port := e.port
  init :=
    { pin := e.pin
      mode := e.mode
      pull := e.pull
      speed := e.speed
      alternate := if e.mode.isAlternate then 15 - BitVec.ofNat 32 e.af.value else 0 }

/-- The loop of `build`, behind the entries `before`. -/
def buildFrom (before : List Entry) : List Entry → Except String (List Config)
  | [] => .ok []
  | e :: rest =>
    if before.any fun prev => prev.pin == e.pin && prev.port == e.port then
      .error "GPIO already inscribed"
    else (buildFrom (before ++ [e]) rest).map (e.config :: ·)

def build (pins : List Entry) : Except String (List Config) := buildFrom [] pins

/-! ## The hardware -/

structure Settings where
  mode : OperationMode
  pull : Pull
  speed : Speed
deriving DecidableEq

/-- Where an external line comes from, and which of the edges there interrupt. -/
structure Route where
  port : Port
  rising : Bool
  falling : Bool
deriving DecidableEq

structure Hardware where
  clock : Port → Bool
  settings : Port × Nat → Settings
  alternate : Port × Nat → BitVec 32
  /-- A line that is not configured is masked. -/
  route : Nat → Option Route

def Config.pins (c : Config) (place : Port × Nat) : Bool := c.port == place.1 && c.init.pin.getLsbD place.2

def Config.settings (c : Config) : Settings := { mode := c.init.mode, pull := c.init.pull, speed := c.init.speed }

def Config.route (c : Config) : Option Route :=
  some { port := c.port, rising := c.init.mode.rising, falling := c.init.mode.falling }

/-- The clock of the port is on before its registers are written, and `HAL_GPIO_Init` writes
what the mode needs: the alternate function in an alternate mode, and in an interrupt mode
the port and the edges of the line of the pin. -/
def Config.apply (h : Hardware) (c : Config) : Hardware where
  clock := write (fun c port => c.port == port) (fun _ => true) h.clock c
  settings := write Config.pins Config.settings h.settings c
  alternate := write (fun c place => c.init.mode.isAlternate && c.pins place) (fun c => c.init.alternate)
    h.alternate c
  route := write (fun c k => c.init.mode.isExti && c.init.pin.getLsbD k) Config.route h.route c

structure Instance where
  port : Port
  pin : BitVec 16
deriving DecidableEq

def init (cfgs : List Config) (h : Hardware) : Hardware × List Instance :=
  (cfgs.foldl Config.apply h,
    cfgs.map fun c => { port := c.port, pin := c.init.pin.setWidth 16 })

/-! ## What the build accepts -/

/-- Entries of one pin. -/
def SamePin (e e' : Entry) : Prop := e.pin = e'.pin ∧ e.port = e'.port

theorem SamePin.symm {e e' : Entry} (h : SamePin e e') : SamePin e' e := ⟨h.1.symm, h.2.symm⟩

theorem any_samePin (before : List Entry) (e : Entry) :
    (before.any fun prev => prev.pin == e.pin && prev.port == e.port) = true ↔
      ∃ prev ∈ before, SamePin prev e := by
  simp [SamePin]

/-- The loop accepts distinct pins that are not yet inscribed. -/
theorem buildFrom_eq_ok (before pins : List Entry) (cfgs : List Config) :
    buildFrom before pins = .ok cfgs ↔
      (pins.Pairwise fun e e' => ¬ SamePin e e') ∧ (∀ prev ∈ before, ∀ e ∈ pins, ¬ SamePin prev e) ∧
        cfgs = pins.map Entry.config := by
  induction pins generalizing before cfgs with
  | nil => simp [buildFrom, eq_comm]
  | cons e rest ih =>
    rw [buildFrom]
    by_cases hclash : (before.any fun prev => prev.pin == e.pin && prev.port == e.port) = true
    · rw [if_pos hclash]
      obtain ⟨prev, hprev, hsame⟩ := (any_samePin before e).mp hclash
      constructor
      · intro h
        cases h
      · intro h
        exact absurd hsame (h.2.1 prev hprev e (by simp))
    · rw [if_neg hclash]
      have hfresh : ∀ prev ∈ before, ¬ SamePin prev e := fun prev hprev hsame =>
        hclash ((any_samePin before e).mpr ⟨prev, hprev, hsame⟩)
      have htail := fun tail => ih (before ++ [e]) tail
      cases hrest : buildFrom (before ++ [e]) rest with
      | error message =>
        constructor
        · intro h
          cases h
        · intro h
          have hpairs := List.pairwise_cons.mp h.1
          have hok := (htail (rest.map Entry.config)).mpr ⟨hpairs.2, ?_, rfl⟩
          · rw [hrest] at hok
            cases hok
          · intro prev hprev e' he'
            rcases List.mem_append.mp hprev with hprev | hprev
            · exact h.2.1 prev hprev e' (by simp [he'])
            · rw [List.mem_singleton.mp hprev]
              exact hpairs.1 e' he'
      | ok tail =>
        obtain ⟨hpairs, hfar, htail⟩ := (htail tail).mp hrest
        have hnear : ∀ e' ∈ rest, ¬ SamePin e e' := fun e' he' => hfar e (by simp) e' he'
        constructor
        · intro h
          cases h
          refine ⟨List.pairwise_cons.mpr ⟨hnear, hpairs⟩, ?_, by rw [htail]; rfl⟩
          intro prev hprev e' he'
          rcases List.mem_cons.mp he' with rfl | he'
          · exact hfresh prev hprev
          · exact hfar prev (by simp [hprev]) e' he'
        · intro h
          rw [h.2.2, htail]
          rfl

/-- **Accepted pins** are distinct, and are configured as they were inscribed. -/
theorem build_eq_ok (pins : List Entry) (cfgs : List Config) :
    build pins = .ok cfgs ↔ (pins.Pairwise fun e e' => ¬ SamePin e e') ∧ cfgs = pins.map Entry.config := by
  rw [build, buildFrom_eq_ok]
  simp

end StLib.Gpio.Pins
