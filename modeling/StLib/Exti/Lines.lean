import StLib.Gpio.Pins
import StLib.Base.Views

/-! # External interrupts

A pin in an interrupt mode drives the line of its number, the lines share seven interrupts,
and the handlers of these look for the lines that are pending and call the instance in the
table at that line. Edges come at any time, also between two lines of a handler. -/
namespace StLib.Exti.Lines

open StLib.Base.RegisterBits StLib.Base.TableWrites StLib.Base.Runs
open StLib.Gpio.Pins (Port OperationMode Route Hardware)

/-- The lowest pin of a mask. -/
def getPinIndex (pinMask : BitVec 16) : Nat :=
  ((List.range 16).find? fun i => decide (pinMask &&& bit i ≠ 0)).getD 0xFF

inductive Trigger
  | risingEdge
  | fallingEdge
  | bothEdges
deriving DecidableEq

def Trigger.mode : Trigger → OperationMode
  | risingEdge => .extiRising
  | fallingEdge => .extiFalling
  | bothEdges => .extiRisingFalling

structure Entry (α : Type) where
  pinIdx : Nat
  pinMask : BitVec 16
  action : Option α

structure Config (α : Type) where
  pinIdx : Nat
  interruptNum : Nat
  action : Option α

variable {α : Type}

structure Device (α : Type) where
  pin : StLib.Gpio.Pins.Pin
  trigger : Trigger
  action : Option α

/-- The pin of a device, as its constructor asks for it. -/
def Device.gpio (d : Device α) : StLib.Gpio.Pins.Entry where
  port := d.pin.port
  pin := d.pin.pin
  mode := d.trigger.mode
  pull := .none
  speed := .low
  af := .noAf

/-- A device inscribes its pin, and itself with the place of the pin. -/
def Device.inscribe (d : Device α) (pins : List StLib.Gpio.Pins.Entry) (entries : List (Entry α)) :
    List StLib.Gpio.Pins.Entry × List (Entry α) :=
  (pins ++ [d.gpio],
    entries ++ [{ pinIdx := pins.length, pinMask := d.gpio.pin.setWidth 16, action := d.action }])

/-- `pin_num`, the line of an entry. -/
def Entry.line (e : Entry α) : Nat := getPinIndex e.pinMask

def Entry.config (e : Entry α) : Config α where
  pinIdx := e.pinIdx
  interruptNum := e.line
  action := e.action

/-- The loop of `build`, with the lines of `usedLinesMask` taken. -/
def buildFrom (usedLinesMask : BitVec 16) : List (Entry α) → Except String (List (Config α))
  | [] => .ok []
  | e :: rest =>
    if 16 ≤ e.line then .error "Invalid Pin for EXTI"
    else if usedLinesMask &&& bit e.line ≠ 0 then
      .error "EXTI line already used (Hardware Conflict: Pins with same number share EXTI Line)"
    else (buildFrom (setBit usedLinesMask (bit e.line)) rest).map (e.config :: ·)

def build (entries : List (Entry α)) : Except String (List (Config α)) := buildFrom 0 entries

/-! ## The interrupts -/

inductive Irq
  | exti0
  | exti1
  | exti2
  | exti3
  | exti4
  | exti9to5
  | exti15to10
deriving DecidableEq

/-- The interrupt of a line. -/
def irqOf : Nat → Irq
  | 0 => .exti0
  | 1 => .exti1
  | 2 => .exti2
  | 3 => .exti3
  | 4 => .exti4
  | id => if id ≤ 9 then .exti9to5 else .exti15to10

/-- The masks of `for (mask = first; mask <= last; mask <<= 1)`. -/
def loopMasks (last : BitVec 32) : Nat → BitVec 32 → List (BitVec 32)
  | 0, _ => []
  | fuel + 1, mask => if mask ≤ last then mask :: loopMasks last fuel (mask <<< 1) else []

/-- The pins that a handler looks at, in order. -/
def Irq.masks : Irq → List (BitVec 16)
  | exti0 => [0x0001]
  | exti1 => [0x0002]
  | exti2 => [0x0004]
  | exti3 => [0x0008]
  | exti4 => [0x0010]
  | exti9to5 => (loopMasks 0x0200 32 0x0020).map (BitVec.setWidth 16)
  | exti15to10 => (loopMasks 0x8000 32 0x0400).map (BitVec.setWidth 16)

structure Instance (α : Type) where
  isOn : Bool := false
  action : Option α
  gpio : Nat

structure State (α : Type) where
  instances : List (Instance α)
  gInstances : Nat → Option Nat
  enabled : Irq → Bool
  route : Nat → Option Route
  pending : BitVec 16
  /-- The pins that the handler that runs has still to look at. -/
  handler : List (BitVec 16)
  /-- The instances whose actions ran. -/
  ran : List Nat

/-- After `init`, on hardware whose lines are routed. -/
def init (cfgs : List (Config α)) (h : Hardware) : State α where
  instances := cfgs.map fun c => { action := c.action, gpio := c.pinIdx }
  gInstances := writeAll (fun x id => x.1.interruptNum == id) (fun x => some x.2) (fun _ => none) cfgs.zipIdx
  enabled := writeAll (fun c irq => irqOf c.interruptNum == irq) (fun _ => true) (fun _ => false) cfgs
  route := h.route
  pending := 0
  handler := []
  ran := []

/-! ## Steps -/

inductive Event
  /-- An edge on a pin. -/
  | edge (port : Port) (line : Nat) (rising : Bool)
  /-- The processor takes an interrupt. -/
  | enter (irq : Irq)
  /-- The handler that runs looks at its next pin. -/
  | visit (pin : BitVec 16)
  /-- `turn_on` or `turn_off`. -/
  | turn (device : Nat) (on : Bool)
deriving DecidableEq

/-- Whether an edge makes a line pending. -/
def Route.accepts (r : Route) (port : Port) (rising : Bool) : Bool :=
  r.port == port && if rising then r.rising else r.falling

/-- `HAL_GPIO_EXTI_Callback`. -/
def State.callback (s : State α) (pin : BitVec 16) : State α :=
  if 16 ≤ getPinIndex pin then s
  else
    match s.gInstances (getPinIndex pin) with
    | none => s
    | some i =>
      match s.instances[i]? with
      | none => s
      | some exti => if exti.isOn && exti.action.isSome then { s with ran := s.ran ++ [i] } else s

/-- `HAL_GPIO_EXTI_IRQHandler`: a pin that is pending no longer is, and is called back. -/
def State.irqHandler (s : State α) (pin : BitVec 16) : State α :=
  if s.pending &&& pin ≠ 0 then { s with pending := clearBit s.pending pin }.callback pin else s

/-- The interrupts have one priority, so none interrupts another. -/
def step (s : State α) : Event → Option (State α)
  | .edge port line rising =>
    if (s.route line).any (Route.accepts · port rising) then
      some { s with pending := setBit s.pending (bit line) }
    else some s
  | .enter irq =>
    if s.handler = [] ∧ s.enabled irq = true ∧ irq.masks.any fun pin => decide (s.pending &&& pin ≠ 0) then
      some { s with handler := irq.masks }
    else none
  | .visit pin =>
    if s.handler.head? = some pin then
      some { s.irqHandler pin with handler := s.handler.tail }
    else none
  | .turn device on =>
    if device < s.instances.length then
      some { s with instances := s.instances.modify device fun exti => { exti with isOn := on } }
    else none

/-! ## The pins of the handlers -/

theorem getPinIndex_bit {k : Nat} (hk : k < 16) : getPinIndex (bit k) = k := by
  revert k
  decide

theorem bit_inj {k k' : Nat} (hk : k < 16) (hk' : k' < 16) (h : (bit k : BitVec 16) = bit k') : k = k' := by
  rw [← getPinIndex_bit hk, h, getPinIndex_bit hk']

/-- The lines of an interrupt, in the order of its handler. -/
def Irq.lines : Irq → List Nat
  | exti0 => [0]
  | exti1 => [1]
  | exti2 => [2]
  | exti3 => [3]
  | exti4 => [4]
  | exti9to5 => [5, 6, 7, 8, 9]
  | exti15to10 => [10, 11, 12, 13, 14, 15]

/-- Every handler looks at the pins of its lines, one by one. -/
theorem masks_eq (irq : Irq) : irq.masks = irq.lines.map bit := by
  cases irq <;> rfl

theorem lines_lt (irq : Irq) : ∀ k ∈ irq.lines, k < 16 := by
  cases irq <;> decide

/-- A line is one of its interrupt. -/
theorem mem_lines {k : Nat} (hk : k < 16) : k ∈ (irqOf k).lines := by
  revert k
  decide

/-! ## What the build accepts -/

theorem buildFrom_ok {usedLinesMask : BitVec 16} {entries : List (Entry α)} {cfgs : List (Config α)}
    (h : buildFrom usedLinesMask entries = .ok cfgs) :
    cfgs = entries.map Entry.config ∧
      (∀ e ∈ entries, e.line < 16 ∧ usedLinesMask.getLsbD e.line = false) ∧
      entries.Pairwise fun e e' => e.line ≠ e'.line := by
  induction entries generalizing usedLinesMask cfgs with
  | nil =>
    cases h
    simp
  | cons e rest ih =>
    rw [buildFrom] at h
    split at h
    · cases h
    next hpin =>
      split at h
      · cases h
      next hused =>
        have hlt : e.line < 16 := Nat.not_le.mp hpin
        have hfree : usedLinesMask.getLsbD e.line = false :=
          (and_bit_eq_zero_iff hlt usedLinesMask).mp (not_not.mp hused)
        cases hrest : buildFrom (setBit usedLinesMask (bit e.line)) rest with
        | error message =>
          rw [hrest] at h
          cases h
        | ok tail =>
          rw [hrest] at h
          cases h
          obtain ⟨htail, hlines, hpairs⟩ := ih hrest
          have hothers : ∀ e' ∈ rest, e'.line < 16 ∧ usedLinesMask.getLsbD e'.line = false ∧ e'.line ≠ e.line := by
            intro e' he'
            obtain ⟨hlt', hset⟩ := hlines e' he'
            rw [getLsbD_setBit hlt, Bool.or_eq_false_iff, decide_eq_false_iff_not] at hset
            exact ⟨hlt', hset.1, hset.2⟩
          refine ⟨by rw [htail]; rfl, ?_, ?_⟩
          · intro e' he'
            rcases List.mem_cons.mp he' with rfl | he'
            · exact ⟨hlt, hfree⟩
            · exact ⟨(hothers e' he').1, (hothers e' he').2.1⟩
          · exact List.pairwise_cons.mpr ⟨fun e' he' => (hothers e' he').2.2.symm, hpairs⟩

/-- **Accepted entries** have lines of their own. -/
theorem build_ok {entries : List (Entry α)} {cfgs : List (Config α)} (h : build entries = .ok cfgs) :
    cfgs = entries.map Entry.config ∧ (∀ e ∈ entries, e.line < 16) ∧
      entries.Pairwise fun e e' => e.line ≠ e'.line := by
  obtain ⟨hcfgs, hlines, hpairs⟩ := buildFrom_ok h
  exact ⟨hcfgs, fun e he => (hlines e he).1, hpairs⟩

end StLib.Exti.Lines
