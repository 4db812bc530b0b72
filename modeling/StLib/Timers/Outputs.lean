import StLib.Base.FinLiterals
import StLib.Base.RegisterBits
import StLib.Base.Runs

/-! # Turning the outputs of a timer on and off

`turn_on` and `turn_off` of `PWM`, `DualPWM` and `InputCapture`. Of the timer's registers
there are `CCER`, the counter enable of `CR1` and the main output enable of `BDTR`. `PANIC`
reports and returns. -/
namespace StLib.Timers.Outputs

open StLib.Base.RegisterBits StLib.Base.Runs

/-- The channels 1 to 4 with their negated ones. -/
inductive TimerChannel
  | channel (i : Fin 4)
  | negated (i : Fin 4)
deriving DecidableEq

namespace TimerChannel

def getChannelStateIdx : TimerChannel → Fin 4
  | channel i => i
  | negated i => i

def getChannelMul4 : TimerChannel → Nat
  | channel i => 4 * i
  | negated i => 4 * i

end TimerChannel

def timCcerCc1e : BitVec 32 := bit 0

def timCcerCc1p : BitVec 32 := bit 1

def timCcerCc1ne : BitVec 32 := bit 2

def timCcerCc1np : BitVec 32 := bit 3

def timCcerCcxeMask : BitVec 32 := 0x111111

def timCcerCcxneMask : BitVec 32 := 0x444

/-- An object with its channels. A polarity is whether it is low. -/
inductive Object
  | pwm (channel : Fin 4) (polarity negatedPolarity : Bool)
  | dualPwm (channel : Fin 4) (polarity negatedPolarity : Bool)
  | inputCapture (rising falling : Fin 4)
deriving DecidableEq

namespace Object

def channels : Object → List (Fin 4)
  | pwm i _ _ => [i]
  | dualPwm i _ _ => [i]
  | inputCapture r f => [r, f]

def isDual : Object → Bool
  | dualPwm .. => true
  | _ => false

def isInputCapture : Object → Bool
  | inputCapture .. => true
  | _ => false

/-- What there are pins for: a fourth channel has no negated one, and an input is captured
on two channels. -/
def HasPins : Object → Prop
  | pwm .. => True
  | dualPwm i _ _ => i.val < 3
  | inputCapture r f => r ≠ f

instance (o : Object) : Decidable o.HasPins :=
  match o with
  | pwm .. => inferInstanceAs (Decidable True)
  | dualPwm i _ _ => inferInstanceAs (Decidable (i.val < 3))
  | inputCapture r f => inferInstanceAs (Decidable (r ≠ f))

end Object

/-- The objects of a timer, which have no channel in common. `slaveTrigger` is what
`IS_TIM_SLAVEMODE_TRIGGER_ENABLED` says of `SMCR`. -/
structure Timer (n : Nat) where
  isBreak : Bool
  isSlave : Bool
  slaveTrigger : Bool
  isCcxn : Fin 4 → Bool
  object : Fin n → Object
  hasPins : ∀ a, (object a).HasPins
  disjoint : ∀ a b j, j ∈ (object a).channels → j ∈ (object b).channels → a = b

inductive ChannelState
  | ready
  | busy
deriving DecidableEq

/-- The registers, the states of the channels, and the flags of the objects. `positive` is
`is_on` where there is one. -/
structure State (n : Nat) where
  ccer : BitVec 32 := 0
  counter : Bool := false
  moe : Bool := false
  channelState : Fin 4 → ChannelState := fun _ => .ready
  channelNState : Fin 4 → ChannelState := fun _ => .ready
  positive : Fin n → Bool := fun _ => false
  negative : Fin n → Bool := fun _ => false
  initialized : Fin n → Bool := fun _ => false
  panics : List String := []

namespace State

variable {n : Nat} (timer : Timer n) (a : Fin n)

def panic (message : String) (s : State n) : State n := { s with panics := s.panics ++ [message] }

def areAllChannelsFree (s : State n) : Bool :=
  s.ccer &&& timCcerCcxeMask == 0 && s.ccer &&& timCcerCcxneMask == 0

/-- `counter_enable`, unless the counter is left to a trigger. -/
def enableCounter (s : State n) : State n :=
  if timer.isSlave then
    if !timer.slaveTrigger then { s with counter := true } else s
  else { s with counter := true }

/-- An enable bit of a channel. -/
def enable (cc1 : BitVec 32) (ch : TimerChannel) : BitVec 32 := cc1 <<< ch.getChannelMul4

def setMoe (value : Bool) (s : State n) : State n :=
  if timer.isBreak then { s with moe := value } else s

/-- The states of the channels, or those of the negated ones. -/
inductive StateArray
  | channelState
  | channelNState

def getState (array : StateArray) (ch : TimerChannel) (s : State n) : ChannelState :=
  match array with
  | .channelState => s.channelState ch.getChannelStateIdx
  | .channelNState => s.channelNState ch.getChannelStateIdx

def setState (array : StateArray) (ch : TimerChannel) (value : ChannelState) (s : State n) : State n :=
  match array with
  | .channelState =>
    { s with channelState := Function.update s.channelState ch.getChannelStateIdx value }
  | .channelNState =>
    { s with channelNState := Function.update s.channelNState ch.getChannelStateIdx value }

/-- What turning on an output is, but for its flag. -/
def turnOnOutput (array : StateArray) (cc1 : BitVec 32) (ch : TimerChannel) (s : State n) : State n :=
  let s := if s.getState array ch ≠ .ready then s.panic "Channel not ready" else s
  let s := s.setState array ch .busy
  let s := { s with ccer := setBit s.ccer (enable cc1 ch) }
  (s.setMoe timer true).enableCounter timer

/-- What turning off an output is, but for its flag. -/
def turnOffOutput (array : StateArray) (cc1 : BitVec 32) (ch : TimerChannel) (s : State n) : State n :=
  let s := { s with ccer := clearBit s.ccer (enable cc1 ch) }
  let s := s.setState array ch .ready
  if s.areAllChannelsFree then { s.setMoe timer false with counter := false } else s

/-- A polarity in `CCER`. -/
def setPolarity (p mask x : BitVec 32) (low : Bool) : BitVec 32 :=
  let x := clearBit x mask
  if low then setBit x p else x

/-- What `config_output_compare_channel` makes of `CCER`. -/
def configOutputCompareChannel (i : Fin 4) (polarity negatedPolarity : Bool) (ccer : BitVec 32) :
    BitVec 32 :=
  let cc1p := enable timCcerCc1p (.channel i)
  let ccer := setPolarity cc1p cc1p ccer polarity
  if timer.isCcxn i then
    let cc1np := enable timCcerCc1np (.channel i)
    clearBit (setPolarity cc1np cc1np ccer negatedPolarity) (enable timCcerCc1ne (.channel i))
  else ccer

/-- What `config_input_compare_channel` makes of `CCER`. -/
def configInputCompareChannel (i : Fin 4) (falling : Bool) (ccer : BitVec 32) : BitVec 32 :=
  let ccer := clearBit ccer (enable timCcerCc1e (.channel i))
  setPolarity (enable timCcerCc1p (.channel i))
    (enable timCcerCc1p (.channel i) ||| enable timCcerCc1np (.channel i)) ccer falling

def initOutput (config : BitVec 32 → BitVec 32) (s : State n) : State n :=
  if s.initialized a then s
  else { s with ccer := config s.ccer, initialized := Function.update s.initialized a true }

end State

open State

/-! ## `PWM` -/

namespace PWM

variable {n : Nat} (timer : Timer n) (a : Fin n) (i : Fin 4) (polarity negatedPolarity : Bool)

def init : State n → State n :=
  initOutput a (configOutputCompareChannel timer i polarity negatedPolarity)

def turnOn (s : State n) : State n :=
  let s := init timer a i polarity negatedPolarity s
  if s.positive a then s
  else
    let s := s.turnOnOutput timer .channelState timCcerCc1e (.channel i)
    { s with positive := Function.update s.positive a true }

def turnOff (s : State n) : State n :=
  if !s.positive a then s
  else
    let s := s.turnOffOutput timer .channelState timCcerCc1e (.channel i)
    { s with positive := Function.update s.positive a false }

end PWM

/-! ## `DualPWM` -/

namespace DualPWM

variable {n : Nat} (timer : Timer n) (a : Fin n) (i : Fin 4) (polarity negatedPolarity : Bool)

def initializeOutputs : State n → State n :=
  State.initOutput a (configOutputCompareChannel timer i polarity negatedPolarity)

def turnOnPositive (s : State n) : State n :=
  if s.positive a then s
  else
    let s := s.turnOnOutput timer .channelState timCcerCc1e (.channel i)
    { s with positive := Function.update s.positive a true }

def turnOnNegative (s : State n) : State n :=
  if s.negative a then s
  else
    let s := s.turnOnOutput timer .channelNState timCcerCc1ne (.negated i)
    { s with negative := Function.update s.negative a true }

def turnOffPositive (s : State n) : State n :=
  if !s.positive a then s
  else
    let s := s.turnOffOutput timer .channelState timCcerCc1e (.channel i)
    { s with positive := Function.update s.positive a false }

/-- The state it sets is that of the positive output. -/
def turnOffNegative (s : State n) : State n :=
  if !s.negative a then s
  else
    let s := s.turnOffOutput timer .channelState timCcerCc1ne (.negated i)
    { s with negative := Function.update s.negative a false }

def turnOn (s : State n) : State n :=
  turnOnNegative timer a i (turnOnPositive timer a i
    (initializeOutputs timer a i polarity negatedPolarity s))

def turnOff (s : State n) : State n := turnOffNegative timer a i (turnOffPositive timer a i s)

end DualPWM

/-! ## `InputCapture` -/

namespace InputCapture

variable {n : Nat} (timer : Timer n) (a : Fin n) (r f : Fin 4)

def init : State n → State n :=
  initOutput a fun ccer => configInputCompareChannel f true (configInputCompareChannel r false ccer)

def notReady (i : Fin 4) (s : State n) : Bool :=
  s.channelState i != .ready || s.channelNState i != .ready

/-- Both states of a channel, and its enable bit. -/
def setChannel (i : Fin 4) (on : Bool) (s : State n) : State n :=
  let cc1 := enable timCcerCc1e (.channel i)
  let value := if on then ChannelState.busy else .ready
  { s with
    ccer := if on then setBit s.ccer cc1 else clearBit s.ccer cc1
    channelState := Function.update s.channelState i value
    channelNState := Function.update s.channelNState i value }

def turnOn (s : State n) : State n :=
  let s := init a r f s
  if s.positive a then s
  else if notReady r s then s.panic "Channels not ready"
  else
    let s := setChannel r true s
    if notReady f s then setChannel r false (s.panic "Channels not ready")
    else
      let s := (setChannel f true s).enableCounter timer
      { s with positive := Function.update s.positive a true }

def turnOff (s : State n) : State n :=
  if !s.positive a then s
  else
    let s := setChannel f false (setChannel r false s)
    let s := if s.areAllChannelsFree then { s with counter := false } else s
    { s with positive := Function.update s.positive a false }

end InputCapture

/-! ## Runs -/

inductive Call
  | turnOn
  | turnOff
  | turnOnPositive
  | turnOnNegative
  | turnOffPositive
  | turnOffNegative
deriving DecidableEq

variable {n : Nat}

/-- A call of an object; the last four are of a `DualPWM` alone. -/
def step (timer : Timer n) (s : State n) (e : Fin n × Call) : Option (State n) :=
  match timer.object e.1, e.2 with
  | .pwm i p q, .turnOn => some (PWM.turnOn timer e.1 i p q s)
  | .pwm i _ _, .turnOff => some (PWM.turnOff timer e.1 i s)
  | .dualPwm i p q, .turnOn => some (DualPWM.turnOn timer e.1 i p q s)
  | .dualPwm i _ _, .turnOff => some (DualPWM.turnOff timer e.1 i s)
  | .dualPwm i _ _, .turnOnPositive => some (DualPWM.turnOnPositive timer e.1 i s)
  | .dualPwm i _ _, .turnOnNegative => some (DualPWM.turnOnNegative timer e.1 i s)
  | .dualPwm i _ _, .turnOffPositive => some (DualPWM.turnOffPositive timer e.1 i s)
  | .dualPwm i _ _, .turnOffNegative => some (DualPWM.turnOffNegative timer e.1 i s)
  | .inputCapture r f, .turnOn => some (InputCapture.turnOn timer e.1 r f s)
  | .inputCapture r f, .turnOff => some (InputCapture.turnOff e.1 r f s)
  | _, _ => none

abbrev Step (timer : Timer n) (s : State n) (e : Fin n × Call) (t : State n) : Prop :=
  step timer s e = some t

/-- Some output is on. -/
def AnyOn (s : State n) : Prop := ∃ a, s.positive a = true ∨ s.negative a = true

/-- Some output of a `PWM` or a `DualPWM` is on. -/
def AnyPwmOn (timer : Timer n) (s : State n) : Prop :=
  ∃ a, (timer.object a).isInputCapture = false ∧ (s.positive a = true ∨ s.negative a = true)

/-- The bookkeeping, channel by channel and of the timer. A captured input holds both states
of its channels. -/
structure Right (timer : Timer n) (s : State n) : Prop where
  enabled : ∀ j : Fin 4, s.ccer.getLsbD (4 * j) = true ↔
    ∃ a, j ∈ (timer.object a).channels ∧ s.positive a = true
  negatedEnabled : ∀ j : Fin 4, s.ccer.getLsbD (4 * j + 2) = true ↔
    ∃ a, j ∈ (timer.object a).channels ∧ s.negative a = true
  channelState : ∀ j, s.channelState j = .busy ↔
    ∃ a, j ∈ (timer.object a).channels ∧ s.positive a = true
  channelNState : ∀ j, s.channelNState j = .busy ↔ ∃ a, j ∈ (timer.object a).channels ∧
    (s.negative a = true ∨ ((timer.object a).isInputCapture = true ∧ s.positive a = true))
  counter : s.counter = true ↔ AnyOn s
  moe : timer.isBreak = true → s.moe = true → AnyPwmOn timer s
  ready : s.panics = []

/-- Without its positive output. -/
def withoutPositive (a : Fin n) (s : State n) : State n :=
  { s with positive := Function.update s.positive a false }

/-- The counter is not left to a trigger, or runs. -/
def Counts (timer : Timer n) (s : State n) : Prop :=
  timer.isSlave = true → timer.slaveTrigger = true → s.counter = true

/-- On a timer with a break input, if anything stays on without this positive output then an
output of a `PWM` does. -/
def LeavesPwm (timer : Timer n) (a : Fin n) (s : State n) : Prop :=
  timer.isBreak = true → AnyOn (withoutPositive a s) → AnyPwmOn timer (withoutPositive a s)

/-- No negative output that is on is turned off, nor initialized by a `turn_on` of both; and
the two conditions above, where an output is turned on or off. -/
def Meets (timer : Timer n) (s : State n) (e : Fin n × Call) : Prop :=
  match e.2 with
  | .turnOn => Counts timer s ∧ ((timer.object e.1).isDual = true → s.initialized e.1 = true ∨
      s.negative e.1 = false)
  | .turnOnPositive | .turnOnNegative => Counts timer s
  | .turnOff => s.negative e.1 = false ∧ ((timer.object e.1).isInputCapture = false →
      s.positive e.1 = true → LeavesPwm timer e.1 s)
  | .turnOffPositive => s.positive e.1 = true → LeavesPwm timer e.1 s
  | .turnOffNegative => s.negative e.1 = false

end StLib.Timers.Outputs
