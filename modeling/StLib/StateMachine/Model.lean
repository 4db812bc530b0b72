import StLib.StateMachine.TimedActions

/-! # Nested state machines

`StateMachine.hpp`. A machine's fixed part (its states, the flattened transition
list and its nested machines) is the tree `Machine`; what changes while it runs
is in the `World`, by the machine's place in the tree. Actions, guards, `PANIC`
and the announcement of state orders belong to the program around the machines
and are the `Hooks`; they may change the whole world, so a callback that calls
back into the machines is one of them. -/
namespace StLib.StateMachine.Model

open StLib.Scheduler.Model StLib.StateMachine.TimedActions

/-- A `bool (*)()`. -/
abbrev Guard := Nat

/-- Where a machine is in the tree: the positions of the bindings that lead to it,
the innermost first. -/
abbrev Addr := List Nat

structure Transition where
  target : Nat
  predicate : Guard
deriving DecidableEq

/-- The fixed part of a `State`; its cyclic actions are in the `World`. -/
structure StateDef where
  onEnterActions : List (Option Callback) := []
  onExitActions : List (Option Callback) := []
  stateOrdersIds : List (BitVec 16) := []
deriving DecidableEq, Inhabited

/-- The fixed part of a machine. `transitionsAssoc` gives each state the start and
the length of its slice of `transitions`. -/
structure MachineDef where
  states : List StateDef
  transitions : List Transition := []
  transitionsAssoc : List (Nat × Nat) := []
deriving DecidableEq

mutual
inductive Machine
  | mk (d : MachineDef) (nested : Nested)

/-- The bindings of nested machines to states. -/
inductive Nested
  | nil
  | cons (state : Nat) (machine : Machine) (rest : Nested)
end

def Machine.d : Machine → MachineDef
  | .mk d _ => d

def Machine.nested : Machine → Nested
  | .mk _ nested => nested

def Machine.state (m : Machine) (s : Nat) : StateDef := m.d.states.getD s default

/-- The first machine bound to state `s`, with the position of its binding,
counted from `j`. -/
def Nested.boundFrom (s : Nat) : Nat → Nested → Option (Nat × Machine)
  | _, .nil => none
  | j, .cons state machine rest => if state = s then some (j, machine) else rest.boundFrom s (j + 1)

/-- The machine a fold over `nested_machines` with a condition on the state reaches:
`||` stops at the first binding that matches. -/
def Machine.bound (m : Machine) (s : Nat) : Option (Nat × Machine) := m.nested.boundFrom s 0

/-! ## The world the machines run in -/

/-- A call of `State::enter` or `State::exit`. -/
inductive Event
  | entered (π : Addr) (s : Nat)
  | exited (π : Addr) (s : Nat)
deriving DecidableEq

/-- What changes while machines run. `trace` records the states entered and exited;
nothing reads it. `user` is the state of the program around. -/
structure World (υ : Type) where
  currentState : Addr → Nat
  calledStart : Addr → Bool := fun _ => false
  cyclicActions : Addr → Nat → List TimedAction
  sched : State
  trace : List Event := []
  user : υ

structure Hooks (υ : Type) where
  action : Callback → World υ → World υ
  predicate : Guard → World υ → Bool × World υ
  panic : String → World υ → World υ
  addStateOrders : List (BitVec 16) → World υ → World υ
  removeStateOrders : List (BitVec 16) → World υ → World υ

variable {υ : Type}

def World.setCurrentState (w : World υ) (π : Addr) (s : Nat) : World υ :=
  { w with currentState := Function.update w.currentState π s }

def World.setCalledStart (w : World υ) (π : Addr) : World υ :=
  { w with calledStart := Function.update w.calledStart π true }

def World.setCyclicActions (w : World υ) (π : Addr) (s : Nat) (l : List TimedAction) : World υ :=
  { w with cyclicActions :=
      Function.update w.cyclicActions π (Function.update (w.cyclicActions π) s l) }

def World.log (w : World υ) (e : Event) : World υ := { w with trace := w.trace ++ [e] }

/-! ## States -/

/-- Call the actions of a list in order; a null one is skipped. -/
def runActions (h : Hooks υ) : List (Option Callback) → World υ → World υ
  | [], w => w
  | none :: rest, w => runActions h rest w
  | some c :: rest, w => runActions h rest (h.action c w)

def registerAllTimedActions (h : Hooks υ) (π : Addr) (s : Nat) (w : World υ) : World υ :=
  let r := registerAll (w.cyclicActions π s) w.sched
  let w := { w.setCyclicActions π s r.1 with sched := r.2.1 }
  if r.2.2 then w else h.panic "Failed to register timed action" w

def unregisterAllTimedActions (π : Addr) (s : Nat) (w : World υ) : World υ :=
  let r := unregisterAll (w.cyclicActions π s) w.sched
  { w.setCyclicActions π s r.1 with sched := r.2 }

/-- `State::enter` of state `s` of the machine at `π`. -/
def enterState (h : Hooks υ) (d : StateDef) (π : Addr) (s : Nat) (w : World υ) : World υ :=
  registerAllTimedActions h π s (runActions h d.onEnterActions (w.log (.entered π s)))

/-- `State::exit`. -/
def exitState (h : Hooks υ) (d : StateDef) (π : Addr) (s : Nat) (w : World υ) : World υ :=
  runActions h d.onExitActions (unregisterAllTimedActions π s (w.log (.exited π s)))

/-! ## Machines -/

/-- `StateMachine::enter`: the current state only. -/
def Machine.enter (h : Hooks υ) (m : Machine) (π : Addr) (w : World υ) : World υ :=
  enterState h (m.state (w.currentState π)) π (w.currentState π) w

/-- `StateMachine::exit`: the current state only. -/
def Machine.exit (h : Hooks υ) (m : Machine) (π : Addr) (w : World υ) : World υ :=
  exitState h (m.state (w.currentState π)) π (w.currentState π) w

/-- Enter the machine bound to the current state. -/
def Machine.enterBound (h : Hooks υ) (m : Machine) (π : Addr) (w : World υ) : World υ :=
  match m.bound (w.currentState π) with
  | some (j, n) => n.enter h (j :: π) w
  | none => w

/-- Exit the machine bound to the current state. -/
def Machine.exitBound (h : Hooks υ) (m : Machine) (π : Addr) (w : World υ) : World υ :=
  match m.bound (w.currentState π) with
  | some (j, n) => n.exit h (j :: π) w
  | none => w

def Machine.refreshStateOrders (h : Hooks υ) (m : Machine) (π : Addr) (w : World υ) : World υ :=
  let ids := (m.state (w.currentState π)).stateOrdersIds
  if ids.length ≠ 0 then h.addStateOrders ids w else w

def Machine.removeStateOrders (h : Hooks υ) (m : Machine) (π : Addr) (w : World υ) : World υ :=
  let ids := (m.state (w.currentState π)).stateOrdersIds
  if ids.length ≠ 0 then h.removeStateOrders ids w else w

/-- The first half of `perform_state_change`, which leaves the current state. -/
def Machine.leave (h : Hooks υ) (m : Machine) (π : Addr) (w : World υ) : World υ :=
  m.removeStateOrders h π (m.exitBound h π (m.exit h π w))

/-- The second half, which enters the new current state. -/
def Machine.arrive (h : Hooks υ) (m : Machine) (π : Addr) (w : World υ) : World υ :=
  m.refreshStateOrders h π (m.enterBound h π (m.enter h π w))

def Machine.performStateChange (h : Hooks υ) (m : Machine) (π : Addr) (newState : Nat)
    (w : World υ) : World υ :=
  if w.currentState π = newState then w
  else m.arrive h π ((m.leave h π w).setCurrentState π newState)

/-- Evaluate guards in order up to the first that is true; its target. -/
def firstTrue (h : Hooks υ) : List Transition → World υ → Option Nat × World υ
  | [], w => (none, w)
  | t :: rest, w =>
    let r := h.predicate t.predicate w
    if r.1 then (some t.target, r.2) else firstTrue h rest r.2

/-- The slice of the current state. -/
def Machine.slice (m : Machine) (s : Nat) : List Transition :=
  let p := m.d.transitionsAssoc.getD s (0, 0)
  (m.d.transitions.drop p.1).take p.2

/-- The part of `check_transitions` before the nested machines. -/
def Machine.takeTransition (h : Hooks υ) (m : Machine) (π : Addr) (w : World υ) : World υ :=
  let r := firstTrue h (m.slice (w.currentState π)) w
  match r.1 with
  | some target => m.performStateChange h π target r.2
  | none => r.2

mutual
def Machine.checkTransitions (h : Hooks υ) : Machine → Addr → World υ → World υ
  | .mk d nested, π, w =>
    if !w.calledStart π then
      h.panic "Error: check_transitions called before StateMachine.start()" w
    else
      let w := Machine.takeTransition h (.mk d nested) π w
      nested.checkTransitions h (w.currentState π) 0 π w

/-- Check the first machine bound to state `s`. -/
def Nested.checkTransitions (h : Hooks υ) : Nested → Nat → Nat → Addr → World υ → World υ
  | .nil, _, _, _, w => w
  | .cons state machine rest, s, j, π, w =>
    if state = s then machine.checkTransitions h (j :: π) w
    else rest.checkTransitions h s (j + 1) π w
end

/-- The last fold of `start`: it marks the first nested machine only. -/
def Nested.markStarted : Nested → Addr → World υ → World υ
  | .nil, _, w => w
  | .cons _ _ _, π, w => w.setCalledStart (0 :: π)

mutual
def Machine.start (h : Hooks υ) : Machine → Addr → World υ → World υ
  | .mk d nested, π, w =>
    let w := Machine.enter h (.mk d nested) π (w.setCalledStart π)
    nested.markStarted π (nested.start h (w.currentState π) 0 π w)

/-- Start the first machine bound to state `s`. -/
def Nested.start (h : Hooks υ) : Nested → Nat → Nat → Addr → World υ → World υ
  | .nil, _, _, _, w => w
  | .cons state machine rest, s, j, π, w =>
    if state = s then machine.start h (j :: π) w else rest.start h s (j + 1) π w
end

def Machine.forceChangeState (h : Hooks υ) (m : Machine) (π : Addr) (state : Nat)
    (w : World υ) : World υ :=
  m.performStateChange h π state w

/-! ## The active path -/

mutual
/-- The current state of the machine at `π` and of the machines active below it. -/
def Machine.activePath : Machine → Addr → World υ → List (Addr × Nat)
  | .mk _ nested, π, w => (π, w.currentState π) :: nested.activePath (w.currentState π) 0 π w

def Nested.activePath : Nested → Nat → Nat → Addr → World υ → List (Addr × Nat)
  | .nil, _, _, _, _ => []
  | .cons state machine rest, s, j, π, w =>
    if state = s then machine.activePath (j :: π) w else rest.activePath s (j + 1) π w
end

/-- The states entered and not exited, from a trace. -/
def openStates (trace : List Event) : List (Addr × Nat) :=
  trace.foldl (fun l e => match e with
    | .entered π s => l ++ [(π, s)]
    | .exited π s => l.erase (π, s)) []

/-! ## Operations on the top machine -/

inductive MachineOp
  | start
  | checkTransitions
  | forceChangeState (state : Nat)
deriving DecidableEq

def MachineOp.run (h : Hooks υ) (m : Machine) : MachineOp → World υ → World υ
  | .start, w => m.start h [] w
  | .checkTransitions, w => m.checkTransitions h [] w
  | .forceChangeState state, w => m.forceChangeState h [] state w

end StLib.StateMachine.Model
