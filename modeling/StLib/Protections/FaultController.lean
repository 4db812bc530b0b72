import StLib.StateMachine.Rules

/-! # The fault controller

`FaultController.hpp` and `FaultController.cpp`, as built with `STLIB_ETH`. The
static members are the `Controller` in the user part of the machines' `World`; the
global machine is an ordinary machine of that world, with the policy's operational
machine bound to its first state. Diagnostics are the list of causes published.

An action or a guard of the program is a list of steps; each reads the world,
changes the program's own state and may request a fault. A request made while the
first one is being served finds `faulted` set and only publishes (`requestAgain`);
`requestFault_eq` says that this is the recursion of the source. -/
namespace StLib.Protections.FaultController

open StLib.Scheduler.Model StLib.StateMachine.Model StLib.StateMachine.Rules

/-! ## Policies -/

/-- `RuntimeState`. -/
inductive RuntimeState
  | operational
  | fault
deriving DecidableEq

def RuntimeState.toNat : RuntimeState → Nat
  | .operational => 0
  | .fault => 1

/-- `FaultController::on_fault_state_enter`, which is private: no machine of a
program calls it. -/
def onFaultStateEnter : Callback := 0

/-- A `Policy` of `install_runtime`; `place` tells policies apart. -/
structure Policy where
  place : Nat
  operationalMachine : Option Machine := none
  onFaultEnter : Option Callback := none
  own : ∀ m, operationalMachine = some m → MachineUses (· ≠ onFaultStateEnter) m

/-- Where the policy's global machine is. -/
def Policy.addr (p : Policy) : Addr := [p.place]

/-- Where its operational machine is: bound first. -/
def Policy.operationalAddr (p : Policy) : Addr := 0 :: p.addr

/-- `build_runtime_machine`, less the initial state. -/
def Policy.runtimeMachine (p : Policy) : Machine :=
  .mk { states := [{}, { onEnterActions := [some onFaultStateEnter] }]
        transitionsAssoc := [(0, 0), (0, 0)] }
    (match p.operationalMachine with
      | some m => .cons RuntimeState.operational.toNat m .nil
      | none => .nil)

/-! ## The controller -/

/-- A `FaultPropagationTarget`. -/
structure PropagationTarget where
  socket : Nat
  faultOrder : Nat
  pending : Bool := false
deriving DecidableEq

/-- The static members. `runtime_storage`, `global_machine` and `on_fault_enter` are
set and cleared together, from one policy. `requested` and `faultEntries` count the
requests and the runs of `on_fault_enter` since a runtime was last installed over
another; nothing reads them. `program` is the state of the program around. -/
structure Controller (κ υ : Type) where
  runtime : Option Policy := none
  latchedCause : κ
  hasLatchedCause : Bool := false
  faulted : Bool := false
  runtimeStarted : Bool := false
  propagationTargets : List PropagationTarget := []
  lastRetryUs : BitVec 64 := 0#64
  published : List κ := []
  requested : List κ := []
  faultEntries : Nat := 0
  program : υ

/-- The world with a controller for causes `κ` and a program of states `υ`. -/
abbrev CWorld (κ υ : Type) := World (Controller κ υ)

/-- A step of an action: what it makes of the program's state, and the fault it
requests. -/
abbrev Act (κ υ : Type) := CWorld κ υ → Option κ × υ

/-- The program around: its actions and guards, `FaultCause::panic`, the state orders
and the sockets. -/
structure Program (κ υ : Type) where
  action : Callback → List (Act κ υ)
  guard : Guard → List (Act κ υ) × (CWorld κ υ → Bool)
  panicCause : String → κ
  addStateOrders : List (BitVec 16) → υ → υ := fun _ u => u
  removeStateOrders : List (BitVec 16) → υ → υ := fun _ u => u
  sendOrder : PropagationTarget → υ → Bool × υ := fun _ u => (true, u)

variable {κ υ : Type}

def mapUser (f : Controller κ υ → Controller κ υ) (w : CWorld κ υ) : CWorld κ υ :=
  { w with user := f w.user }

def runActs (request : κ → CWorld κ υ → CWorld κ υ) : List (Act κ υ) → CWorld κ υ → CWorld κ υ
  | [], w => w
  | a :: rest, w =>
    let r := a w
    let w := mapUser (fun u => { u with program := r.2 }) w
    runActs request rest (match r.1 with
      | some c => request c w
      | none => w)

/-- `on_fault_state_enter`. -/
def runFaultStateEnter (prog : Program κ υ) (request : κ → CWorld κ υ → CWorld κ υ)
    (w : CWorld κ υ) : CWorld κ υ :=
  match w.user.runtime.bind Policy.onFaultEnter with
  | some c =>
    runActs request (prog.action c) (mapUser (fun u => { u with faultEntries := u.faultEntries + 1 }) w)
  | none => w

/-- The callbacks of the machines, given what a request for a fault does. -/
def hooks (prog : Program κ υ) (request : κ → CWorld κ υ → CWorld κ υ) : Hooks (Controller κ υ) where
  action c w :=
    if c = onFaultStateEnter then runFaultStateEnter prog request w
    else runActs request (prog.action c) w
  predicate g w :=
    let w := runActs request (prog.guard g).1 w
    ((prog.guard g).2 w, w)
  panic msg w := request (prog.panicCause msg) w
  addStateOrders ids w := mapUser (fun u => { u with program := prog.addStateOrders ids u.program }) w
  removeStateOrders ids w :=
    mapUser (fun u => { u with program := prog.removeStateOrders ids u.program }) w

/-- `reconstruct_runtime_machine`: the machine is built anew in the storage. -/
def reconstructRuntimeMachine (p : Policy) (s : RuntimeState) (w : CWorld κ υ) : CWorld κ υ :=
  { w with
    currentState := Function.update w.currentState p.addr s.toNat
    calledStart := Function.update w.calledStart p.addr false
    cyclicActions := Function.update w.cyclicActions p.addr fun _ => []
    user := { w.user with runtime := some p } }

def publishFaultDiagnostic (c : κ) : CWorld κ υ → CWorld κ υ :=
  mapUser fun u => { u with published := u.published ++ [c] }

/-- Send the fault order to a list of targets; with `retry`, to the pending ones. -/
def sendFaultOrders (prog : Program κ υ) (retry : Bool) :
    List PropagationTarget → υ → List PropagationTarget × υ
  | [], u => ([], u)
  | t :: rest, u =>
    if retry && !t.pending then
      let r := sendFaultOrders prog retry rest u
      (t :: r.1, r.2)
    else
      let sent := prog.sendOrder t u
      let r := sendFaultOrders prog retry rest sent.2
      ({ t with pending := !sent.1 } :: r.1, r.2)

/-- `propagate_fault`, and `retry_pending_fault_propagation` with `retry`; the records
they publish are not modelled. -/
def propagateFault (prog : Program κ υ) (retry : Bool) : CWorld κ υ → CWorld κ υ :=
  mapUser fun u =>
    let r := sendFaultOrders prog retry u.propagationTargets u.program
    { u with propagationTargets := r.1, program := r.2 }

def recordRequest (c : κ) : CWorld κ υ → CWorld κ υ :=
  mapUser fun u => { u with requested := u.requested ++ [c] }

def latch (c : κ) : CWorld κ υ → CWorld κ υ :=
  mapUser fun u => { u with latchedCause := c, hasLatchedCause := true, faulted := true }

/-- `request_fault` when a fault is latched. -/
def requestAgain (c : κ) (w : CWorld κ υ) : CWorld κ υ :=
  publishFaultDiagnostic c (recordRequest c w)

/-- What `request_fault` does to the global machine. -/
def switchToFault (prog : Program κ υ) (request : κ → CWorld κ υ → CWorld κ υ) (w : CWorld κ υ) :
    CWorld κ υ :=
  match w.user.runtime with
  | some p =>
    if w.user.runtimeStarted then
      p.runtimeMachine.forceChangeState (hooks prog request) p.addr RuntimeState.fault.toNat w
    else reconstructRuntimeMachine p .fault w
  | none => w

/-- `request_fault`, given what a request made meanwhile does. -/
def requestWith (prog : Program κ υ) (request : κ → CWorld κ υ → CWorld κ υ) (c : κ)
    (w : CWorld κ υ) : CWorld κ υ :=
  let w := recordRequest c w
  if !w.user.faulted then
    publishFaultDiagnostic c
      (propagateFault prog false (switchToFault prog request (latch c w)))
  else publishFaultDiagnostic c w

def requestFault (prog : Program κ υ) : κ → CWorld κ υ → CWorld κ υ :=
  requestWith prog requestAgain

def installRuntime [Inhabited κ] (p : Policy) (w : CWorld κ υ) : CWorld κ υ :=
  let preservePreinstalledFault :=
    w.user.runtime.isNone && !w.user.runtimeStarted && w.user.faulted && w.user.hasLatchedCause
  let w := mapUser (fun u => { u with
    requested := if u.runtime.isSome then [] else u.requested
    faultEntries := if u.runtime.isSome then 0 else u.faultEntries
    runtimeStarted := false
    faulted := preservePreinstalledFault
    hasLatchedCause := preservePreinstalledFault
    latchedCause := if preservePreinstalledFault then u.latchedCause else default }) w
  let w := reconstructRuntimeMachine p (if preservePreinstalledFault then .fault else .operational) w
  mapUser (fun u => { u with propagationTargets := [], lastRetryUs := 0#64 }) w

/-- The callbacks outside of a request. -/
def outerHooks (prog : Program κ υ) : Hooks (Controller κ υ) := hooks prog (requestFault prog)

def setRuntimeStarted : CWorld κ υ → CWorld κ υ :=
  mapUser fun u => { u with runtimeStarted := true }

def start (prog : Program κ υ) (w : CWorld κ υ) : CWorld κ υ :=
  match w.user.runtime with
  | some p =>
    if w.user.runtimeStarted then w
    else p.runtimeMachine.start (outerHooks prog) p.addr (setRuntimeStarted w)
  | none => w

def propagationRetryPeriodUs : BitVec 64 := 100000#64

/-- `check_transitions` at the global tick `nowUs`. -/
def checkTransitions (prog : Program κ υ) (nowUs : BitVec 64) (w : CWorld κ υ) : CWorld κ υ :=
  match w.user.runtime with
  | some p =>
    if !w.user.runtimeStarted then w
    else
      let w := p.runtimeMachine.checkTransitions (outerHooks prog) p.addr w
      if w.user.faulted ∧ propagationRetryPeriodUs ≤ nowUs - w.user.lastRetryUs then
        propagateFault prog true (mapUser (fun u => { u with lastRetryUs := nowUs }) w)
      else w
  | none => w

def isFaulted (w : CWorld κ υ) : Bool := w.user.faulted

def latchedFaultCause (w : CWorld κ υ) : Option κ :=
  if w.user.hasLatchedCause then some w.user.latchedCause else none

def maxPropagationTargets : Nat := 8

/-- `register_fault_propagation` of a socket and an order that are not null; the
callback it gives the order is a call of `request_fault`. -/
def registerFaultPropagation (socket faultOrder : Nat) : CWorld κ υ → CWorld κ υ :=
  mapUser fun u =>
    if maxPropagationTargets ≤ u.propagationTargets.length then u
    else { u with propagationTargets := u.propagationTargets ++ [{ socket, faultOrder }] }

/-! ## Operations -/

/-- What the program calls. `operational` is a call on the operational machine of a
policy, past the controller. -/
inductive FaultOp (κ : Type)
  | requestFault (c : κ)
  | installRuntime (p : Policy)
  | start
  | checkTransitions (nowUs : BitVec 64)
  | operational (p : Policy) (op : MachineOp)
  | registerFaultPropagation (socket faultOrder : Nat)

/-- A call on the operational machine of a policy. -/
def callOperational (prog : Program κ υ) (p : Policy) (op : MachineOp) (w : CWorld κ υ) :
    CWorld κ υ :=
  match p.operationalMachine with
  | some m =>
    match op with
    | .start => m.start (outerHooks prog) p.operationalAddr w
    | .checkTransitions => m.checkTransitions (outerHooks prog) p.operationalAddr w
    | .forceChangeState s => m.forceChangeState (outerHooks prog) p.operationalAddr s w
  | none => w

def FaultOp.run [Inhabited κ] (prog : Program κ υ) : FaultOp κ → CWorld κ υ → CWorld κ υ
  | .requestFault c, w => FaultController.requestFault prog c w
  | .installRuntime p, w => FaultController.installRuntime p w
  | .start, w => FaultController.start prog w
  | .checkTransitions nowUs, w => FaultController.checkTransitions prog nowUs w
  | .operational p op, w => callOperational prog p op w
  | .registerFaultPropagation socket faultOrder, w =>
    FaultController.registerFaultPropagation socket faultOrder w

/-- Between two operations time passes and the program does as it likes; the machines
and the controller stay as they are. -/
def Around (w v : CWorld κ υ) : Prop :=
  v = { w with sched := v.sched, user := { w.user with program := v.user.program } }

/-- An operation with the world it finds. -/
abbrev Label (κ υ : Type) := CWorld κ υ × FaultOp κ

def Step [Inhabited κ] (prog : Program κ υ) (w : CWorld κ υ) (l : Label κ υ) (w' : CWorld κ υ) :
    Prop :=
  Around w l.1 ∧ w' = l.2.run prog l.1

end StLib.Protections.FaultController
