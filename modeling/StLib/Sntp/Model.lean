import StLib.Base.Bytes
import StLib.Base.Runs
import StLib.Scheduler.Timeouts

/-! # SNTP

`SNTP.cpp` and `SNTP.hpp`: the static members and the functions of the client over the
scheduler whose timeouts it uses. The options of lwIP that are not set are off: there is one
server, without a name. What `process` does with the time is left out. -/
namespace StLib.Sntp.Model

open StLib.Base.Bytes
open StLib.Scheduler.Model (Slot Callback Call Task onTimerUpdate finishDispatch invalidId)

/-- The scheduler's own state. -/
abbrev Sched := Scheduler.Model.State

def recvTimeout : BitVec 32 := 15000

/-- `RETRY_TIMEOUT`, which `retry_timeout` starts with. -/
def retryTimeoutInitial : BitVec 32 := 15000

def updateDelay : BitVec 32 := 3600000

def requestMax : Nat := 512

def recvMax : Nat := 8

def opmodePoll : BitVec 8 := 0

def opmodeListenonly : BitVec 8 := 1

def mode : BitVec 8 := opmodePoll

def msgLen : Nat := 48

def modeMask : Byte := 0x07

def modeServer : Byte := 0x04

def modeBroadcast : Byte := 0x05

def offsetStratum : Nat := 1

def stratumKod : Byte := 0x00

/-- `&SNTP::request`. -/
def requestCallback : Callback := 0

/-- `SNTP::try_next_server`, which is `&SNTP::retry`. -/
def tryNextServerCallback : Callback := 1

/-- `pcb` says whether there is one; `address` is `servers[0].addr`, 0 for any. `sentNull` is
set where a request is sent without a `pcb`. -/
structure State where
  scheduler : Sched
  pcb : Bool := false
  address : BitVec 32 := 0
  retryTimeout : BitVec 32 := retryTimeoutInitial
  requestTaskId : BitVec 16 := invalidId
  tryNextServerTaskId : BitVec 16 := invalidId
  opmode : BitVec 8 := mode
  requestCount : BitVec 16 := 0
  recvCount : BitVec 16 := 0
  sentNull : Bool := false

/-! ## The scheduler -/

/-- What happens before a call of the scheduler: interrupts of its timer, by the counter each
finds, and the counter the call finds. -/
structure Clock where
  interrupts : List (BitVec 32) := []
  cnt : BitVec 32 := 0

def interrupt (s : Sched) (cnt : BitVec 32) : Sched :=
  ((onTimerUpdate (s.atCount cnt)).map Prod.fst).getD s

def Clock.elapse (c : Clock) (s : Sched) : Sched := (c.interrupts.foldl interrupt s).atCount c.cnt

def setTimeout (c : Clock) (microseconds : BitVec 32) (func : Callback) (s : State) :
    BitVec 16 × State :=
  let r := Scheduler.Model.setTimeout microseconds (some func) (c.elapse s.scheduler)
  (r.1, { s with scheduler := r.2 })

def cancelTimeout (c : Clock) (id : BitVec 16) (s : State) : State :=
  { s with scheduler := (Scheduler.Model.cancelTimeout id (c.elapse s.scheduler)).2 }

def setRequest (c : Clock) (microseconds : BitVec 32) (s : State) : State :=
  let r := setTimeout c microseconds requestCallback s
  { r.2 with requestTaskId := r.1 }

def setTryNextServer (c : Clock) (microseconds : BitVec 32) (s : State) : State :=
  let r := setTimeout c microseconds tryNextServerCallback s
  { r.2 with tryNextServerTaskId := r.1 }

/-! ## The functions -/

/-- What lwIP answers, and what passes before each call of the scheduler, in order. -/
structure Env where
  udpNew : Bool := true
  pbufAlloc : Bool := true
  clock : Nat → Clock := fun _ => {}

def cancelBoth (clock : Nat → Clock) (first second : BitVec 16) (s : State) : State :=
  cancelTimeout (clock 1) second (cancelTimeout (clock 0) first s)

def stop (clock : Nat → Clock) (s : State) : State :=
  let s :=
    if s.pcb then
      { cancelBoth clock s.requestTaskId s.tryNextServerTaskId s with pcb := false }
    else s
  { s with requestTaskId := invalidId, tryNextServerTaskId := invalidId }

def sendRequest (env : Env) (s : State) : State :=
  if env.pbufAlloc then
    setTryNextServer (env.clock 0) recvTimeout { s with sentNull := s.sentNull || !s.pcb }
  else setRequest (env.clock 0) retryTimeoutInitial s

def retry (c : Clock) (s : State) : State := setRequest c s.retryTimeout s

/-- `request` up to its last check. -/
def requested (env : Env) (s : State) : State :=
  let s :=
    if s.address = 0 then setTryNextServer (env.clock 0) retryTimeoutInitial s
    else sendRequest env s
  { s with requestCount := s.requestCount + 1 }

def request (env : Env) (s : State) : State :=
  let s := requested env s
  if requestMax < s.requestCount.toNat then stop (fun k => env.clock (k + 1)) s else s

def start (address : BitVec 32) (env : Env) (s : State) : State :=
  let s := { s with address, recvCount := 0, requestCount := 0 }
  if s.pcb then s
  else if env.udpNew then
    let s := { s with pcb := true }
    if s.opmode = mode then request env s else s
  else s

inductive Err
  | ok
  | kod
  | timeout
  | arg
deriving DecidableEq

/-- `err` of a packet. -/
def response (opmode : BitVec 8) (p : List Byte) : Err :=
  if p.length = msgLen then
    let mode := p.getD 0 0 &&& modeMask
    if opmode = opmodePoll ∧ mode = modeServer ∨
        opmode = opmodeListenonly ∧ mode = modeBroadcast then
      if p.getD offsetStratum 0 = stratumKod then .kod else .ok
    else .timeout
  else .arg

/-- `recv` up to its last check. -/
def received (p : List Byte) (env : Env) (s : State) : State :=
  let s :=
    match response s.opmode p with
    | .ok =>
      if s.opmode = opmodePoll then
        let s := cancelBoth env.clock s.tryNextServerTaskId s.requestTaskId s
        setRequest (env.clock 2) updateDelay { s with retryTimeout := retryTimeoutInitial }
      else s
    | .kod => if s.opmode = opmodePoll then retry (env.clock 0) s else s
    | .timeout | .arg => s
  { s with recvCount := s.recvCount + 1 }

def recv (p : List Byte) (env : Env) (s : State) : State :=
  let s := received p env s
  if recvMax < s.recvCount.toNat then stop (fun k => env.clock (k + 3)) s else s

/-! ## Runs -/

/-- What the program does, or a callback of its own: lwIP calls `recv` while there is a `pcb`. -/
inductive Action
  | start (address : BitVec 32) (env : Env)
  | stop (clock : Nat → Clock)
  | recv (p : List Byte) (env : Env)
  | call (c : Call) (clock : Clock)

def Action.run (s : State) : Action → State
  | .start address env => Model.start address env s
  | .stop clock => Model.stop clock s
  | .recv p env => if s.pcb then Model.recv p env s else s
  | .call c clock => { s with scheduler := c.run (clock.elapse s.scheduler) }

/-- The callbacks of the client are its own. -/
def foreign : Call → Prop
  | .registerTask _ func | .setTimeout _ func =>
    func ≠ some requestCallback ∧ func ≠ some tryNextServerCallback
  | _ => True

def Action.Allowed : Action → Prop
  | .call c _ => foreign c
  | _ => True

/-- The callback of a slot; another's is what it does. -/
def callback (slot : Slot) (script : List Action) (env : Env) (s : State) : State :=
  if (s.scheduler.tasks slot).callback = some requestCallback then request env s
  else if (s.scheduler.tasks slot).callback = some tryNextServerCallback then
    retry (env.clock 0) s
  else script.foldl Action.run s

/-- One round of the loop of `Scheduler::update`. -/
def dispatch (slot : Slot) (script : List Action) (env : Env) (s : State) : State :=
  let s := callback slot script env s
  { s with scheduler := finishDispatch s.scheduler slot }

inductive Event
  | action (a : Action)
  | interrupt (cnt : BitVec 32)
  | dispatch (slot : Slot) (script : List Action) (env : Env)

inductive Step : State → Event → State → Prop
  | action {s : State} {a : Action} (h : a.Allowed) : Step s (.action a) (a.run s)
  | interrupt (s : State) (cnt : BitVec 32) :
      Step s (.interrupt cnt) { s with scheduler := Model.interrupt s.scheduler cnt }
  | dispatch {s : State} {slot : Slot} {script : List Action} {env : Env}
      (hready : s.scheduler.isReady slot = true) (h : ∀ a ∈ script, a.Allowed) :
      Step s (.dispatch slot script env) (Model.dispatch slot script env s)

def initial : State := { scheduler := Scheduler.Model.initial }

end StLib.Sntp.Model
