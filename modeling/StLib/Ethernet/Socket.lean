import StLib.Ethernet.Endpoint

/-! # The TCP client

`Socket.cpp`. The address and port of the peer, the keep-alive settings and
`connecting_sockets`, which only lists the sockets that connect, are left out. -/
namespace StLib.Ethernet.Socket

open Base.Bytes (Byte)
open Lwip
open Endpoint (Order States)

inductive SocketState
  | inactive
  | connected
  | closing
deriving DecidableEq

def states : States SocketState where
  connected := .connected
  closing := .closing

/-- `connection` is `connection_control_block`; `block` of the world is
`socket_control_block`. -/
structure Client where
  connection : Option Nat := none
  pendingConnectionReset : Bool := false
  connectPollTicks : BitVec 16 := 0#16
  useKeepAlives : Bool := true

abbrev World := Lwip.World SocketState Client

abbrev M := Lwip.M SocketState Client

/-! ## Error callbacks -/

def errorCallback (arg : Bool) : M Unit := do
  if arg then
    modify fun w =>
      { w with
        block := none
        state := .inactive
        own := { w.own with connection := none, pendingConnectionReset := true, connectPollTicks := 0#16 } }
    Endpoint.clearPacketQueues

def connectionErrorCallback (arg : Bool) : M Unit := do
  if arg then
    modify fun w =>
      { w with
        block := none
        state := .inactive
        own := { w.own with connection := none, pendingConnectionReset := true, connectPollTicks := 0#16 } }

def onError : OnError → M Unit
  | .error => errorCallback true
  | .connectionError => connectionErrorCallback true

/-! ## Public calls -/

variable (env : Env)

def send : M Unit := Endpoint.send states env

def closeSocketBlock (p : Nat) : M Unit := do
  stack (tcpArg p false)
  stack (tcpSent p false)
  stack (tcpRecv p false)
  stack (tcpErr p none)
  stack (tcpPoll p none)
  let closeError ← stack (tcpClose env p)
  if closeError ≠ .ok then tcpAbort onError p

/-- `close` and `reset` abort a connection block alike. -/
def abortConnectionBlock (c : Nat) : M Unit := do
  stack (tcpArg c false)
  stack (tcpPoll c none)
  stack (tcpErr c none)
  tcpAbort onError c

def close : M Unit := do
  let w ← get
  match w.block with
  | some p => closeSocketBlock env p
  | none => pure ()
  let w ← get
  match w.own.connection with
  | some c => if w.block ≠ some c then abortConnectionBlock c
  | none => pure ()
  modify fun w => { w with block := none, own := { w.own with connection := none } }
  Endpoint.clearPacketQueues
  modify fun w =>
    { w with
      own := { w.own with connectPollTicks := 0#16, pendingConnectionReset := false }
      state := .inactive }

/-- What the constructor and `reset` do with a bound block. -/
def startConnection (c : Nat) : M Err := do
  stack (use c)
  stack (tcpArg c true)
  stack (tcpPoll c (some .connectionPoll))
  stack (tcpErr c (some .connectionError))
  stack (tcpConnect env c)

/-- The connecting constructor, on a socket with the initial values of its fields. -/
def construct : M Unit := do
  let created ← stack (tcpNew env)
  modify fun w => { w with own := { w.own with connection := created } }
  match created with
  | none => pure ()
  | some c => do
    stack (use c)
    let bindError ← stack (tcpBind env c)
    if bindError ≠ .ok then
      tcpAbort onError c
      modify fun w => { w with own := { w.own with connection := none } }
    else
      let connectError ← startConnection env c
      if connectError ≠ .ok ∧ connectError ≠ .isConn then
        modify fun w => { w with own := { w.own with pendingConnectionReset := true } }

/-- The rest of `reset` from `tcp_new` on. -/
def openConnection : M Unit := do
  let created ← stack (tcpNew env)
  modify fun w => { w with own := { w.own with connection := created } }
  match created with
  | none => modify fun w => { w with own := { w.own with pendingConnectionReset := true } }
  | some c => do
    stack (use c)
    let bindError ← stack (tcpBind env c)
    if bindError ≠ .ok then
      tcpAbort onError c
      modify fun w => { w with own := { w.own with connection := none, pendingConnectionReset := true } }
    else
      let connectError ← startConnection env c
      modify fun w =>
        { w with
          own := { w.own with
            pendingConnectionReset := !(connectError == .ok || connectError == .isConn) } }

def reset : M Unit := do
  modify fun w => { w with state := .inactive, block := none }
  Endpoint.clearPacketQueues
  modify fun w => { w with own := { w.own with connectPollTicks := 0#16 } }
  let w ← get
  match w.own.connection with
  | some c => abortConnectionBlock c
  | none => pure ()
  openConnection env

def reconnect : M Unit := do
  let w ← get
  if w.state = .connected then
    pure ()
  else
    match w.own.connection with
    | none => reset env
    | some c =>
      if w.own.pendingConnectionReset then
        reset env
      else if (← stack (tcpState c)) = .synSent then
        pure ()
      else
        let connectError ← stack (tcpConnect env c)
        if connectError ≠ .ok ∧ connectError ≠ .isConn then
          modify fun w => { w with own := { w.own with pendingConnectionReset := true } }

def sendOrder (order : Order) : M Bool := Endpoint.sendOrder states env (reconnect env) order

/-- The calls that a program makes, also from the order callbacks of a parse. -/
inductive Call
  | sendOrder (order : Order)
  | send
  | reconnect
  | close
  | reset

def Call.run : Call → M Unit
  | .sendOrder order => do
    let _ ← Socket.sendOrder env order
  | .send => Socket.send env
  | .reconnect => Socket.reconnect env
  | .close => Socket.close env
  | .reset => Socket.reset env

def runAll : List Call → M Unit
  | [] => pure ()
  | call :: rest => do
    call.run env
    runAll rest

/-! ## lwIP callbacks -/

variable (handlers : Nat → List Call)

def processData : M Unit := Endpoint.processData env fun n => runAll env (handlers n)

def connectCallback (arg : Bool) (p : Nat) (error : Err) : M Err := do
  if !arg then
    pure .val
  else if error ≠ .ok then
    modify fun w => { w with state := .inactive, own := { w.own with pendingConnectionReset := true } }
    pure error
  else
    modify fun w =>
      { w with
        block := some p
        state := .connected
        own := { w.own with connection := some p, pendingConnectionReset := false, connectPollTicks := 0#16 } }
    stack (use p)
    stack (tcpArg p true)
    stack (tcpRecv p true)
    stack (tcpPoll p (some .poll))
    stack (tcpSent p true)
    stack (tcpErr p (some .error))
    let w ← get
    if w.own.useKeepAlives then stack (use p)
    if w.tx ≠ [] then send env
    pure .ok

def receiveCallback (arg : Bool) (p : Nat) (packet : Option Nat) (error : Err) : M Err :=
  Endpoint.receiveCallback states (processData env handlers) arg p packet error

def pollCallback (arg : Bool) (p : Nat) : M Err :=
  Endpoint.pollCallback states env onError (processData env handlers) (close env) arg p

def sendCallback (arg : Bool) (p : Nat) : M Err :=
  Endpoint.sendCallback states env onError (close env) arg p

def connectionPollCallback (arg : Bool) (p : Nat) : M Err := do
  if !arg then
    tcpAbort onError p
    pure .abrt
  else
    modify fun w => { w with own := { w.own with connection := some p } }
    let w ← get
    if w.own.pendingConnectionReset then
      modify fun w => { w with own := { w.own with pendingConnectionReset := false } }
      reset env
      pure .abrt
    else
      if w.state ≠ .connected ∧ (← stack (tcpState p)) = .synSent then
        modify fun w =>
          { w with
            own := { w.own with
              connectPollTicks := w.own.connectPollTicks + 1
              pendingConnectionReset := w.own.connectPollTicks + 1 ≥ 20#16 } }
      else
        modify fun w => { w with own := { w.own with connectPollTicks := 0#16 } }
      pure .ok

end StLib.Ethernet.Socket
