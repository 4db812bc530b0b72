import StLib.Ethernet.Endpoint

/-! # The TCP server

`ServerSocket.cpp`. The addresses, the keep-alive settings and the priority that
`tcp_setprio` is given are left out; of `listening_sockets` stands whether the socket is
found under its port. -/
namespace StLib.Ethernet.ServerSocket

open Base.Bytes (Byte)
open Lwip
open Endpoint (Order States)

inductive ServerState
  | inactive
  | listening
  | accepted
  | closing
  | closed
deriving DecidableEq

def states : States ServerState where
  connected := .accepted
  closing := .closing

/-- `server` is `server_control_block`; `block` of the world is `client_control_block`. -/
structure Server where
  server : Option Nat := none
  listed : Bool := false

abbrev World := Lwip.World ServerState Server

abbrev M := Lwip.M ServerState Server

def errorCallback (arg : Bool) : M Unit := do
  if arg then
    modify fun w => { w with block := none, state := .closed }
    Endpoint.clearPacketQueues

/-- No block of a server has the other error callback. -/
def onError (_ : OnError) : M Unit := errorCallback true

/-! ## Public calls -/

variable (env : Env)

def send : M Unit := Endpoint.send states env

def closeClientBlock (p : Nat) : M Unit := do
  stack (tcpArg p false)
  stack (tcpSent p false)
  stack (tcpRecv p false)
  stack (tcpErr p none)
  stack (tcpPoll p none)
  let closeError ← stack (tcpClose env p)
  if closeError ≠ .ok then tcpAbort onError p
  modify fun w => { w with block := none }

/-- `close` and `accept_callback` close the listener alike. -/
def closeServerBlock (s : Nat) : M Unit := do
  stack (tcpArg s false)
  stack (tcpAccept s false)
  let closeError ← stack (tcpClose env s)
  if closeError ≠ .ok then tcpAbort onError s
  modify fun w => { w with own := { w.own with server := none } }

def close : M Unit := do
  let w ← get
  match w.block with
  | some p => closeClientBlock env p
  | none => pure ()
  let w ← get
  match w.own.server with
  | some s => closeServerBlock env s
  | none => pure ()
  Endpoint.clearPacketQueues
  modify fun w => { w with state := .closed, own := { w.own with listed := false } }

/-- The listening constructor, on a socket with the initial values of its fields. -/
def construct : M Unit := do
  let created ← stack (tcpNew env)
  modify fun w => { w with own := { w.own with server := created } }
  match created with
  | none => pure ()
  | some c => do
    stack (use c)
    let error ← stack (tcpBind env c)
    if error = .ok then
      let listening ← stack (tcpListen env c)
      modify fun w => { w with own := { w.own with server := listening } }
      match listening with
      | none => pure ()
      | some s => do
        modify fun w => { w with state := .listening, own := { w.own with listed := true } }
        stack (tcpArg s true)
        stack (tcpAccept s true)
    else
      tcpAbort onError c
      modify fun w => { w with own := { w.own with server := none } }

def sendOrder (order : Order) : M Bool := Endpoint.sendOrder states env (pure ()) order

/-- The calls that a program makes, also from the order callbacks of a parse. -/
inductive Call
  | sendOrder (order : Order)
  | send
  | close

def Call.run : Call → M Unit
  | .sendOrder order => do
    let _ ← ServerSocket.sendOrder env order
  | .send => ServerSocket.send env
  | .close => ServerSocket.close env

def runAll : List Call → M Unit
  | [] => pure ()
  | call :: rest => do
    call.run env
    runAll rest

/-! ## lwIP callbacks -/

variable (handlers : Nat → List Call)

def processData : M Unit := Endpoint.processData env fun n => runAll env (handlers n)

/-- `incoming` is null when lwIP has no block for the connection. -/
def acceptCallback (arg : Bool) (incoming : Option Nat) (error : Err) : M Err := do
  match incoming with
  | none => pure error
  | some p =>
    if error ≠ .ok then
      tcpAbort onError p
      pure error
    else
      let w ← get
      if !arg ∧ !w.own.listed then
        stack (use p)
        tcpAbort onError p
        pure .abrt
      else
        modify fun w => { w with state := .accepted, block := some p, rx := [] }
        stack (use p)
        stack (tcpArg p true)
        stack (tcpRecv p true)
        stack (tcpSent p true)
        stack (tcpErr p (some .error))
        stack (tcpPoll p (some .poll))
        stack (use p)
        let w ← get
        match w.own.server with
        | some s => closeServerBlock env s
        | none => pure ()
        pure .ok

def receiveCallback (arg : Bool) (p : Nat) (packet : Option Nat) (error : Err) : M Err :=
  Endpoint.receiveCallback states (processData env handlers) arg p packet error

def pollCallback (arg : Bool) (p : Nat) : M Err :=
  Endpoint.pollCallback states env onError (processData env handlers) (close env) arg p

def sendCallback (arg : Bool) (p : Nat) : M Err :=
  Endpoint.sendCallback states env onError (close env) arg p

end StLib.Ethernet.ServerSocket
