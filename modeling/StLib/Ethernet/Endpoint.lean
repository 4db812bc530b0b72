import StLib.Ethernet.Lwip

/-! # What the two TCP sockets share

The transmit path and `process_data`, which `Socket.cpp` and `ServerSocket.cpp` write alike
for their own states and control block. `rx_stream_buffer`, which only the parser reads, is
left out; what the order callbacks of one parse do is a parameter. -/
namespace StLib.Ethernet.Endpoint

open Base.Bytes (Byte)
open Lwip

/-- The states of a class that its transmit path tells apart. -/
structure States (σ : Type) where
  connected : σ
  closing : σ

/-- `build` gives `get_size` bytes, or null. -/
structure Order where
  size : Nat
  buffer : Option (List Byte)
  complete : ∀ data, buffer = some data → data.length = size

/-- The bytes of an order as it stands. -/
def Order.encoding (order : Order) : List Byte := order.buffer.getD []

def maxTxQueueDepth : Nat := 64

/-- `TCP_SND_BUF` of `lwipopts.h`. -/
def tcpSndBuf : Nat := 5840

variable {σ ρ : Type} [DecidableEq σ] (states : States σ) (env : Env)

/-- `clear_packet_queues`, one of the queues. -/
def freeAll : List Nat → StateM Stack Unit
  | [] => pure ()
  | b :: rest => do
    pbufFree b
    freeAll rest

def clearPacketQueues : M σ ρ Unit := do
  let w ← get
  stack (freeAll w.tx)
  stack (freeAll w.rx)
  modify fun w => { w with tx := [], rx := [] }

/-- The loop of `send` over the queue. -/
def flush (p : Nat) : List Nat → M σ ρ Unit
  | [] => pure ()
  | b :: rest => do
    let data ← stack (pbufPayload b)
    let room ← stack (tcpSndbuf env p)
    if data.length > room then
      pure ()
    else
      let error ← stack (tcpWrite env p data)
      match error with
      | .ok => do
        modify fun w => { w with tx := rest }
        stack (pbufFree b)
        flush p rest
      | .mem => pure ()
      | _ => modify fun w => { w with state := states.closing }

def send : M σ ρ Unit := do
  let w ← get
  match w.block with
  | none => pure ()
  | some p =>
    if w.state ≠ states.connected then
      pure ()
    else
      flush states env p w.tx
      stack (use p)

def trySendImmediately (order : Order) : M σ ρ Bool := do
  let w ← get
  match w.block with
  | none => pure false
  | some p =>
    if w.state ≠ states.connected ∨ w.tx ≠ [] then
      pure false
    else if order.size = 0 ∨ order.size > tcpSndBuf then
      pure false
    else
      let room ← stack (tcpSndbuf env p)
      if order.size > room then
        pure false
      else
        match order.buffer with
        | none => pure false
        | some data => do
          let error ← stack (tcpWrite env p data)
          match error with
          | .ok => do
            stack (use p)
            pure true
          | .mem => pure false
          | _ => do
            modify fun w => { w with state := states.closing }
            pure false

def addOrderToQueue (order : Order) : M σ ρ Bool := do
  let w ← get
  if w.state ≠ states.connected ∨ w.block = none then
    pure false
  else if w.tx.length ≥ maxTxQueueDepth then
    pure false
  else if order.size = 0 ∨ order.size > tcpSndBuf then
    pure false
  else
    match ← stack (pbufAlloc env order.size) with
    | none => pure false
    | some b =>
      if (← stack (pbufTake env b order.buffer)) ≠ .ok then
        stack (pbufFree b)
        pure false
      else
        modify fun w => { w with tx := w.tx ++ [b] }
        pure true

/-- `send_order` after its check of the connection. -/
def sendConnected (order : Order) : M σ ρ Bool := do
  if ← trySendImmediately states env order then
    pure true
  else if ← addOrderToQueue states env order then
    send states env
    pure true
  else
    send states env
    if ← addOrderToQueue states env order then
      send states env
      pure true
    else
      pure false

/-- The record of the orders that were taken. -/
def record (p : Nat) (order : Order) (w : World σ ρ) : World σ ρ :=
  { w with taken := Function.update w.taken p (w.taken p ++ [order.encoding]) }

/-- `send_order`, which does `disconnected` where there is no connection. -/
def sendOrder (disconnected : M σ ρ Unit) (order : Order) : M σ ρ Bool := do
  let w ← get
  match w.block with
  | none => do
    disconnected
    pure false
  | some p =>
    if w.state ≠ states.connected then
      disconnected
      pure false
    else
      let sent ← sendConnected states env order
      if sent then modify (record p order)
      pure sent

/-- The loop of `process_data` for at most `n` packets; `parse` is what the order callbacks
do while the parser processes a packet. -/
def processLoop (parse : Nat → M σ ρ Unit) : Nat → M σ ρ Unit
  | 0 => pure ()
  | n + 1 => do
    let w ← get
    match w.rx with
    | [] => pure ()
    | b :: rest => do
      set { w with rx := rest }
      match w.block with
      | some p => stack (use p)
      | none => pure ()
      let data ← stack (pbufPayload b)
      let copied ← stack (pbufCopyPartial env b)
      if copied = data.length then
        parse (← stack (ask .parse id))
      stack (pbufFree b)
      processLoop parse n

/-- No callback adds a packet, so the loop ends with the packets that are there. -/
def processData (parse : Nat → M σ ρ Unit) : M σ ρ Unit := do
  let w ← get
  processLoop env parse w.rx.length

/-! ## lwIP callbacks

`arg` tells whether the socket is there. Each class gives its own `process_data` and `close`. -/

/-- `receive_callback`; the packet is null when the peer has closed. -/
def receiveCallback (process : M σ ρ Unit) (arg : Bool) (p : Nat) (packet : Option Nat) (error : Err) :
    M σ ρ Err := do
  if !arg then
    match packet with
    | some b => stack (pbufFree b)
    | none => pure ()
    pure .val
  else
    modify fun w => { w with block := some p }
    match packet with
    | none => do
      modify fun w => { w with state := states.closing }
      pure .ok
    | some b => do
      let w ← get
      if error ≠ .ok then
        stack (pbufFree b)
        pure .ok
      else if w.state = states.connected then
        modify fun w => { w with rx := w.rx ++ [b] }
        process
        pure .ok
      else
        stack (pbufFree b)
        pure .ok

/-- `poll_callback`. -/
def pollCallback (onError : OnError → M σ ρ Unit) (process close : M σ ρ Unit) (arg : Bool) (p : Nat) :
    M σ ρ Err := do
  if !arg then
    tcpAbort onError p
    pure .abrt
  else
    modify fun w => { w with block := some p }
    let w ← get
    if w.tx ≠ [] then send states env
    let w ← get
    if w.rx ≠ [] then process
    let w ← get
    if w.state = states.closing then close
    pure .ok

/-- `send_callback`. -/
def sendCallback (onError : OnError → M σ ρ Unit) (close : M σ ρ Unit) (arg : Bool) (p : Nat) :
    M σ ρ Err := do
  if !arg then
    tcpAbort onError p
    pure .abrt
  else
    modify fun w => { w with block := some p }
    let w ← get
    if w.tx ≠ [] then
      send states env
    else if w.state = states.closing then
      close
    pure .ok

end StLib.Ethernet.Endpoint
