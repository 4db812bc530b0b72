import Mathlib.Logic.Function.Basic
import StLib.Base.Bytes

/-! # The lwIP calls of the TCP sockets

lwIP is not part of the repository. Of a control block stand here the callbacks that the
sockets register and the states that they read; what a call returns is an answer of the
environment. A call on a block or a `pbuf` that is not allocated is recorded as misuse. -/
namespace StLib.Ethernet.Lwip

open Base.Bytes (Byte)

/-! ## Control blocks -/

/-- `err_t`. -/
inductive Err
  | ok
  | mem
  | val
  | isConn
  | abrt
  | other (code : Nat)
deriving DecidableEq

/-- `tcp_state`; the sockets only tell `SYN_SENT` from the others. -/
inductive TcpState
  | closed
  | synSent
  | other
deriving DecidableEq

inductive Poll
  | poll
  | connectionPoll
deriving DecidableEq

inductive OnError
  | error
  | connectionError
deriving DecidableEq

/-- `tcp_pcb`; `arg` tells whether the argument of the callbacks is the socket or null. -/
structure Block where
  state : TcpState := .closed
  arg : Bool := false
  connected : Bool := false
  accept : Bool := false
  recv : Bool := false
  sent : Bool := false
  poll : Option Poll := none
  err : Option OnError := none
deriving DecidableEq

/-! ## Environment -/

/-- The calls whose result the environment chooses. -/
inductive Fn
  | tcpNew
  | tcpBind
  | tcpListen
  | tcpConnect
  | tcpWrite
  | tcpSndbuf
  | tcpClose
  | pbufAlloc
  | pbufTake
  | pbufCopyPartial
  | parse
deriving DecidableEq

/-- The results of the calls, by how many there were of the same kind before. -/
structure Env where
  tcpNew : Nat → Bool
  tcpBind : Nat → Err
  tcpListen : Nat → Bool
  tcpConnect : Nat → Err
  tcpWrite : Nat → Err
  tcpSndbuf : Nat → Nat
  tcpClose : Nat → Err
  pbufAlloc : Nat → Bool
  pbufTake : Nat → Err
  pbufCopyPartial : Nat → Nat

/-- `written` and `aborted` only record what was done. -/
structure Stack where
  blocks : Nat → Option Block := fun _ => none
  nextBlock : Nat := 0
  pbufs : Nat → Option (List Byte) := fun _ => none
  nextPbuf : Nat := 0
  count : Fn → Nat := fun _ => 0
  written : Nat → List Byte := fun _ => []
  aborted : List Nat := []
  misused : Bool := false

/-- A socket of one of the two classes with the stack under it: what both classes have, and
what only the class has in `own`. `block` is `socket_control_block` or
`client_control_block`. No null `pbuf` is ever queued. `taken` records the orders for which
`send_order` returned true, by control block. -/
structure World (σ ρ : Type) where
  lwip : Stack
  state : σ
  block : Option Nat
  tx : List Nat
  rx : List Nat
  own : ρ
  taken : Nat → List (List Byte) := fun _ => []

abbrev M (σ ρ : Type) := StateM (World σ ρ)

variable {σ ρ α : Type}

def stack (m : StateM Stack α) : M σ ρ α :=
  fun w => ((m w.lwip).1, { w with lwip := (m w.lwip).2 })

/-- One answer of the environment. -/
def ask (f : Fn) (answer : Nat → α) : StateM Stack α :=
  fun l => (answer (l.count f), { l with count := Function.update l.count f (l.count f + 1) })

def misuse : StateM Stack Unit := modify fun l => { l with misused := true }

/-! ## TCP -/

/-- A use of a control block that changes nothing that stands here: `tcp_output`, `tcp_recved`,
`tcp_nagle_disable`, `tcp_setprio` and the options. -/
def use (p : Nat) : StateM Stack Unit := do
  let l ← get
  match l.blocks p with
  | some _ => pure ()
  | none => misuse

def update (p : Nat) (f : Block → Block) : StateM Stack Unit := do
  let l ← get
  match l.blocks p with
  | some b => set { l with blocks := Function.update l.blocks p (some (f b)) }
  | none => misuse

def tcpArg (p : Nat) (arg : Bool) : StateM Stack Unit := update p fun b => { b with arg := arg }

def tcpRecv (p : Nat) (recv : Bool) : StateM Stack Unit := update p fun b => { b with recv := recv }

def tcpSent (p : Nat) (sent : Bool) : StateM Stack Unit := update p fun b => { b with sent := sent }

def tcpAccept (p : Nat) (accept : Bool) : StateM Stack Unit :=
  update p fun b => { b with accept := accept }

def tcpPoll (p : Nat) (poll : Option Poll) : StateM Stack Unit := update p fun b => { b with poll := poll }

def tcpErr (p : Nat) (err : Option OnError) : StateM Stack Unit := update p fun b => { b with err := err }

/-- `pcb->state`. -/
def tcpState (p : Nat) : StateM Stack TcpState := do
  let l ← get
  match l.blocks p with
  | some b => pure b.state
  | none => do
    misuse
    pure .closed

def tcpNew (env : Env) : StateM Stack (Option Nat) := do
  if ← ask .tcpNew env.tcpNew then
    let l ← get
    set { l with blocks := Function.update l.blocks l.nextBlock (some {}), nextBlock := l.nextBlock + 1 }
    pure (some l.nextBlock)
  else
    pure none

def tcpBind (env : Env) (p : Nat) : StateM Stack Err := do
  use p
  ask .tcpBind env.tcpBind

/-- A block that listens takes the place of the given one. -/
def tcpListen (env : Env) (p : Nat) : StateM Stack (Option Nat) := do
  use p
  if ← ask .tcpListen env.tcpListen then
    let l ← get
    let blocks := Function.update (Function.update l.blocks p none) l.nextBlock (some { state := .other })
    set { l with blocks := blocks, nextBlock := l.nextBlock + 1 }
    pure (some l.nextBlock)
  else
    pure none

/-- A block that is not in the state `CLOSED` is left as it is. -/
def tcpConnect (env : Env) (p : Nat) : StateM Stack Err := do
  let state ← tcpState p
  if state ≠ .closed then
    pure .isConn
  else
    let error ← ask .tcpConnect env.tcpConnect
    if error = .ok then
      update p fun b => { b with state := .synSent, connected := true }
    pure error

def tcpSndbuf (env : Env) (p : Nat) : StateM Stack Nat := do
  use p
  ask .tcpSndbuf env.tcpSndbuf

def tcpWrite (env : Env) (p : Nat) (data : List Byte) : StateM Stack Err := do
  use p
  let error ← ask .tcpWrite env.tcpWrite
  if error = .ok then
    modify fun l => { l with written := Function.update l.written p (l.written p ++ data) }
  pure error

/-- A block that is closed belongs to lwIP again. -/
def tcpClose (env : Env) (p : Nat) : StateM Stack Err := do
  use p
  let error ← ask .tcpClose env.tcpClose
  if error = .ok then
    modify fun l => { l with blocks := Function.update l.blocks p none }
  pure error

/-- The block is freed before its error callback runs. -/
def tcpAbort (onError : OnError → M σ ρ Unit) (p : Nat) : M σ ρ Unit := do
  let w ← get
  match w.lwip.blocks p with
  | none => stack misuse
  | some b => do
    stack <| modify fun l =>
      { l with blocks := Function.update l.blocks p none, aborted := l.aborted ++ [p] }
    match b.err with
    | some callback => if b.arg then onError callback
    | none => pure ()

/-! ## pbufs -/

def pbufFree (b : Nat) : StateM Stack Unit := do
  let l ← get
  match l.pbufs b with
  | some _ => set { l with pbufs := Function.update l.pbufs b none }
  | none => misuse

/-- A `pbuf` with the given contents. -/
def pbufFresh (data : List Byte) : StateM Stack Nat := do
  let l ← get
  set { l with pbufs := Function.update l.pbufs l.nextPbuf (some data), nextPbuf := l.nextPbuf + 1 }
  pure l.nextPbuf

/-- The contents are those of fresh memory, for which zeros stand. -/
def pbufAlloc (env : Env) (size : Nat) : StateM Stack (Option Nat) := do
  if ← ask .pbufAlloc env.pbufAlloc then
    let b ← pbufFresh (List.replicate size 0)
    pure (some b)
  else
    pure none

/-- `payload` and `tot_len`. -/
def pbufPayload (b : Nat) : StateM Stack (List Byte) := do
  let l ← get
  match l.pbufs b with
  | some data => pure data
  | none => do
    misuse
    pure []

/-- A null source is refused. -/
def pbufTake (env : Env) (b : Nat) (source : Option (List Byte)) : StateM Stack Err := do
  let _ ← pbufPayload b
  match source with
  | none => pure .val
  | some data => do
    let error ← ask .pbufTake env.pbufTake
    if error = .ok then
      modify fun l => { l with pbufs := Function.update l.pbufs b (some data) }
    pure error

def pbufCopyPartial (env : Env) (b : Nat) : StateM Stack Nat := do
  let _ ← pbufPayload b
  ask .pbufCopyPartial env.pbufCopyPartial

end StLib.Ethernet.Lwip
