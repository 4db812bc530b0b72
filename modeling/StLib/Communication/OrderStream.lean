import StLib.Base.Bytes

/-! # Orders in a TCP stream

`TcpOrderStreamParser.hpp`, `Order::process_data` and `Socket::process_data`
(`ServerSocket::process_data` is the same). The registered orders are an interface over
a state of the program, so that a callback may do anything. A pointer into the stream
buffer is the memory from there on: the bytes received, and then what lies `beyond`. -/
namespace StLib.Communication.OrderStream

open StLib.Base.Bytes

/-- `Packet::get_id`: two bytes, the low one first. -/
def getId (data : Memory) : BitVec 16 := wordOfBytes (data 0) (data 1)

/-- `Order::orders` and the virtual functions of its orders; `reads` is how many bytes
from its pointer `parse` reads. -/
structure Orders (σ : Type) where
  find : σ → BitVec 16 → Option Nat
  getSize : Nat → σ → Nat
  storeIpOrder : Nat → σ → σ
  parse : Nat → Memory → σ → σ
  reads : Nat → Memory → σ → Nat
  process : Nat → σ → σ
  resetForReceive : Nat → σ → σ

/-- An order dispatched, with the bytes of the buffer taken for it. -/
structure Frame where
  order : Nat
  bytes : List Byte
deriving DecidableEq

/-- A call of `Order::process_data`: the frame, how many bytes the buffer had from its
start on, and how many `parse` read. -/
structure Dispatch where
  frame : Frame
  available : Nat
  read : Nat
deriving DecidableEq

/-- The outcome of the loop: `parsedBytes` is what it adds to `parsed_bytes`. -/
structure Parsed (σ : Type) where
  state : σ
  parsedBytes : Nat := 0
  dispatched : List Dispatch := []

variable {σ : Type}

/-- `p` after a round of the loop. -/
def Parsed.after (n : Nat) (ds : List Dispatch) (p : Parsed σ) : Parsed σ :=
  { p with parsedBytes := n + p.parsedBytes, dispatched := ds ++ p.dispatched }

def Orders.processData (O : Orders σ) (data : Memory) (s : σ) : σ :=
  match O.find s (getId data) with
  | some order => O.process order (O.parse order data s)
  | none => s

/-- What is added to `parsed_bytes` for an order of the size `consumed`. -/
def taken (consumed : Nat) : Nat := if 0 < consumed then consumed else 2

/-- The loop of `process`; `rest` is the buffer from `parsed_bytes` on. Once more bytes
are parsed than buffered, the unsigned difference of the source wraps around and it goes
on outside of the buffer; the model stops there. -/
def loop (O : Orders σ) (beyond : Memory) : Nat → List Byte → σ → Parsed σ
  | 0, _, s => { state := s }
  | fuel + 1, rest, s =>
    if rest.length < 2 then { state := s }
    else
      let data := memory rest beyond
      match O.find s (getId data) with
      | none => (loop O beyond fuel (rest.drop 1) s).after 1 []
      | some order =>
        let orderSize := O.getSize order s
        if 0 < orderSize ∧ orderSize < 2 then (loop O beyond fuel (rest.drop 1) s).after 1 []
        else if 0 < orderSize ∧ rest.length < orderSize then { state := s }
        else
          let s := O.storeIpOrder order s
          let read := O.reads order data s
          let s := O.processData data s
          let n := taken (O.getSize order s)
          let s := O.resetForReceive order s
          (loop O beyond fuel (rest.drop n) s).after n
            [{ frame := { order, bytes := rest.take n }, available := rest.length, read }]

def maxRxStreamBufferBytes : Nat := 8192

/-- The last two steps of `process`: drop what is parsed, and the oldest of too much. -/
def trim (buffer : List Byte) : List Byte :=
  if maxRxStreamBufferBytes < buffer.length then
    buffer.drop (buffer.length - maxRxStreamBufferBytes)
  else buffer

/-- `TcpOrderStreamParser::process`, and the buffer as it leaves it. -/
def process (O : Orders σ) (beyond : Memory) (buffer : List Byte) (s : σ) :
    Parsed σ × List Byte :=
  if buffer.isEmpty then ({ state := s }, buffer)
  else
    let parsed := loop O beyond buffer.length buffer s
    (parsed, trim (buffer.drop parsed.parsedBytes))

/-! ## Sockets -/

/-- A `pbuf`: its length, and what `pbuf_copy_partial` copies out of it. -/
structure Pbuf where
  totLen : Nat
  copied : List Byte

/-- A call of `process`, to look back at. -/
structure Call where
  buffered : Nat
  parsedBytes : Nat
  dispatched : List Dispatch
deriving DecidableEq

/-- What `process_data` uses of a `Socket`, with the program behind its orders. -/
structure Socket (σ : Type) where
  rxStreamBuffer : List Byte := []
  state : σ
  calls : List Call := []

def Call.frames (call : Call) : List Frame := call.dispatched.map Dispatch.frame

/-- The orders dispatched, with their bytes. -/
def Socket.frames (socket : Socket σ) : List Frame := socket.calls.flatMap Call.frames

/-- `process` on the stream buffer. -/
def Socket.processStream (O : Orders σ) (beyond : Memory) (buffer : List Byte)
    (socket : Socket σ) : Socket σ :=
  let (parsed, rest) := process O beyond buffer socket.state
  { rxStreamBuffer := rest
    state := parsed.state
    calls := socket.calls ++ [{ buffered := buffer.length
                                parsedBytes := parsed.parsedBytes
                                dispatched := parsed.dispatched }] }

/-- A round of the loop of `process_data`. -/
def Socket.receive (O : Orders σ) (beyond : Memory) (packet : Option Pbuf) (socket : Socket σ) :
    Socket σ :=
  match packet with
  | none => socket
  | some packet =>
    if packet.copied.length = packet.totLen then
      socket.processStream O beyond (socket.rxStreamBuffer ++ packet.copied)
    else socket

/-- `process_data` of the packets queued; `beyond` is what lies behind the buffer, packet
by packet. -/
def Socket.processData (O : Orders σ) (beyond : Nat → Memory) :
    List (Option Pbuf) → Socket σ → Socket σ
  | [], socket => socket
  | packet :: queue, socket =>
    processData O (fun i => beyond (i + 1)) queue (socket.receive O (beyond 0) packet)

end StLib.Communication.OrderStream
