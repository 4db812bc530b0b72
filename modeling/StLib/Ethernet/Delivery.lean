import StLib.Communication.PacketOrders
import StLib.Ethernet.Integrity

/-! # Orders from one board to another

What `send_order` took on one board reaches the callbacks on the other. The network brings the
bytes written on a connection in order, in any segments, and may not have brought all of them
yet. -/
namespace StLib.Ethernet.Delivery

open StLib.Base.Bytes (Byte Memory bytesOfWord)
open StLib.Base.OwnedHeap StLib.Base.Chunks StLib.Base.FramedStreams
open StLib.Communication.OrderStream (Pbuf maxRxStreamBufferBytes)
open StLib.Communication.Packets StLib.Communication.PacketRoundTrip
open StLib.Communication.OrderTable StLib.Communication.ChunkInvariance
open StLib.Communication.PacketOrders
open StLib.Ethernet.Lwip StLib.Ethernet.Endpoint StLib.Ethernet.Transmit

/-! ## The sender -/

/-- A packet as `send_order` builds it. -/
def orderOf (p : Packet) (h : Sound p) (garbage : Memory) : Endpoint.Order where
  size := p.getSize
  buffer := some ((p.written garbage).1.take p.getSize)
  complete data hdata := by
    cases hdata
    rw [written_take h]
    exact (fits h garbage).count

/-- Whatever the buffer held, the bytes of an order are those of its packet. -/
theorem orderOf_encoding {p : Packet} (h : Sound p) (garbage : Memory) :
    (orderOf p h garbage).encoding = frame p :=
  written_take h garbage

/-- In some run a client or a server has the connection `c`, on which it has `written` these
bytes; `taken` are the orders that `send_order` took, and `queued` what is still to write. -/
inductive Sending (env : Env) (c : Nat) : List Byte → List (List Byte) → List Byte → Prop
  | client {handlers : Nat → List Socket.Call} {useKeepAlives : Bool} {es : List ClientRuns.Event}
      {w : Socket.World} (hr : ClientCallbacks.Reaches env handlers useKeepAlives es w)
      (hblock : w.block = some c) :
      Sending env c (w.lwip.written c) (w.taken c) (contents w.lwip.pbufs w.tx)
  | server {handlers : Nat → List ServerSocket.Call} {es : List ServerRuns.Event}
      {w : ServerSocket.World} (hr : ServerRuns.Reaches env handlers es w)
      (hblock : w.block = some c) :
      Sending env c (w.lwip.written c) (w.taken c) (contents w.lwip.pbufs w.tx)

/-- What is written and what is queued are the orders taken. -/
theorem Sending.flow {env : Env} {c : Nat} {written queued : List Byte} {taken : List (List Byte)}
    (h : Sending env c written taken queued) : written ++ queued = taken.flatten := by
  cases h with
  | client hr hblock =>
    obtain hnone | ⟨d, b, hd⟩ := ClientRuns.unconnected (ClientCallbacks.reaches_owned hr)
    · cases hnone.symm.trans hblock
    · cases hd.block.symm.trans hblock
      exact hd.flow
  | server hr hblock =>
    obtain hnone | ⟨d, b, hd⟩ := Server.unconnected (ServerRuns.reaches_owned hr)
    · cases hnone.symm.trans hblock
    · cases hd.block.symm.trans hblock
      exact hd.flow

/-! ## The receiver -/

section Receiver

variable {α : Type} {ids : BitVec 16 → Option Nat} {callback : Nat → Option (Callback α)}
variable {packet : Nat → Packet} {b : Board α} {ms : List Message}
variable {queues : List (List (Option Pbuf))}

/-- The bytes that came. -/
def arrived (queues : List (List (Option Pbuf))) : List Byte := (queues.flatMap segments).flatten

/-- The orders of the receiver fit in its stream buffer. -/
def Bounded (ids : BitVec 16 → Option Nat) (packet : Nat → Packet) : Prop :=
  ∀ id order, ids id = some order → length (packet order) ≤ maxRxStreamBufferBytes

theorem Bounded.fixedSizes (h : Bounded ids packet) : FixedSizes (table ids packet) :=
  fun id order hid => ⟨Nat.le_add_left 2 _, h id order hid⟩

variable (hfixed : ∀ o, ∀ f ∈ (packet o).fields, Fixed (packet o).kind f) (htame : Tame packet callback)
  (hbounded : Bounded ids packet) (hb : Intact packet b) (hq : ∀ queue ∈ queues, Complete queue)

include hfixed htame hbounded hb hq in
/-- The receiver decodes what came, however it was cut. -/
theorem observed_arrived (beyond : Nat → Nat → Memory) :
    observed (run (packetOrders ids callback) beyond queues { state := b }) =
      (reference (packetOrders ids callback) (table ids packet)).decode b (arrived queues) := by
  have hlawful := packetOrders_lawful ids hfixed htame
  rw [observed_run hlawful hbounded.fixedSizes hq hb]
  have hstart : observed { state := b } =
      (reference (packetOrders ids callback) (table ids packet)).decode b [] :=
    (Decoder.decode_none (reference_nil _ _ b)).symm
  rw [hstart]
  exact Decoder.feed_eq_decode (reference_stable hlawful) hb [] _

end Receiver

/-- An order of one byte on either board. -/
def byteOrder (x : Byte) : Packet :=
  construct .heap 5 [.value 1 ⟨[x], rfl⟩] (fun _ _ => 0) fun _ => 0

theorem byteOrder_sound (x : Byte) : Sound (byteOrder x) :=
  sound_construct .heap 5 [.value 1 ⟨[x], rfl⟩] (fun _ _ => 0) fun _ => 0

def byteIds (id : BitVec 16) : Option Nat := if id = 5#16 then some 0 else none

def byteBoard : Board Unit := { packet := fun _ => byteOrder 0, program := () }

def byteMessage (x : Byte) : Message := { order := 0, packet := byteOrder x }

theorem byteOrder_fixed (o : Nat) : ∀ f ∈ (byteBoard.packet o).fields, Fixed (byteBoard.packet o).kind f := by
  intro f hf
  rw [List.mem_singleton.mp hf]
  trivial

theorem byteBoard_intact : Intact byteBoard.packet byteBoard := fun _ =>
  ⟨rfl, byteOrder_sound 0, .cons (.value _ _) .nil⟩

theorem byteMessage_addressed (x : Byte) : Addressed byteIds byteBoard.packet (byteMessage x) where
  id := rfl
  sound := byteOrder_sound x
  kind := rfl
  fields := ⟨id, .cons (.value _ _) .nil⟩
  restorable f hf := by
    rw [List.mem_singleton.mp hf]
    trivial

/-- Two orders are sent on a connection. -/
def twoBytes : List ClientRuns.Event :=
  [.connect 0 .ok, .call (.sendOrder (orderOf (byteOrder 7) (byteOrder_sound 7) fun _ => 0)),
    .call (.sendOrder (orderOf (byteOrder 8) (byteOrder_sound 8) fun _ => 0))]

/-- What is written of them comes in two segments. -/
def twoSegments : List (List (Option Pbuf)) :=
  [[some { totLen := 2, copied := [5, 0] }], [some { totLen := 1, copied := [7] }]]

end StLib.Ethernet.Delivery
