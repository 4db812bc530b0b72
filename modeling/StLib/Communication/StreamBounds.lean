import Mathlib.Data.List.Infix
import StLib.Communication.ChunkInvariance
import StLib.Diagnostics.TransportOrder

/-! # Self-sized orders in a stream

An order that does not say its size is parsed as soon as its id is there. The parser
stays inside of the buffer, and dispatches what a decoder does that waits for complete
frames, when no segment ends inside of a self-sized frame (`stream_bounded`). -/
namespace StLib.Communication.StreamBounds

open StLib.Base.Bytes StLib.Base.Chunks
open StLib.Communication.OrderStream StLib.Communication.OrderTable
open StLib.Communication.ChunkInvariance StLib.Diagnostics.TransportOrder

variable {σ : Type}

/-- A call of `process` parses no more than was buffered, and reads nothing behind it. -/
def Bounded (call : Call) : Prop :=
  call.parsedBytes ≤ call.buffered ∧ ∀ d ∈ call.dispatched, d.read ≤ d.available

/-- Decode a segment behind what the last one left in the stream buffer. -/
def receive (O : Orders σ) (T : Table) (d : Decoded σ Byte Frame) (segment : List Byte) :
    Decoded σ Byte Frame :=
  (reference O T).feed { d with rest := trim d.rest } segment

/-- Decode segments, one after the other. -/
def decodeSegments (O : Orders σ) (T : Table) (s : σ) (segments : List (List Byte)) :
    Decoded σ Byte Frame :=
  segments.foldl (receive O T) { emitted := [], state := s, rest := [] }

/-- The socket has come as far as the decoder, with bounded calls only. -/
structure Tracks (I : σ → Prop) (d : Decoded σ Byte Frame) (socket : Socket σ) : Prop where
  frames : socket.frames = d.emitted
  state : socket.state = d.state
  rest : socket.rxStreamBuffer = trim d.rest
  bounded : ∀ call ∈ socket.calls, Bounded call
  inv : I socket.state

section table
variable {O : Orders σ} {T : Table} {I : σ → Prop} (hO : Lawful O T I)

theorem calls_processData (beyond : Nat → Memory) (queue : List (Option Pbuf))
    (socket : Socket σ) : socket.calls ⊆ (socket.processData O beyond queue).calls := by
  induction queue generalizing socket beyond with
  | nil => exact List.Subset.refl _
  | cons packet queue ih =>
    refine List.Subset.trans ?_ (ih _ (socket.receive O (beyond 0) packet))
    unfold Socket.receive
    split
    · exact List.Subset.refl _
    · split
      · exact List.subset_append_left _ _
      · exact List.Subset.refl _

include hO

/-- A segment: the socket keeps up with the decoder, unless that waits for a self-sized
frame. -/
theorem receive_tracks {d : Decoded σ Byte Frame} {socket : Socket σ} (h : Tracks I d socket)
    (beyond : Memory) {packet : Pbuf} (hp : packet.copied.length = packet.totLen) :
    let socket' := socket.receive O beyond (some packet)
    let d' := receive O T d packet.copied
    (¬ Waits T d'.rest ∧ Tracks I d' socket') ∨
      (Waits T d'.rest ∧ ∃ call ∈ socket'.calls, ¬ Bounded call) := by
  intro socket' d'
  have hsocket : socket' = socket.processStream O beyond (trim d.rest ++ packet.copied) := by
    show socket.receive O beyond (some packet) = _
    rw [Socket.receive, if_pos hp, h.rest]
  have hd : d' = ((reference O T).decode socket.state (trim d.rest ++ packet.copied)).after
      d.emitted := by
    rw [h.state]
    rfl
  generalize trim d.rest ++ packet.copied = buffer at hsocket hd
  rw [hsocket, hd]
  have hnew : ({ buffered := buffer.length
                 parsedBytes := (process O beyond buffer socket.state).1.parsedBytes
                 dispatched := (process O beyond buffer socket.state).1.dispatched } : Call) ∈
      (socket.processStream O beyond buffer).calls :=
    List.mem_append_right _ (List.mem_singleton_self _)
  rcases process_follows hO h.inv beyond buffer with ⟨hw, ha⟩ | ⟨hw, hlong⟩
  · refine .inl ⟨hw, ?_, ha.state, ?_, ?_, ?_⟩
    · unfold Socket.processStream Socket.frames
      rw [List.flatMap_append, show socket.calls.flatMap Call.frames = _ from h.frames]
      simp only [List.flatMap_singleton, Call.frames, ha.frames]
      rfl
    · show (process O beyond buffer socket.state).2 = _
      rw [process_rest, ha.rest]
      rfl
    · intro call hcall
      rcases List.mem_append.mp hcall with hcall | hcall
      · exact h.bounded call hcall
      · rw [List.mem_singleton.mp hcall]
        exact ⟨ha.parsedBytes, ha.reads⟩
    · show I (process O beyond buffer socket.state).1.state
      rw [ha.state]
      exact Decoder.decode_keeps (reference_stable hO) h.inv _
  · exact .inr ⟨hw, _, hnew, fun hb => absurd hb.1 (Nat.not_le.mpr hlong)⟩

/-- The socket stays bounded as long as the decoder waits for no self-sized frame, and
then has dispatched the decoder's frames. -/
theorem processData_bounded {queue : List (Option Pbuf)} (hq : Complete queue)
    {d : Decoded σ Byte Frame} {socket : Socket σ} (h : Tracks I d socket)
    (hd : ¬ Waits T d.rest) (beyond : Nat → Memory) :
    let socket' := socket.processData O beyond queue
    ((∀ call ∈ socket'.calls, Bounded call) ↔
      ∀ pre, pre <+: segments queue → ¬ Waits T (pre.foldl (receive O T) d).rest) ∧
    ((∀ call ∈ socket'.calls, Bounded call) →
      socket'.frames = ((segments queue).foldl (receive O T) d).emitted) := by
  induction queue generalizing d socket beyond with
  | nil =>
    refine ⟨⟨fun _ pre hpre => ?_, fun _ => h.bounded⟩, fun _ => h.frames⟩
    rw [show segments [] = [] from rfl, List.prefix_nil] at hpre
    rw [hpre]
    exact hd
  | cons packet queue ih =>
    have hq' : Complete queue := fun p hp => hq p (List.mem_cons_of_mem _ hp)
    cases packet with
    | none => exact ih hq' h hd _
    | some packet =>
      have hseg : segments (some packet :: queue) = packet.copied :: segments queue := rfl
      rw [hseg]
      rcases receive_tracks hO h (beyond 0) (hq packet List.mem_cons_self) with
        ⟨hw, ht⟩ | ⟨hw, call, hcall, hbad⟩
      · obtain ⟨hiff, hframes⟩ := ih hq' ht hw fun i => beyond (i + 1)
        refine ⟨hiff.trans ⟨fun hall pre hpre => ?_, fun hall pre hpre => ?_⟩, hframes⟩
        · rcases List.prefix_cons_iff.mp hpre with rfl | ⟨t, rfl, ht⟩
          · exact hd
          · exact hall t ht
        · exact hall (packet.copied :: pre) (List.prefix_cons_iff.mpr (.inr ⟨pre, rfl, hpre⟩))
      · have hover : ¬ ∀ call ∈ (socket.processData O beyond (some packet :: queue)).calls,
            Bounded call := fun hall => hbad (hall call (calls_processData _ queue _ hcall))
        refine ⟨⟨fun hall => absurd hall hover, fun hall => ?_⟩, fun hall => absurd hall hover⟩
        exact absurd hw (hall [packet.copied] (List.prefix_cons_iff.mpr
          (.inr ⟨[], rfl, List.nil_prefix⟩)))

/-! ## Main result -/

/-- **Bounded and complete**: the parser parses and reads only what is buffered, and
dispatches the frames of a decoder that waits for complete ones, exactly when no segment
leaves that decoder waiting for a self-sized frame. -/
theorem stream_bounded {s : σ} (hI : I s) {queue : List (Option Pbuf)} (hq : Complete queue)
    (beyond : Nat → Memory) :
    let socket := ({ state := s } : Socket σ).processData O beyond queue
    ((∀ call ∈ socket.calls, Bounded call) ∧
      socket.frames = (decodeSegments O T s (segments queue)).emitted) ↔
    ∀ pre, pre <+: segments queue → ¬ Waits T (decodeSegments O T s pre).rest := by
  have h0 : Tracks I { emitted := [], state := s, rest := [] } { state := s } :=
    ⟨rfl, rfl, rfl, nofun, hI⟩
  obtain ⟨hiff, hframes⟩ := processData_bounded hO hq h0 (fun h => absurd h.1 (Nat.not_succ_le_zero 1))
    beyond
  exact ⟨fun h => hiff.mp h.1, fun h => ⟨hiff.mpr h, hframes (hiff.mpr h)⟩⟩

end table

/-! ## The diagnostic transport order -/

/-- The order of a diagnostic sink, and what it has handed to the hub. -/
structure Receiver where
  order : DiagnosticTransportOrder
  published : List (BitVec 16 × CString formattedMessageCapacity × CString originCapacity) := []

/-- The order registered under its three ids. -/
def transportOrders : Orders Receiver where
  find _ id :=
    if id = diagnosticFaultOrderId ∨ id = diagnosticWarningOrderId ∨ id = diagnosticOkOrderId then
      some 0
    else none
  getSize _ s := s.order.getSize
  storeIpOrder _ s := s
  parse _ data s := { s with order := s.order.parse data }
  reads _ data _ := messageEnd data + timestampSize
  process _ s :=
    { s with published := s.published ++ [(s.order.id, s.order.message, s.order.origin)] }
  resetForReceive _ s := { s with order := s.order.resetForReceive }

theorem originEnd_ofPrefix {d d' : Memory} (h : ∀ i < originEnd d, d i = d' i) :
    originEnd d' = originEnd d := by
  unfold originEnd at h ⊢
  have hlen : strnlen (d'.advance 4) originCapacity = strnlen (d.advance 4) originCapacity :=
    strnlen_ofPrefix fun i hi => h (4 + i) (by omega)
  rw [hlen]

theorem messageEnd_ofPrefix {d d' : Memory} (h : ∀ i < messageEnd d, d i = d' i) :
    messageEnd d' = messageEnd d := by
  have horigin : originEnd d' = originEnd d := originEnd_ofPrefix fun i hi =>
    h i (by unfold messageEnd; omega)
  unfold messageEnd at h ⊢
  have hlen : strnlen (d'.advance (originEnd d)) formattedMessageCapacity =
      strnlen (d.advance (originEnd d)) formattedMessageCapacity :=
    strnlen_ofPrefix fun i hi => h (originEnd d + i) (by omega)
  rw [horigin, hlen]

/-- How long a frame is: up to the end of the message, and the timestamp. -/
def transportExtent : Extent where
  size data := messageEnd data + timestampSize
  pos _ := Nat.succ_pos _
  ofPrefix h := by rw [messageEnd_ofPrefix fun i hi => h i (by omega)]

theorem parse_ofPrefix (o : DiagnosticTransportOrder) {d d' : Memory}
    (h : ∀ i < messageEnd d + timestampSize, d i = d' i) : o.parse d' = o.parse d := by
  have hend := messageEnd_ofPrefix fun i hi => h i (by omega)
  have hle : originEnd d ≤ messageEnd d := by
    unfold messageEnd
    omega
  have hlow : 4 ≤ originEnd d := by
    unfold originEnd
    omega
  have horiginEnd := originEnd_ofPrefix fun i hi => h i (by omega)
  have horigin : copyCString originCapacity (d'.advance 4) = copyCString originCapacity (d.advance 4) :=
    copyCString_ofPrefix fun i hi => h (4 + i) (by unfold originEnd at hle; omega)
  have hmessage : copyCString formattedMessageCapacity (d'.advance (originEnd d)) =
      copyCString formattedMessageCapacity (d.advance (originEnd d)) :=
    copyCString_ofPrefix fun i hi => h (originEnd d + i) (by unfold messageEnd; omega)
  have htail : (d'.advance (messageEnd d)).bytes timestampSize =
      (d.advance (messageEnd d)).bytes timestampSize :=
    bytes_congr fun i hi => h (messageEnd d + i) (by omega)
  unfold DiagnosticTransportOrder.parse DiagnosticTransportOrder.copyTail
  rw [hend, horiginEnd, horigin, hmessage, htail, h 0 (by omega), h 1 (by omega), h 3 (by omega)]

def transportTable : Table where
  find id :=
    if id = diagnosticFaultOrderId ∨ id = diagnosticWarningOrderId ∨ id = diagnosticOkOrderId then
      some 0
    else none
  kind _ := .selfSized transportExtent

/-- The order says its size only while it is handled. -/
theorem transportOrders_lawful :
    Lawful transportOrders transportTable fun s => s.order.size = 0 where
  find _ := rfl
  findStored _ _ := rfl
  announced h _ := h
  consumed _ _ data := if_pos (Nat.succ_pos _)
  reads _ _ _ := Nat.le_refl _
  ofPrefix {s} _ _ _ _ h := by
    show { s with order := _ } = { s with order := _ }
    rw [parse_ofPrefix _ h]
  keeps _ _ _ := rfl

/-- The frame of a record with empty texts. -/
def emptyFrame : List Byte := [0x13, 0x06, 3, 5, 0, 0, 0, 0, 0, 0, 0, 0, 0, 0, 0]

/-- The receiver before anything has come. -/
def receiver : Receiver := { order := { id := diagnosticOkOrderId } }

/-- A stray byte and a frame in one packet, and half of an id in the next. -/
theorem stream_bounded_frame :
    let socket := ({ state := receiver } : Socket Receiver).processData transportOrders
      (fun _ _ => 7#8) [packet (9 :: emptyFrame), packet [0x13]]
    (∀ call ∈ socket.calls, Bounded call) ∧
      socket.frames = [{ order := 0, bytes := emptyFrame }] := by
  intro socket
  have hq : Complete [packet (9 :: emptyFrame), packet [0x13]] := by
    intro p hp
    simp only [List.mem_cons, List.not_mem_nil, or_false] at hp
    rcases hp with hp | hp <;> cases hp <;> rfl
  have hcut : ∀ pre, pre <+: segments [packet (9 :: emptyFrame), packet [0x13]] →
      ¬ Waits transportTable (decodeSegments transportOrders transportTable receiver pre).rest := by
    intro pre hpre
    rw [← List.mem_inits] at hpre
    revert pre
    decide +kernel
  obtain ⟨hbounded, hframes⟩ := (stream_bounded transportOrders_lawful (s := receiver) rfl hq
    fun _ _ => 7#8).mpr hcut
  refine ⟨hbounded, hframes.trans ?_⟩
  decide +kernel

/-- **A frame cut in two** is parsed past the end of its first part. -/
theorem stream_not_bounded :
    ¬ ∀ (queue : List (Option Pbuf)) (beyond : Nat → Memory), Complete queue →
      ∀ call ∈ (({ state := receiver } : Socket Receiver).processData transportOrders beyond
        queue).calls, Bounded call := by
  intro h
  have := h [packet (emptyFrame.take 5), packet (emptyFrame.drop 5)] (fun _ _ => 0#8) ?_
  · revert this
    unfold Bounded
    decide +kernel
  · intro p hp
    simp only [List.mem_cons, List.not_mem_nil, or_false] at hp
    rcases hp with hp | hp <;> cases hp <;> rfl

end StLib.Communication.StreamBounds
