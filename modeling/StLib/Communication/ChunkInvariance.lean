import StLib.Communication.OrderTable

/-! # Segments make no difference

With orders of fixed size that fit in the stream buffer, a socket dispatches the frames
that the reference decoder finds in the whole stream, however the stream is cut into
segments (`chunk_invariance`). -/
namespace StLib.Communication.ChunkInvariance

open StLib.Base.Bytes StLib.Base.Chunks
open StLib.Communication.OrderStream StLib.Communication.OrderTable

variable {σ : Type}

/-- Every order has a fixed size, of at least the id and at most the stream buffer. -/
def FixedSizes (T : Table) : Prop :=
  ∀ id order, T.find id = some order →
    2 ≤ (T.kind order).announced ∧ (T.kind order).announced ≤ maxRxStreamBufferBytes

/-- What is seen of a socket: the frames dispatched, the state and the bytes left. -/
def observed (socket : Socket σ) : Decoded σ Byte Frame where
  emitted := socket.frames
  state := socket.state
  rest := socket.rxStreamBuffer

/-- Calls of `process_data`, each with the packets queued meanwhile. -/
def run (O : Orders σ) (beyond : Nat → Nat → Memory) :
    List (List (Option Pbuf)) → Socket σ → Socket σ
  | [], socket => socket
  | queue :: queues, socket =>
    run O (fun i => beyond (i + 1)) queues (socket.processData O (beyond 0) queue)

/-- The segments of the packets received. -/
def segments (queue : List (Option Pbuf)) : List (List Byte) :=
  queue.filterMap fun packet => packet.map Pbuf.copied

/-- `pbuf_copy_partial` copies the whole of each packet. -/
def Complete (queue : List (Option Pbuf)) : Prop :=
  ∀ packet, some packet ∈ queue → packet.copied.length = packet.totLen

section table
variable {O : Orders σ} {T : Table} {I : σ → Prop} (hO : Lawful O T I) (hT : FixedSizes T)

include hT in
theorem not_waits (rest : List Byte) : ¬ Waits T rest := by
  rintro ⟨-, order, hfind, hself, -⟩
  have := (hT _ order hfind).1
  omega

include hT in
/-- What the reference decoder leaves fits in the stream buffer. -/
theorem length_of_stopped {s : σ} {rest : List Byte} (h : referenceStep O T s rest = none) :
    rest.length ≤ maxRxStreamBufferBytes := by
  unfold referenceStep at h
  split at h
  next hlen =>
    have : 2 ≤ maxRxStreamBufferBytes := by decide
    omega
  next hlen =>
    split at h
    next => cases h
    next order hfind =>
      obtain ⟨hlow, hhigh⟩ := hT _ order hfind
      rw [if_neg (by omega)] at h
      dsimp only at h
      rw [Kind.size_eq_announced (by omega)] at h
      split at h
      · omega
      · cases h

include hO hT

/-- `process` decodes the buffer. -/
theorem observed_processStream {socket : Socket σ} (hI : I socket.state) (beyond : Memory)
    (buffer : List Byte) :
    observed (socket.processStream O beyond buffer) =
      ((reference O T).decode socket.state buffer).after (observed socket).emitted := by
  rcases process_follows hO hI beyond buffer with ⟨-, ha⟩ | ⟨hw, -⟩
  · have hfits := length_of_stopped (O := O) hT ((reference O T).step_decode socket.state buffer)
    have hrest : (process O beyond buffer socket.state).2 =
        ((reference O T).decode socket.state buffer).rest := by
      rw [process_rest, ha.rest, trim, if_neg (Nat.not_lt.mpr hfits)]
    unfold observed Socket.processStream Socket.frames
    rw [List.flatMap_append]
    simp only [List.flatMap_singleton, Call.frames, ha.frames, ha.state, hrest]
    rfl
  · exact absurd hw (not_waits hT _)

/-- A segment received is a chunk decoded. -/
theorem observed_receive {socket : Socket σ} (hI : I socket.state) (beyond : Memory)
    {packet : Pbuf} (hp : packet.copied.length = packet.totLen) :
    observed (socket.receive O beyond (some packet)) =
      (reference O T).feed (observed socket) packet.copied := by
  rw [Socket.receive, if_pos hp]
  exact observed_processStream hO hT hI beyond _

/-- A call of `process_data` feeds the segments queued. -/
theorem observed_processData {queue : List (Option Pbuf)} (hq : Complete queue)
    {socket : Socket σ} (hI : I socket.state) (beyond : Nat → Memory) :
    observed (socket.processData O beyond queue) =
        (segments queue).foldl (reference O T).feed (observed socket) ∧
      I (socket.processData O beyond queue).state := by
  induction queue generalizing socket beyond with
  | nil => exact ⟨rfl, hI⟩
  | cons packet queue ih =>
    have hq' : Complete queue := fun p hp => hq p (List.mem_cons_of_mem _ hp)
    cases packet with
    | none => exact ih hq' hI _
    | some packet =>
      have hr := observed_receive hO hT hI (beyond 0) (hq packet List.mem_cons_self)
      have hI' : I (socket.receive O (beyond 0) (some packet)).state := by
        rw [show (socket.receive O (beyond 0) (some packet)).state = _ from
          congrArg Decoded.state hr]
        exact Decoder.decode_keeps (reference_stable hO) hI _
      obtain ⟨hobs, hend⟩ := ih hq' hI' _
      refine ⟨?_, hend⟩
      rw [show segments (some packet :: queue) = packet.copied :: segments queue from rfl,
        List.foldl_cons, ← hr]
      exact hobs

theorem observed_run {queues : List (List (Option Pbuf))} (hq : ∀ queue ∈ queues, Complete queue)
    {socket : Socket σ} (hI : I socket.state) (beyond : Nat → Nat → Memory) :
    observed (run O beyond queues socket) =
      (queues.flatMap segments).foldl (reference O T).feed (observed socket) := by
  induction queues generalizing socket beyond with
  | nil => rfl
  | cons queue queues ih =>
    obtain ⟨hobs, hI'⟩ := observed_processData hO hT (hq queue List.mem_cons_self) hI (beyond 0)
    rw [run, ih (fun q h => hq q (List.mem_cons_of_mem _ h)) hI', hobs, List.flatMap_cons,
      List.foldl_append]

/-! ## Main result -/

/-- **Segments make no difference**: two ways of receiving the same bytes dispatch the
same orders with the same bytes, and leave the same bytes and the same state. -/
theorem chunk_invariance {s : σ} (hI : I s) {queues queues' : List (List (Option Pbuf))}
    (hq : ∀ queue ∈ queues, Complete queue) (hq' : ∀ queue ∈ queues', Complete queue)
    (hbytes : (queues.flatMap segments).flatten = (queues'.flatMap segments).flatten)
    (beyond beyond' : Nat → Nat → Memory) :
    observed (run O beyond queues { state := s }) =
      observed (run O beyond' queues' { state := s }) := by
  have hwhole : ∀ {qs : List (List (Option Pbuf))}, (∀ queue ∈ qs, Complete queue) →
      ∀ b, observed (run O b qs { state := s }) =
        (reference O T).decode s (qs.flatMap segments).flatten := by
    intro qs h b
    have h0 : observed { state := s } = (reference O T).decode s [] :=
      (Decoder.decode_none (reference_nil O T s)).symm
    rw [observed_run hO hT h hI, h0]
    exact Decoder.feed_eq_decode (reference_stable hO) hI [] _
  rw [hwhole hq, hwhole hq', hbytes]

end table

/-- One order of a byte, with the id 5; the state is the byte it last brought. -/
def byteOrders : Orders Byte where
  find _ id := if id = 5#16 then some 0 else none
  getSize _ _ := 3
  storeIpOrder _ s := s
  parse _ data _ := data 2
  reads _ _ _ := 3
  process _ s := s
  resetForReceive _ s := s

def byteTable : Table where
  find id := if id = 5#16 then some 0 else none
  kind _ := .fixed 3 (by decide)

theorem byteOrders_lawful : Lawful byteOrders byteTable fun _ => True where
  find _ := rfl
  findStored _ _ := rfl
  announced _ _ := rfl
  consumed _ _ _ := rfl
  reads _ _ _ := Nat.le_refl _
  ofPrefix _ _ _ _ h := (h 2 (Nat.lt_succ_self 2)).symm
  keeps _ _ _ := trivial

theorem byteTable_fixed : FixedSizes byteTable := by
  intro id order _
  show 2 ≤ 3 ∧ 3 ≤ maxRxStreamBufferBytes
  decide

/-- A packet that is copied whole. -/
def packet (bytes : List Byte) : Option Pbuf := some { totLen := bytes.length, copied := bytes }

theorem packet_complete (bytes : List Byte) : Complete [packet bytes] := by
  intro p hp
  cases List.mem_singleton.mp hp
  rfl

/-- A stray byte and an order, in one packet and in three. -/
theorem chunk_invariance_byte :
    observed (run byteOrders (fun _ _ _ => 0#8) [[packet [9, 5, 0, 7]]] { state := 0#8 }) =
      observed (run byteOrders (fun _ _ _ => 1#8) [[packet [9, 5]], [packet [0]], [packet [7]]]
        { state := 0#8 }) := by
  refine chunk_invariance byteOrders_lawful byteTable_fixed trivial ?_ ?_ ?_ _ _
  · intro queue h
    rw [List.mem_singleton.mp h]
    exact packet_complete _
  · intro queue h
    simp only [List.mem_cons, List.not_mem_nil, or_false] at h
    rcases h with rfl | rfl | rfl <;> exact packet_complete _
  · rfl

end StLib.Communication.ChunkInvariance
